import AttAcc.Config
import AttAcc.Hardware
import AttAcc.System
import Mathlib.Algebra.Order.Archimedean.Basic
import Mathlib.Data.Rat.Floor
import Mathlib.Tactic.FieldSimp
import Mathlib.Tactic.Linarith
import Mathlib.Tactic.Ring

/-!
# The capacity breakdown

`get_capacity_breakdown` of `src/system.py` reports the largest batch whose KV cache fits the
device that holds it. It divides a capacity by the KV cache of one request, once for the GPUs
and once for the AttAccs.

For the AttAccs the capacity is that of all devices, but the KV cache that of one shard, so
the batch is too large by a factor of the shards (`attaccMaxBatch_iff`). For the GPUs what
`batch_size` requests take of temporary memory is subtracted once, whatever the batch is that
comes out, and a negative rest is divided as well (`gpuMaxBatch_iff`).
-/

namespace AttAcc

/-- `int`: towards zero. -/
def truncate (q : ℚ) : ℤ := if 0 ≤ q then ⌊q⌋ else ⌈q⌉

/-- `kv_per_req_gpu`, `kv_per_req_attacc`. -/
def kvPerReq (kv : ℚ) (batchSize : ℕ) : ℚ := if 0 < kv then kv / max 1 (batchSize : ℚ) else 0

/-- `gpu_max_batch`, `attacc_max_batch`. -/
def maxBatch (available perReq : ℚ) : ℤ :=
  if 0 < perReq then truncate (available / perReq) else 0

/-- The entries of a capacity breakdown that are there when the KV cache is on AttAccs. -/
structure AttaccBreakdown where
  kvPerAttacc : ℚ
  availableKvAttacc : ℚ
  attaccCapacityTotal : ℕ
  maxBatchAtDefaultL : ℤ

/-- The result of `get_capacity_breakdown`. -/
structure CapacityBreakdown where
  weightPerGpu : ℚ
  kvPerGpu : ℚ
  tempPerGpu : ℚ
  availableKv : ℚ
  maxBatchAtDefaultL : ℤ
  attacc : Option AttaccBreakdown

namespace Platform

variable (sys : Platform) (t : Transformer) (batchSize lin lout : ℕ)

/-- `get_attacc_kv_capacity`. -/
def getAttaccKvCapacity : ℚ :=
  if sys.heteroName = .PIM then (t.computeMemComponents batchSize lin lout).kvMemory else 0

/-- `gpu_cap_per_device`. -/
def gpuCapPerDevice : ℚ := sys.gpu.aggregateMemoryCapacity / max 1 (sys.gpu.numXpu : ℚ)

/-- `get_capacity_breakdown`. -/
def getCapacityBreakdown : CapacityBreakdown :=
  let gpu := sys.getRequiredMemCapacity t batchSize lin lout
  let kvPerAttacc := sys.getAttaccKvCapacity t batchSize lin lout
  let availableKvGpu := sys.gpuCapPerDevice - gpu.weightMemory - gpu.tempMemory
  let gpuMaxBatch := maxBatch availableKvGpu (kvPerReq gpu.kvMemory batchSize)
  let result : CapacityBreakdown :=
    { weightPerGpu := gpu.weightMemory, kvPerGpu := gpu.kvMemory, tempPerGpu := gpu.tempMemory
      availableKv := availableKvGpu, maxBatchAtDefaultL := gpuMaxBatch, attacc := none }
  if sys.heteroName = .PIM then
    let accCap := sys.acc.aggregateMemoryCapacity
    let attaccMaxBatch := maxBatch accCap (kvPerReq kvPerAttacc batchSize)
    { result with
      maxBatchAtDefaultL := attaccMaxBatch
      attacc := some ⟨kvPerAttacc, accCap - kvPerAttacc, accCap, attaccMaxBatch⟩ }
  else result

end Platform

/-! ### The largest batch that fits -/

/-- `B` is the largest batch that fits, or zero when no request does. -/
def IsLargestBatch (fits : ℕ → Prop) (B : ℤ) : Prop :=
  ∃ b : ℕ, B = b ∧ (b = 0 ∨ fits b) ∧ ∀ b', fits b' → b' ≤ b

/-- When every request takes the same, it is the quotient. -/
theorem isLargestBatch_iff_floor {room per : ℚ} (hper : 0 < per) {fits : ℕ → Prop}
    (hfits : ∀ b : ℕ, fits b ↔ b * per ≤ room) {B : ℤ} :
    IsLargestBatch fits B ↔ B = (⌊room / per⌋₊ : ℕ) := by
  have hle : ∀ b : ℕ, fits b ↔ (b : ℚ) ≤ room / per := fun b =>
    (hfits b).trans (le_div_iff₀ hper).symm
  have hfloor : ∀ b : ℕ, fits b → b ≤ ⌊room / per⌋₊ := fun b hb => Nat.le_floor ((hle b).mp hb)
  -- the floor itself fits, unless it is cut off at zero
  have hlargest : ⌊room / per⌋₊ = 0 ∨ fits ⌊room / per⌋₊ := by
    rcases Nat.eq_zero_or_pos ⌊room / per⌋₊ with hzero | hpos
    · exact .inl hzero
    · exact .inr ((hle _).mpr (Nat.floor_le (Nat.pos_of_floor_pos hpos).le))
  refine ⟨?_, ?_⟩
  · rintro ⟨b, rfl, hb, hall⟩
    refine congrArg Int.ofNat (le_antisymm ?_ ?_)
    · rcases hb with rfl | hb
      · exact Nat.zero_le _
      · exact hfloor b hb
    · rcases hlargest with hzero | hfits
      · rw [hzero]
        exact Nat.zero_le _
      · exact hall _ hfits
  · rintro rfl
    exact ⟨_, rfl, hlargest, hfloor⟩

/-- When a quotient is truncated to a batch: an empty batch also takes negative quotients. -/
theorem truncate_eq_natCast_iff {q : ℚ} {b : ℕ} :
    truncate q = b ↔ if b = 0 then |q| < 1 else b ≤ q ∧ q < b + 1 := by
  rw [truncate]
  rcases Nat.eq_zero_or_pos b with rfl | hb
  · rw [if_pos rfl, abs_lt, Nat.cast_zero]
    split_ifs with hq
    · rw [Int.floor_eq_zero_iff, Set.mem_Ico]
      exact ⟨fun h => ⟨by linarith, h.2⟩, fun h => ⟨hq, h.2⟩⟩
    · rw [Int.ceil_eq_zero_iff, Set.mem_Ioc]
      have hq := not_le.mp hq
      exact ⟨fun h => ⟨h.1, by linarith⟩, fun h => ⟨h.1, hq.le⟩⟩
  · rw [if_neg hb.ne']
    have hone : (1 : ℚ) ≤ b := by exact_mod_cast hb
    split_ifs with hq
    · rw [Int.floor_eq_iff, Int.cast_natCast]
    · have hq := not_le.mp hq
      refine iff_of_false ?_ ?_
      · intro hceil
        have hle : ⌈q⌉ ≤ 0 := Int.ceil_le.mpr (by exact_mod_cast hq.le)
        omega
      · rintro ⟨hle, -⟩
        linarith

/-! ### The KV cache on AttAccs -/

namespace Transformer

variable (t : Transformer) (lin lout : ℕ)

/-- The KV cache of one request on all shards, in bytes. -/
def kvBytes : ℤ := t.ndec * 2 * (lin + lout - 1) * t.numKvHeads * t.dhead * t.dtype.aByte

/-- The KV cache of a batch on all shards. -/
def kvOfShards (batchSize : ℕ) : ℚ :=
  t.attnTp * (t.computeMemComponents batchSize lin lout).kvMemory

variable {t}

theorem attnTp_pos (htp : 0 < t.tpArg) : 0 < t.attnTp := by
  rw [t.attnTp_eq]
  exact lt_min htp t.numKvHeads_pos

/-- A shard holds its part of the KV cache of every request. -/
theorem kvMemory_eq (batchSize : ℕ) :
    (t.computeMemComponents batchSize lin lout).kvMemory =
      t.kvBytes lin lout / t.attnTp * batchSize := rfl

/-- All shards hold all of it. -/
theorem kvOfShards_eq (htp : 0 < t.tpArg) (batchSize : ℕ) :
    t.kvOfShards lin lout batchSize = t.kvBytes lin lout * batchSize := by
  have hne : (t.attnTp : ℚ) ≠ 0 := Nat.cast_ne_zero.mpr (attnTp_pos htp).ne'
  rw [kvOfShards, kvMemory_eq]
  field_simp

end Transformer

/-- The KV cache of one request, in a batch that has some. -/
theorem kvPerReq_mul {kv : ℚ} {batchSize : ℕ} (hbatch : 0 < batchSize) :
    kvPerReq (kv * batchSize) batchSize = if 0 < kv then kv else 0 := by
  have hpos : (0 : ℚ) < batchSize := Nat.cast_pos.mpr hbatch
  have hone : (1 : ℚ) ≤ batchSize := by exact_mod_cast hbatch
  rw [kvPerReq, max_eq_right hone, mul_div_assoc, div_self hpos.ne', mul_one]
  by_cases hkv : 0 < kv
  · rw [if_pos hkv, if_pos (mul_pos hkv hpos)]
  · rw [if_neg hkv, if_neg (not_lt.mpr (mul_nonpos_of_nonpos_of_nonneg (not_lt.mp hkv) hpos.le))]

namespace Platform

variable {sys : Platform} {t : Transformer}

/-- The batch is the quotient of the capacity of all AttAccs and the KV cache of one shard. -/
theorem maxBatchAtDefaultL_of_pim (htp : 0 < t.tpArg) (hpim : sys.heteroName = .PIM)
    (batchSize lin lout : ℕ) :
    (sys.getCapacityBreakdown t batchSize lin lout).maxBatchAtDefaultL =
      if batchSize = 0 ∨ t.kvBytes lin lout ≤ 0 then 0
      else t.attnTp * sys.acc.aggregateMemoryCapacity / t.kvBytes lin lout := by
  have hbatch : (sys.getCapacityBreakdown t batchSize lin lout).maxBatchAtDefaultL =
      maxBatch sys.acc.aggregateMemoryCapacity
        (kvPerReq (t.kvBytes lin lout / t.attnTp * batchSize) batchSize) := by
    rw [getCapacityBreakdown, if_pos hpim, getAttaccKvCapacity, if_pos hpim, t.kvMemory_eq]
  have htp : (0 : ℚ) < t.attnTp := Nat.cast_pos.mpr (Transformer.attnTp_pos htp)
  rw [hbatch]
  rcases Nat.eq_zero_or_pos batchSize with rfl | hpos
  · simp [kvPerReq, maxBatch]
  rw [kvPerReq_mul hpos]
  rcases lt_or_ge 0 (t.kvBytes lin lout) with hkv | hkv
  · obtain ⟨kv, hcast⟩ := Int.eq_ofNat_of_zero_le hkv.le
    rw [hcast] at hkv ⊢
    have hkv' : (0 : ℚ) < kv := by exact_mod_cast hkv
    have hper : (0 : ℚ) < kv / t.attnTp := div_pos hkv' htp
    have hquot : (sys.acc.aggregateMemoryCapacity : ℚ) / (kv / t.attnTp) =
        ((t.attnTp * sys.acc.aggregateMemoryCapacity : ℤ) : ℚ) / (kv : ℕ) := by
      push_cast
      field_simp
    have hnonneg : (0 : ℚ) ≤ ((t.attnTp * sys.acc.aggregateMemoryCapacity : ℤ) : ℚ) / (kv : ℕ) := by
      positivity
    rw [Int.cast_natCast, if_pos hper, maxBatch, if_pos hper, hquot, truncate, if_pos hnonneg,
      Rat.floor_intCast_div_natCast, if_neg (by omega)]
  · have hper : (t.kvBytes lin lout : ℚ) / t.attnTp ≤ 0 :=
      div_nonpos_of_nonpos_of_nonneg (by exact_mod_cast hkv) htp.le
    rw [if_neg (not_lt.mpr hper), maxBatch, if_neg (lt_irrefl 0), if_pos (.inr hkv)]

/-- As many fit `n` times the capacity as fit it once only if `n` is one, or nothing fits. -/
theorem mul_ediv_eq_ediv_iff {n : ℕ} (hn : 0 < n) {cap kv : ℤ} (hcap : 0 ≤ cap) (hkv : 0 < kv) :
    n * cap / kv = cap / kv ↔ n = 1 ∨ n * cap < kv := by
  refine ⟨?_, ?_⟩
  · intro h
    by_contra hneg
    obtain ⟨hone, hle⟩ := not_or.mp hneg
    have htwo : (2 : ℤ) ≤ n := by omega
    have hsome : 1 ≤ n * cap / kv := (Int.le_ediv_iff_mul_le hkv).mpr (by omega)
    have hdouble : 2 * (cap / kv) ≤ n * cap / kv := by
      apply (Int.le_ediv_iff_mul_le hkv).mpr
      calc 2 * (cap / kv) * kv = 2 * (cap / kv * kv) := mul_assoc _ _ _
        _ ≤ 2 * cap := by have := Int.ediv_mul_le cap hkv.ne'; omega
        _ ≤ n * cap := mul_le_mul_of_nonneg_right htwo hcap
    omega
  · rintro (rfl | hlt)
    · rw [Nat.cast_one, one_mul]
    · have hle : cap ≤ n * cap := le_mul_of_one_le_left hcap (by omega)
      rw [Int.ediv_eq_zero_of_lt (hcap.trans hle) hlt,
        Int.ediv_eq_zero_of_lt hcap (hle.trans_lt hlt)]

/-- **When the batch of the AttAccs is the largest that fits them**: the requests take memory, and
there is one shard, or the AttAccs cannot hold a shard of one request. A batch of none takes no
memory, and is reported to leave room for none. -/
theorem attaccMaxBatch_iff (htp : 0 < t.tpArg) (hpim : sys.heteroName = .PIM)
    (batchSize lin lout : ℕ) :
    (∃ (b : ℕ) (entry : AttaccBreakdown),
      (sys.getCapacityBreakdown t batchSize lin lout).maxBatchAtDefaultL = b ∧
        (sys.getCapacityBreakdown t batchSize lin lout).attacc = some entry ∧
        t.kvOfShards lin lout b ≤ entry.attaccCapacityTotal ∧
        entry.attaccCapacityTotal < t.kvOfShards lin lout (b + 1)) ↔
      0 < t.kvBytes lin lout ∧
        if batchSize = 0 then sys.acc.aggregateMemoryCapacity < t.kvBytes lin lout
        else t.attnTp = 1 ∨ t.attnTp * sys.acc.aggregateMemoryCapacity < t.kvBytes lin lout := by
  have hentry : ∃ entry, (sys.getCapacityBreakdown t batchSize lin lout).attacc = some entry ∧
      entry.attaccCapacityTotal = sys.acc.aggregateMemoryCapacity := by
    rw [getCapacityBreakdown, if_pos hpim]
    exact ⟨_, rfl, rfl⟩
  obtain ⟨entry, hentry, hcap⟩ := hentry
  have htp' := Transformer.attnTp_pos htp
  rw [hentry, maxBatchAtDefaultL_of_pim htp hpim]
  generalize hkv : t.kvBytes lin lout = kv
  generalize hc : sys.acc.aggregateMemoryCapacity = cap at hcap
  have hfits : ∀ b : ℕ, t.kvOfShards lin lout b ≤ cap ↔ kv * b ≤ cap := by
    intro b
    rw [Transformer.kvOfShards_eq lin lout htp, hkv]
    exact_mod_cast Iff.rfl
  have hfails : ∀ b : ℕ, cap < t.kvOfShards lin lout (b + 1) ↔ cap < kv * (b + 1) := by
    intro b
    rw [Transformer.kvOfShards_eq lin lout htp, hkv]
    exact_mod_cast Iff.rfl
  -- of the batches only the quotient on all shards fits with none above it
  have hquot : 0 < kv → ∀ b : ℕ, kv * b ≤ cap ∧ cap < kv * (b + 1) ↔ (b : ℤ) = cap / kv := by
    intro hpos b
    rw [mul_comm kv, mul_comm kv, ← Int.le_ediv_iff_mul_le hpos, ← Int.ediv_lt_iff_lt_mul hpos]
    omega
  refine ⟨?_, ?_⟩
  · rintro ⟨b, entry', hb, hsome, hfit, hmore⟩
    obtain rfl := Option.some.inj hsome
    rw [hcap] at hfit hmore
    have hfit := (hfits b).mp hfit
    have hmore := (hfails b).mp hmore
    have hpos : 0 < kv := by
      by_contra hneg
      have hle : kv * (b + 1) ≤ 0 := mul_nonpos_of_nonpos_of_nonneg (not_lt.mp hneg) (by omega)
      omega
    have heq := (hquot hpos b).mp ⟨hfit, hmore⟩
    refine ⟨hpos, ?_⟩
    split_ifs with hzero
    · rw [if_pos (.inl hzero)] at hb
      rw [← hb] at hmore
      simpa using hmore
    · rw [if_neg (by omega)] at hb
      exact (mul_ediv_eq_ediv_iff htp' (by omega) hpos).mp (hb.trans heq)
  · rintro ⟨hpos, hcond⟩
    split_ifs at hcond with hzero
    · refine ⟨0, entry, by rw [if_pos (.inl hzero)]; rfl, rfl, ?_, ?_⟩
      · rw [hcap, hfits]
        simp
      · rw [hcap, hfails]
        simpa using hcond
    · have hquotNonneg : 0 ≤ (cap : ℤ) / kv := Int.ediv_nonneg (by omega) hpos.le
      obtain ⟨b, hb⟩ := Int.eq_ofNat_of_zero_le hquotNonneg
      obtain ⟨hfit, hmore⟩ := (hquot hpos b).mpr hb.symm
      have hsame := (mul_ediv_eq_ediv_iff htp' (by omega) hpos).mpr hcond
      refine ⟨b, entry, by rw [if_neg (by omega), hsame, hb], rfl, ?_, ?_⟩
      · rw [hcap, hfits]
        exact hfit
      · rw [hcap, hfails]
        exact hmore

/-- A system of GPUs and AttAccs, as the experiments make it. -/
def attaccPlatform (tp numHbm : ℕ) : Platform where
  heteroName := .PIM
  gpu := (makeGpuConfig .H100 tp).device
  acc := .pim ((makePimConfig .BA .NVLINK4 tp numHbm false).device
    fun _ _ _ => .error .indexError)
  acc_pim _ := rfl

/-- On one AttAcc the batch is the largest that fits. -/
theorem attaccMaxBatch_one : ∃ (t : Transformer) (b : ℕ) (entry : AttaccBreakdown),
    Transformer.new (makeModelConfig .qwen3_4B .W16A16) 1 = .ok t ∧
      ((attaccPlatform 1 5).getCapacityBreakdown t 1 2048 128).maxBatchAtDefaultL = b ∧
      ((attaccPlatform 1 5).getCapacityBreakdown t 1 2048 128).attacc = some entry ∧
      t.kvOfShards 2048 128 b ≤ entry.attaccCapacityTotal := by
  obtain ⟨t, ht, htp, hkv, hattn⟩ : ∃ t,
      Transformer.new (makeModelConfig .qwen3_4B .W16A16) 1 = .ok t ∧ t.tpArg = 1 ∧
        0 < t.kvBytes 2048 128 ∧ t.attnTp = 1 :=
    ⟨_, rfl, rfl, by decide, rfl⟩
  have hpim : (attaccPlatform 1 5).heteroName = .PIM := rfl
  obtain ⟨b, entry, hb, hentry, hfit, -⟩ :=
    (attaccMaxBatch_iff (htp ▸ Nat.one_pos) hpim 1 2048 128).mpr ⟨hkv, .inl hattn⟩
  exact ⟨t, b, entry, ht, hb, hentry, hfit⟩

/-- On two it is more than fits: their shards hold half of the KV cache each. -/
theorem not_attaccMaxBatch_two : ∃ t b entry,
    Transformer.new (makeModelConfig .qwen3_4B .W16A16) 2 = .ok t ∧
      ((attaccPlatform 2 5).getCapacityBreakdown t 1 2048 128).maxBatchAtDefaultL = b ∧
      ((attaccPlatform 2 5).getCapacityBreakdown t 1 2048 128).attacc = some entry ∧
      entry.attaccCapacityTotal < t.kvOfShards 2048 128 1071 ∧ b = 1071 := by
  refine ⟨_, _, _, rfl, rfl, rfl, ?_, ?_⟩
  · decide +kernel
  · decide +kernel

end Platform

/-! ### The KV cache on GPUs -/

namespace Transformer

variable {t : Transformer} {lin lout : ℕ}

theorem tempMemory_eq (batchSize : ℕ) : (t.computeMemComponents batchSize lin lout).tempMemory =
    (t.computeMemComponents 1 lin lout).tempMemory * batchSize := by
  simp [computeMemComponents]

/-- A request with a KV cache has a sequence, and takes no negative temporary memory. -/
theorem tempMemory_nonneg (hkv : 0 < t.kvBytes lin lout) :
    0 ≤ (t.computeMemComponents 1 lin lout).tempMemory := by
  have hlength : (0 : ℤ) ≤ lin + lout - 1 := by
    by_contra hneg
    have hle : t.kvBytes lin lout ≤ 0 := by
      rw [kvBytes, mul_assoc, mul_assoc, mul_right_comm, ← mul_assoc]
      refine mul_nonpos_of_nonneg_of_nonpos (by positivity) (not_le.mp hneg).le
    omega
  have hscore : (0 : ℤ) ≤ (lin + lout - 1) * t.numQHeads * t.dtype.aByte :=
    mul_nonneg (mul_nonneg hlength (Nat.cast_nonneg _)) (Nat.cast_nonneg _)
  have hhidden : (0 : ℤ) ≤ t.hdim * 2 * t.dtype.aByte := by positivity
  rw [computeMemComponents]
  refine mul_nonneg (Int.cast_nonneg (add_nonneg ?_ hscore)) (Nat.cast_nonneg 1)
  exact hhidden.trans (le_max_of_le_left (le_max_of_le_left (le_max_right _ _)))

end Transformer

/-- What is left beside the weights and the temporary memory of `batchSize` requests is as
many whole KV caches as requests fit, and without a KV cache no request fits. -/
def QuotientFits (cap weight kv temp : ℚ) (batchSize : ℕ) : Prop :=
  if 0 < kv then
    let b := ⌊(cap - weight) / (kv + temp)⌋₊
    if b = 0 then |cap - weight - temp * batchSize| < kv
    else b * kv ≤ cap - weight - temp * batchSize ∧
      cap - weight - temp * batchSize < (b + 1) * kv
  else 0 ≤ kv + temp ∧ cap < weight + (kv + temp)

namespace Platform

variable {sys : Platform} {t : Transformer}

/-- `sum(get_required_mem_capacity(b, lin, lout))` is at most the capacity of a GPU. -/
def FitsGpu (sys : Platform) (t : Transformer) (lin lout b : ℕ) : Prop :=
  (sys.getRequiredMemCapacity t b lin lout).weightMemory +
      (sys.getRequiredMemCapacity t b lin lout).kvMemory +
      (sys.getRequiredMemCapacity t b lin lout).tempMemory ≤ sys.gpuCapPerDevice

/-- A batch fits beside the weights when its requests do. -/
theorem fitsGpu_iff (hgpu : sys.heteroName ≠ .PIM) (lin lout b : ℕ) :
    sys.FitsGpu t lin lout b ↔
      b * ((t.computeMemComponents 1 lin lout).kvMemory +
          (t.computeMemComponents 1 lin lout).tempMemory) ≤
        sys.gpuCapPerDevice - (t.computeMemComponents 1 lin lout).weightMemory := by
  rw [FitsGpu, getRequiredMemCapacity]
  simp only [if_neg hgpu]
  rw [t.kvMemory_eq, t.kvMemory_eq, t.tempMemory_eq b, Nat.cast_one, mul_one, le_sub_iff_add_le]
  refine iff_of_eq (congrArg (· ≤ _) ?_)
  show (t.computeMemComponents 1 lin lout).weightMemory + _ + _ = _
  ring

/-- The batch is the quotient of what is left and the KV cache of a request. -/
theorem maxBatchAtDefaultL_of_gpu (hgpu : sys.heteroName ≠ .PIM) {batchSize : ℕ}
    (hbatch : 1 ≤ batchSize) (lin lout : ℕ) :
    (sys.getCapacityBreakdown t batchSize lin lout).maxBatchAtDefaultL =
      if 0 < (t.computeMemComponents 1 lin lout).kvMemory then
        truncate ((sys.gpuCapPerDevice - (t.computeMemComponents 1 lin lout).weightMemory -
          (t.computeMemComponents 1 lin lout).tempMemory * batchSize) /
            (t.computeMemComponents 1 lin lout).kvMemory)
      else 0 := by
  have hkv : (t.computeMemComponents batchSize lin lout).kvMemory =
      (t.computeMemComponents 1 lin lout).kvMemory * batchSize := by
    rw [t.kvMemory_eq, t.kvMemory_eq, Nat.cast_one, mul_one]
  rw [getCapacityBreakdown, if_neg hgpu, getRequiredMemCapacity]
  simp only [if_neg hgpu]
  rw [hkv, t.tempMemory_eq batchSize, kvPerReq_mul hbatch]
  split_ifs with hpos
  · rw [maxBatch, if_pos hpos]
    rfl
  · rw [maxBatch, if_neg (lt_irrefl 0)]

/-- **When the batch of the GPUs is the largest that fits**: as a rule it is not, since the
temporary memory of the requests is not divided with their KV caches. -/
theorem gpuMaxBatch_iff (hgpu : sys.heteroName ≠ .PIM) (htp : 0 < t.tpArg) {batchSize : ℕ}
    (hbatch : 1 ≤ batchSize) (lin lout : ℕ) :
    IsLargestBatch (sys.FitsGpu t lin lout)
        (sys.getCapacityBreakdown t batchSize lin lout).maxBatchAtDefaultL ↔
      QuotientFits sys.gpuCapPerDevice (t.computeMemComponents 1 lin lout).weightMemory
        (t.computeMemComponents 1 lin lout).kvMemory
        (t.computeMemComponents 1 lin lout).tempMemory batchSize := by
  rw [maxBatchAtDefaultL_of_gpu hgpu hbatch, QuotientFits]
  have hfits := fun b => fitsGpu_iff (t := t) hgpu lin lout b
  have htemp : 0 < (t.computeMemComponents 1 lin lout).kvMemory →
      0 ≤ (t.computeMemComponents 1 lin lout).tempMemory := by
    intro hkv
    apply Transformer.tempMemory_nonneg
    rw [t.kvMemory_eq, Nat.cast_one, mul_one] at hkv
    have htp : (0 : ℚ) < t.attnTp := Nat.cast_pos.mpr (Transformer.attnTp_pos htp)
    have hbytes := (div_pos_iff_of_pos_right htp).mp hkv
    exact_mod_cast hbytes
  generalize (t.computeMemComponents 1 lin lout).kvMemory = kv at hfits htemp ⊢
  generalize (t.computeMemComponents 1 lin lout).tempMemory = temp at hfits htemp ⊢
  generalize (t.computeMemComponents 1 lin lout).weightMemory = weight at hfits ⊢
  split_ifs with hkv
  · have hper : 0 < kv + temp := add_pos_of_pos_of_nonneg hkv (htemp hkv)
    rw [isLargestBatch_iff_floor hper hfits, truncate_eq_natCast_iff]
    generalize ⌊(sys.gpuCapPerDevice - weight) / (kv + temp)⌋₊ = b
    simp only
    split_ifs with hb
    · rw [abs_div, abs_of_pos hkv, div_lt_one hkv]
    · rw [le_div_iff₀ hkv, div_lt_iff₀ hkv]
  · generalize kv + temp = per at hfits ⊢
    refine ⟨?_, ?_⟩
    · rintro ⟨b, hb, -, hall⟩
      -- the batch reported is zero, so no request fits
      have hnone : ∀ b', ¬sys.FitsGpu t lin lout (b' + 1) := by
        intro b' hb'
        have hle := hall _ hb'
        omega
      have hone := mt (hfits 1).mpr (hnone 0)
      rw [Nat.cast_one, one_mul, not_le] at hone
      refine ⟨?_, by linarith⟩
      by_contra hneg
      have hneg := not_le.mp hneg
      obtain ⟨n, hn⟩ := exists_nat_ge ((sys.gpuCapPerDevice - weight) / per)
      -- Requests that take less than nothing fit if they are enough.
      have hmany : ((n + 1 : ℕ) : ℚ) * per ≤ sys.gpuCapPerDevice - weight := by
        rw [← div_le_iff_of_neg hneg]
        push_cast
        linarith
      exact hnone n ((hfits _).mpr hmany)
    · rintro ⟨hper, hcap⟩
      refine ⟨0, rfl, .inl rfl, ?_⟩
      intro b hb
      by_contra hpos
      have hb := (hfits b).mp hb
      have hone : (1 : ℚ) ≤ b := by exact_mod_cast not_le.mp hpos
      have hle := le_mul_of_one_le_left hper hone
      linarith

/-- A system of GPUs. -/
def gpuPlatform (tp : ℕ) : Platform where
  heteroName := .NONE
  gpu := (makeGpuConfig .H100 tp).device
  acc := .xpu (makeGpuConfig .H100 tp).device
  acc_pim := nofun

/-- With long prompts few requests fit, and their temporary memory does not matter. -/
theorem gpuMaxBatch_long : ∃ t, Transformer.new (makeModelConfig .qwen3_4B .W16A16) 1 = .ok t ∧
    IsLargestBatch ((gpuPlatform 1).FitsGpu t 8192 128)
      ((gpuPlatform 1).getCapacityBreakdown t 1 8192 128).maxBatchAtDefaultL := by
  obtain ⟨t, ht, htp, hquot⟩ : ∃ t,
      Transformer.new (makeModelConfig .qwen3_4B .W16A16) 1 = .ok t ∧ t.tpArg = 1 ∧
        QuotientFits (gpuPlatform 1).gpuCapPerDevice
          (t.computeMemComponents 1 8192 128).weightMemory
          (t.computeMemComponents 1 8192 128).kvMemory
          (t.computeMemComponents 1 8192 128).tempMemory 1 := by
    refine ⟨_, rfl, rfl, ?_⟩
    unfold QuotientFits
    decide +kernel
  have hgpu : (gpuPlatform 1).heteroName ≠ .PIM := by decide
  have hiff := gpuMaxBatch_iff (t := t) hgpu (htp ▸ Nat.one_pos) le_rfl 8192 128
  exact ⟨t, ht, hiff.mpr hquot⟩

/-- With shorter ones it does: one request too many is reported. -/
theorem not_gpuMaxBatch_short : ∃ t,
    Transformer.new (makeModelConfig .qwen3_4B .W16A16) 1 = .ok t ∧
      ((gpuPlatform 1).getCapacityBreakdown t 1 2048 128).maxBatchAtDefaultL = 245 ∧
      ¬(gpuPlatform 1).FitsGpu t 2048 128 245 := by
  refine ⟨_, rfl, ?_, ?_⟩
  · decide +kernel
  · unfold FitsGpu
    decide +kernel

end Platform

end AttAcc
