import AttAcc.Library.Chunks
import AttAcc.Ramulator
import AttAcc.System
import AttAcc.Tiles
import Mathlib.Tactic.FieldSimp

/-!
# The efficiency of the attention pipeline

`get_pipelining_efficiency_latency` compares the heads with those that the HBMs have room for, when
each does as many as the fullest. With a head for every HBM at the most there is no other head to
overlap the softmax with, and it counts as well. The result lies between nothing and one, and is
one exactly if the heads come out even, two or more to an HBM (`pipelineEfficiency_eq_one_iff`).

`_apply_eff_lat` divides the times of attention by it, so no layer gets faster
(`getPipeliningEfficiencyLatency_spec`).
-/

namespace AttAcc

open Library

/-! ### The efficiency -/

/-- What `get_pipelining_efficiency_latency` returns for one request. -/
def pipelineEfficiency (nKv numHbm : ℕ) (softmaxToGemv : ℚ) : ℚ :=
  if nKv ≤ numHbm then nKv / (numHbm * (1 + softmaxToGemv))
  else nKv / (numHbm * (nKv ⌈/⌉ numHbm : ℕ))

section Efficiency

variable {nKv numHbm batchSize : ℕ} {softmaxToGemv : ℚ}

/-- The HBMs have room for all heads. -/
theorem cast_le_mul_ceilDiv (hhbm : 0 < numHbm) (nKv : ℕ) :
    (nKv : ℚ) ≤ numHbm * (nKv ⌈/⌉ numHbm : ℕ) := by
  have hroom : nKv ≤ numHbm * (nKv ⌈/⌉ numHbm) := le_smul_ceilDiv hhbm
  exact_mod_cast hroom

theorem pipelineEfficiency_pos (hkv : 0 < nKv) (hhbm : 0 < numHbm) (hsoftmax : 0 ≤ softmaxToGemv) :
    0 < pipelineEfficiency nKv numHbm softmaxToGemv := by
  have hnum : (0 : ℚ) < nKv := Nat.cast_pos.mpr hkv
  have hcount : (0 : ℚ) < numHbm := Nat.cast_pos.mpr hhbm
  rw [pipelineEfficiency]
  split_ifs
  · positivity
  · exact div_pos hnum (hnum.trans_le (cast_le_mul_ceilDiv hhbm nKv))

theorem pipelineEfficiency_le_one (hkv : 0 < nKv) (hhbm : 0 < numHbm)
    (hsoftmax : 0 ≤ softmaxToGemv) : pipelineEfficiency nKv numHbm softmaxToGemv ≤ 1 := by
  have hcount : (0 : ℚ) < numHbm := Nat.cast_pos.mpr hhbm
  have hroom := cast_le_mul_ceilDiv hhbm nKv
  rw [pipelineEfficiency]
  split_ifs with hfew
  · have hfew : (nKv : ℚ) ≤ numHbm := Nat.cast_le.mpr hfew
    rw [div_le_one (by positivity)]
    exact hfew.trans (le_mul_of_one_le_right hcount.le (by linarith))
  · exact (div_le_one ((Nat.cast_pos.mpr hkv).trans_le hroom)).mpr hroom

/-- Nothing is lost exactly if the heads come out even, two or more to an HBM. -/
theorem pipelineEfficiency_eq_one_iff (hkv : 0 < nKv) (hhbm : 0 < numHbm)
    (hsoftmax : 0 < softmaxToGemv) :
    pipelineEfficiency nKv numHbm softmaxToGemv = 1 ↔ numHbm ∣ nKv ∧ 2 * numHbm ≤ nKv := by
  have hcount : (0 : ℚ) < numHbm := Nat.cast_pos.mpr hhbm
  rw [pipelineEfficiency]
  by_cases hfew : nKv ≤ numHbm
  · -- the softmax is always lost
    have hlost : (nKv : ℚ) < numHbm * (1 + softmaxToGemv) := by
      have hfew : (nKv : ℚ) ≤ numHbm := Nat.cast_le.mpr hfew
      exact hfew.trans_lt (lt_mul_of_one_lt_right hcount (by linarith))
    rw [if_pos hfew, div_eq_one_iff_eq (by positivity)]
    constructor
    · intro heq
      exact absurd heq hlost.ne
    · rintro ⟨-, hmany⟩
      omega
  · have hroom : (numHbm * (nKv ⌈/⌉ numHbm : ℕ) : ℚ) ≠ 0 :=
      ((Nat.cast_pos.mpr hkv).trans_le (cast_le_mul_ceilDiv hhbm nKv)).ne'
    rw [if_neg hfew, div_eq_one_iff_eq hroom, ← mul_ceilDiv_eq_iff hhbm]
    constructor
    · intro heq
      have heq : numHbm * (nKv ⌈/⌉ numHbm) = nKv := by exact_mod_cast heq.symm
      -- there are more heads than HBMs, so they come out at two or more
      obtain ⟨k, hk⟩ := (mul_ceilDiv_eq_iff hhbm).mp heq
      have htwo : 2 ≤ k := by
        by_contra hone
        have hle : numHbm * k ≤ numHbm * 1 := Nat.mul_le_mul_left numHbm (by omega)
        omega
      refine ⟨heq, ?_⟩
      rw [hk, mul_comm]
      exact Nat.mul_le_mul_left numHbm htwo
    · rintro ⟨heq, -⟩
      exact_mod_cast heq.symm

/-- With more heads than HBMs, less is lost than one head of all HBMs but one. -/
theorem le_pipelineEfficiency (hhbm : 0 < numHbm) (hmany : numHbm < nKv) :
    (nKv : ℚ) / (nKv + numHbm - 1) ≤ pipelineEfficiency nKv numHbm softmaxToGemv := by
  have hkv : (0 : ℚ) < nKv := Nat.cast_pos.mpr (hhbm.trans hmany)
  have hroom : (numHbm * (nKv ⌈/⌉ numHbm : ℕ) : ℚ) + 1 ≤ nKv + numHbm := by
    exact_mod_cast mul_ceilDiv_lt_add hhbm nKv
  rw [pipelineEfficiency, if_neg hmany.not_ge]
  apply div_le_div_of_nonneg_left hkv.le
  · exact hkv.trans_le (cast_le_mul_ceilDiv hhbm nKv)
  · linarith

/-- Of two requests or more, one overlaps what the other loses. -/
theorem getPipeliningEfficiencyLatency_of_batch (hbatch : 2 ≤ batchSize) :
    getPipeliningEfficiencyLatency nKv numHbm batchSize softmaxToGemv = .ok 1 := by
  rw [getPipeliningEfficiencyLatency, if_pos hbatch]
  rfl

theorem getPipeliningEfficiencyLatency_eq (hkv : 0 < nKv) (hhbm : 0 < numHbm)
    (hsoftmax : 0 ≤ softmaxToGemv) (hbatch : batchSize < 2) :
    getPipeliningEfficiencyLatency nKv numHbm batchSize softmaxToGemv =
      .ok (pipelineEfficiency nKv numHbm softmaxToGemv) := by
  have hcount : (0 : ℚ) < numHbm := Nat.cast_pos.mpr hhbm
  have hheads : (0 : ℚ) < (nKv ⌈/⌉ numHbm : ℕ) := Nat.cast_pos.mpr (ceilDiv_pos hkv hhbm)
  have hone : nKv ⌈/⌉ numHbm ≤ 1 ↔ nKv ≤ numHbm := by
    rw [ceilDiv_le_iff_le_mul hhbm, mul_one]
  have hden : (0 : ℚ) < if nKv ≤ numHbm then numHbm * (1 + softmaxToGemv)
      else numHbm * (nKv ⌈/⌉ numHbm : ℕ) := by
    split_ifs
    · positivity
    · positivity
  have hle := pipelineEfficiency_le_one hkv hhbm hsoftmax
  have hdiv : pipelineEfficiency nKv numHbm softmaxToGemv =
      nKv / if nKv ≤ numHbm then numHbm * (1 + softmaxToGemv)
        else (numHbm * (nKv ⌈/⌉ numHbm : ℕ) : ℚ) := by
    rw [pipelineEfficiency]
    split_ifs
    · rfl
    · rfl
  rw [getPipeliningEfficiencyLatency, if_neg hbatch.not_ge, if_neg hkv.ne', if_neg hhbm.ne']
  simp only [hone]
  refine bind_ok_iff.mpr ⟨_, fdiv_of_pos _ hden, ?_⟩
  rw [← hdiv, min_eq_right hle]
  rfl

/-- The efficiency is that of a slowdown, whatever the heads, the HBMs and the batch. -/
theorem exists_efficiency (hhbm : 0 < numHbm) (nKv batchSize : ℕ) (hsoftmax : 0 ≤ softmaxToGemv) :
    ∃ eff, getPipeliningEfficiencyLatency nKv numHbm batchSize softmaxToGemv = .ok eff ∧
      0 < eff ∧ eff ≤ 1 := by
  rcases Nat.lt_or_ge batchSize 2 with hone | hbatch
  · rcases Nat.eq_zero_or_pos nKv with rfl | hkv
    · refine ⟨1, ?_, one_pos, le_rfl⟩
      rw [getPipeliningEfficiencyLatency, if_neg hone.not_ge, if_pos rfl]
      rfl
    · exact ⟨_, getPipeliningEfficiencyLatency_eq hkv hhbm hsoftmax hone,
        pipelineEfficiency_pos hkv hhbm hsoftmax, pipelineEfficiency_le_one hkv hhbm hsoftmax⟩
  · exact ⟨1, getPipeliningEfficiencyLatency_of_batch hbatch, one_pos, le_rfl⟩

end Efficiency

/-! ### The times of attention -/

/-- A layer of a group, slowed down by an efficiency if it is attention on a PIM. -/
def SimLayer.slowedBy (eff : ℚ) (device : RoutingDevice) (l : SimLayer) : SimLayer :=
  if device = .pim ∧ l.layer.name.isAttention = true then { l with execTime := l.execTime / eff }
  else l

/-- A layer as a pass leaves it that only slows attention down, and only on a PIM. -/
structure Slowed (device : RoutingDevice) (l l' : SimLayer) : Prop where
  sameButTime : l.SameButTime l'
  le : 0 ≤ l.execTime → l.execTime ≤ l'.execTime
  same : ¬(device = .pim ∧ l.layer.name.isAttention = true) → l' = l

theorem slowed_slowedBy {eff : ℚ} (hpos : 0 < eff) (hle : eff ≤ 1) (device : RoutingDevice)
    (l : SimLayer) : Slowed device l (l.slowedBy eff device) := by
  rw [SimLayer.slowedBy]
  split_ifs with hattention
  · refine ⟨⟨rfl, rfl, rfl⟩, ?_, ?_⟩
    · intro htime
      exact le_div_self htime hpos hle
    · intro hother
      exact absurd hattention hother
  · exact ⟨.refl l, fun _ => le_rfl, fun _ => rfl⟩

theorem map_slowedBy_one (device : RoutingDevice) (block : List SimLayer) :
    block.map (SimLayer.slowedBy 1 device) = block := by
  apply List.map_id''
  intro l
  rw [SimLayer.slowedBy]
  split_ifs
  · rw [div_one]
  · rfl

/-- What `_apply_eff_lat` does to a block. -/
theorem exists_applyEffLat_eq {numHbm : ℕ} (hhbm : 0 < numHbm) (batchSize : ℕ)
    (device : RoutingDevice) (block : List SimLayer) :
    ∃ eff, 0 < eff ∧ eff ≤ 1 ∧ applyEffLat numHbm batchSize device block =
      .ok (block.map (SimLayer.slowedBy eff device)) := by
  rw [applyEffLat]
  by_cases hdevice : device ≠ .pim
  · refine ⟨1, one_pos, le_rfl, ?_⟩
    rw [if_pos hdevice, map_slowedBy_one]
  · rw [if_neg hdevice]
    cases hfind : block.find? fun l => decide (l.layer.name = .score) with
    | none =>
      refine ⟨1, one_pos, le_rfl, ?_⟩
      rw [map_slowedBy_one]
    | some scoreLayer =>
      obtain ⟨eff, hlat, hpos, hle⟩ := exists_efficiency hhbm scoreLayer.layer.pimNumOp batchSize
        (by norm_num : (0 : ℚ) ≤ 2 / 5)
      refine ⟨eff, hpos, hle, bind_ok_iff.mpr ⟨eff, hlat, mapM_ok_iff.mpr ?_⟩⟩
      rw [List.forall₂_map_right_iff, List.forall₂_same]
      intro l _
      rw [SimLayer.slowedBy]
      simp only [not_not.mp hdevice, true_and]
      split_ifs
      · exact bind_ok_iff.mpr ⟨_, fdiv_of_pos _ hpos, rfl⟩
      · rfl

/-! ### Times are not negative -/

theorem RamulatorConfig.postProcess_nonneg (r : RamulatorConfig) (q : Query)
    (bufferScale timeScale : ℕ) (counters : Counters) :
    0 ≤ (r.postProcess q bufferScale timeScale counters).1 := by
  have htck : (0 : ℚ) ≤ tCK := by norm_num [tCK]
  rw [postProcess]
  positivity

/-- Whatever a session answers, it has processed the counters of some simulation. -/
theorem Session.output_nonneg {env : Toolchain} {s s' : Session} {q : Query}
    {result : ℚ × PimTraffic} (h : s.output env q = .ok (result, s')) : 0 ≤ result.1 := by
  have hrun : ∀ {s s' : Session} {result : ℚ × PimTraffic},
      s.run env q = .ok (result, s') → 0 ≤ result.1 := by
    intro s s' result h
    rw [Session.run] at h
    split_ifs at h
    obtain ⟨-, -, h⟩ := bind_ok_iff.mp h
    obtain ⟨counters, -, h⟩ := bind_ok_iff.mp h
    obtain ⟨s'', -, h⟩ := bind_ok_iff.mp h
    obtain ⟨rfl, -⟩ := Prod.mk.inj (Except.ok.inj h)
    exact s.ram.postProcess_nonneg q 1 1 counters
  rw [Session.output] at h
  split_ifs at h
  obtain ⟨warm, -, h⟩ := bind_ok_iff.mp h
  obtain ⟨-, -, h⟩ := bind_ok_iff.mp h
  -- a logged row, or another run
  cases hrow : lookup LogRow.key LogRow.counters warm.ram.df (warm.ram.outputKey q) with
  | none =>
    rw [hrow] at h
    exact hrun h
  | some counters =>
    rw [hrow] at h
    obtain ⟨rfl, -⟩ := Prod.mk.inj (Except.ok.inj h)
    exact warm.ram.postProcess_nonneg q 2 (warm.ram.numOpsGroup q) counters

theorem Session.map_output_nonneg {env : Toolchain} {s : Session} {q : Query}
    {result : ℚ × PimTraffic} (h : (s.output env q).map Prod.fst = .ok result) : 0 ≤ result.1 := by
  cases hanswer : s.output env q with
  | ok answer =>
    rw [hanswer] at h
    obtain rfl := Except.ok.inj h
    exact Session.output_nonneg hanswer
  | error e =>
    rw [hanswer] at h
    cases h

theorem XpuConfig.execTime_nonneg {c : XpuConfig} (hc : c.Positive) {l : Layer} {o : Outcome}
    (h : c.getTimeAndEnergy l = .ok o) : 0 ≤ o.execTime := by
  obtain ⟨o', ho', hnonneg, -⟩ := exists_getTimeAndEnergy hc (times_of_getTimeAndEnergy h)
  obtain rfl := Except.ok.inj (ho'.symm.trans h)
  exact hnonneg

theorem PimConfig.execTime_nonneg {c : PimConfig}
    {output : PIMType → Layer → Bool → Except PyError (ℚ × PimTraffic)}
    (hbw : 0 ≤ c.maxInterfaceBandwidth)
    (houtput : ∀ l powerConstraint result,
      output c.pimType l powerConstraint = .ok result → 0 ≤ result.1)
    {l : Layer} {o : Outcome} (h : c.getTimeAndEnergy output l = .ok o) : 0 ≤ o.execTime := by
  rw [getTimeAndEnergy] at h
  cases htype : l.type <;> rw [htype] at h <;> try cases h
  · simp only at h
    split_ifs at h
    · obtain ⟨result, hresult, h⟩ := bind_ok_iff.mp h
      obtain rfl := Except.ok.inj h
      exact houtput _ _ _ hresult
    · obtain rfl := Except.ok.inj h
      exact le_rfl
  · exact le_rfl
  · obtain ⟨execTime, htime, h⟩ := bind_ok_iff.mp h
    obtain rfl := Except.ok.inj h
    obtain ⟨-, rfl⟩ := fdiv_eq_ok.mp htime
    exact div_nonneg (Nat.cast_nonneg _) (div_nonneg hbw zero_le_two)

/-- Devices that never take less than no time. -/
structure Platform.Nonneg (sys : Platform) : Prop where
  gpu : ∀ l o, sys.gpu.getTimeAndEnergy l = .ok o → 0 ≤ o.execTime
  acc : ∀ l o, sys.acc.getTimeAndEnergy l = .ok o → 0 ≤ o.execTime

/-- Configured devices are such devices. -/
theorem Platform.Nonneg.ofConfigs {sys : Platform} {gpu : XpuConfig} {acc : AccConfig}
    (hgpu : sys.gpu = gpu.device) (hacc : sys.acc = acc.device) (hpos : gpu.Positive)
    (hxpu : ∀ c, acc = .xpu c → c.Positive)
    (hpim : ∀ c output, acc = .pim c output → 0 ≤ c.maxInterfaceBandwidth ∧
      ∀ l powerConstraint result,
        output c.pimType l powerConstraint = .ok result → 0 ≤ result.1) : sys.Nonneg := by
  refine ⟨?_, ?_⟩
  · intro l o h
    rw [hgpu] at h
    exact XpuConfig.execTime_nonneg hpos h
  · intro l o h
    rw [hacc] at h
    cases acc with
    | xpu c => exact XpuConfig.execTime_nonneg (hxpu c rfl) h
    | pim c output =>
      obtain ⟨hbw, houtput⟩ := hpim c output rfl
      exact PimConfig.execTime_nonneg hbw houtput h

/-- So is a PIM that asks a simulator, on whatever log. -/
theorem Platform.Nonneg.ofSession {sys : Platform} {gpu : XpuConfig} {c : PimConfig}
    {env : Toolchain} {s : Session} (hgpu : sys.gpu = gpu.device)
    (hacc : sys.acc = .pim (c.device fun pimType l powerConstraint =>
      (s.output env ⟨pimType, l, powerConstraint⟩).map Prod.fst))
    (hpos : gpu.Positive) (hbw : 0 ≤ c.maxInterfaceBandwidth) : sys.Nonneg := by
  have hacc : sys.acc = (AccConfig.pim c fun pimType l powerConstraint =>
      (s.output env ⟨pimType, l, powerConstraint⟩).map Prod.fst).device := hacc
  refine .ofConfigs hgpu hacc hpos ?_ ?_
  · intro c' h
    cases h
  · intro c' output h
    obtain ⟨rfl, rfl⟩ := AccConfig.pim.inj h
    exact ⟨hbw, fun l powerConstraint result hresult => Session.map_output_nonneg hresult⟩

/-- Between two values that are not negative there is no other. -/
theorem interpSegments_nonneg {x : ℕ} {p : ℕ × ℚ} {qs : List (ℕ × ℚ)} (hx : p.1 < x)
    (hp : 0 ≤ p.2) (hqs : ∀ q ∈ qs, 0 ≤ q.2) : 0 ≤ interpSegments x p qs := by
  induction qs generalizing p with
  | nil => exact hp
  | cons q qs ih =>
    obtain ⟨hq, hrest⟩ := List.forall_mem_cons.mp hqs
    rw [interpSegments]
    split_ifs with hxq
    · have hstart : (p.1 : ℚ) + 1 ≤ x := by exact_mod_cast hx
      have hend : (x : ℚ) ≤ q.1 := Nat.cast_le.mpr hxq
      have hwidth : (1 : ℚ) ≤ q.1 - p.1 := by linarith
      have hpos : (0 : ℚ) < q.1 - p.1 := by linarith
      have hone : ((x : ℚ) - p.1) / (q.1 - p.1) ≤ 1 := (div_le_one hpos).mpr (by linarith)
      have hzero : 0 ≤ ((x : ℚ) - p.1) / (q.1 - p.1) := div_nonneg (by linarith) hpos.le
      simp only [max_eq_right hwidth]
      -- a mean of the two values
      calc (0 : ℚ) ≤ p.2 * (1 - ((x : ℚ) - p.1) / (q.1 - p.1)) +
            q.2 * (((x : ℚ) - p.1) / (q.1 - p.1)) :=
          add_nonneg (mul_nonneg hp (sub_nonneg.mpr hone)) (mul_nonneg hq hzero)
        _ = p.2 + (q.2 - p.2) * (((x : ℚ) - p.1) / (q.1 - p.1)) := by ring
    · exact ih (not_le.mp hxq) hq hrest

theorem interpScalar_nonneg {points : List (ℕ × ℚ)} {x : ℕ} {v : ℚ}
    (hpoints : ∀ p ∈ points, 0 ≤ p.2) (h : interpScalar points x = .ok v) : 0 ≤ v := by
  have hsorted : ∀ p ∈ points.insertionSort tupleLe, 0 ≤ p.2 :=
    fun p hp => hpoints p ((List.mem_insertionSort tupleLe).mp hp)
  rw [interpScalar] at h
  cases hsort : points.insertionSort tupleLe with
  | nil =>
    rw [hsort] at h
    cases h
  | cons p ps =>
    rw [hsort] at h hsorted
    obtain ⟨hp, hps⟩ := List.forall_mem_cons.mp hsorted
    simp only at h
    split_ifs at h with hfirst hlast
    · obtain rfl := Except.ok.inj h
      exact hp
    · obtain rfl := Except.ok.inj h
      exact hsorted _ (List.getLast_mem _)
    · obtain rfl := Except.ok.inj h
      exact interpSegments_nonneg (not_le.mp hfirst) hp hps

/-- What stands for a chunk is not negative if no sample is. -/
theorem chunkCost_nonneg {exact : Bool} {sampledTime : List (ℕ × ℚ)}
    {sampledEnergy : List (ℕ × Energy)} {chunkIdx : ℕ} {cost : ℚ × Energy}
    (hsampled : ∀ p ∈ sampledTime, 0 ≤ p.2)
    (h : chunkCost exact sampledTime sampledEnergy chunkIdx = .ok cost) : 0 ≤ cost.1 := by
  rw [chunkCost] at h
  split_ifs at h
  · cases htime : sampledTime.lookup chunkIdx with
    | none =>
      rw [htime] at h
      cases h
    | some t =>
      obtain ⟨front, back, hsplit, -⟩ := List.lookup_eq_some_iff.mp htime
      have ht : 0 ≤ t := hsampled (chunkIdx, t) (by rw [hsplit]; simp)
      cases henergy : sampledEnergy.lookup chunkIdx with
      | none =>
        rw [htime, henergy] at h
        cases h
      | some e =>
        rw [htime, henergy] at h
        obtain rfl := Except.ok.inj h
        exact ht
  · obtain ⟨t, ht, h⟩ := bind_ok_iff.mp h
    obtain ⟨e, -, h⟩ := bind_ok_iff.mp h
    obtain rfl := Except.ok.inj h
    exact interpScalar_nonneg hsampled ht

theorem simulatePimPrefillScore_nonneg {time : Layer → Except PyError Outcome}
    (htime : ∀ l o, time l = .ok o → 0 ≤ o.execTime) {prefillChunkSize count : ℕ} {l : Layer}
    {cost : ℚ × Energy} (h : simulatePimPrefillScore time prefillChunkSize count l = .ok cost) :
    0 ≤ cost.1 := by
  obtain ⟨sampled, hsampled, h⟩ := bind_ok_iff.mp h
  have hsample : ∀ c ∈ sampled, 0 ≤ c.1 := by
    intro c hc
    obtain ⟨i, -, hi⟩ := exists_of_mem_mapM hsampled c hc
    obtain ⟨o, ho, hi⟩ := bind_ok_iff.mp hi
    obtain rfl := Except.ok.inj hi
    exact mul_nonneg (htime _ o ho) (Nat.cast_nonneg _)
  refine foldlM_ok_induction (P := fun acc : ℚ × Energy => 0 ≤ acc.1) ?_ le_rfl h
  intro acc i acc' hacc hstep
  obtain ⟨chunk, hchunk, hstep⟩ := bind_ok_iff.mp hstep
  obtain rfl := Except.ok.inj hstep
  refine add_nonneg hacc (chunkCost_nonneg ?_ hchunk)
  intro p hp
  obtain ⟨c, hc, heq⟩ := List.mem_map.mp (List.of_mem_zip hp).2
  rw [← heq]
  exact hsample c hc

namespace Platform

variable {sys : Platform} {device : RoutingDevice}

theorem timeOn_nonneg (hsys : sys.Nonneg) {l : Layer} {o : Outcome}
    (h : sys.timeOn device l = .ok o) : 0 ≤ o.execTime := by
  rw [timeOn] at h
  split_ifs at h
  · exact hsys.acc l o h
  · exact hsys.gpu l o h

theorem timeSum_nonneg (hsys : sys.Nonneg) {l : Layer} {o : Outcome}
    (h : sys.timeSum device l = .ok o) : 0 ≤ o.execTime := by
  rw [timeSum] at h
  split_ifs at h
  · obtain ⟨cost, hcost, h⟩ := bind_ok_iff.mp h
    obtain rfl := Except.ok.inj h
    exact simulatePimPrefillScore_nonneg hsys.acc hcost
  · exact timeOn_nonneg hsys h

/-- A transfer also waits, which takes no negative time either. -/
theorem simulateSumLayers_nonneg (hsys : sys.Nonneg) {time wrtIoBusy : ℚ} {ls timed : List SimLayer}
    (h : sys.simulateSumLayers device time wrtIoBusy ls = .ok timed) :
    ∀ l ∈ timed, 0 ≤ l.execTime := by
  induction ls generalizing time wrtIoBusy timed with
  | nil =>
    obtain rfl := Except.ok.inj h
    exact fun l hl => absurd hl List.not_mem_nil
  | cons l ls ih =>
    obtain ⟨o, ho, h⟩ := bind_ok_iff.mp h
    obtain ⟨rest, hrest, h⟩ := bind_ok_iff.mp h
    obtain rfl := Except.ok.inj h
    have hnonneg := timeSum_nonneg hsys ho
    refine List.forall_mem_cons.mpr ⟨?_, ih hrest⟩
    simp only [SimLayer.assign]
    split_ifs
    · exact add_nonneg hnonneg (le_max_right _ _)
    · exact hnonneg

theorem timeGenBlock_nonneg (hsys : sys.Nonneg) {block timed : List SimLayer}
    (h : sys.timeGenBlock device block = .ok timed) : ∀ l ∈ timed, 0 ≤ l.execTime := by
  intro l' hl'
  obtain ⟨l, -, hl⟩ := exists_of_mem_mapM h l' hl'
  obtain ⟨o, ho, hl⟩ := bind_ok_iff.mp hl
  obtain rfl := Except.ok.inj hl
  exact timeOn_nonneg hsys ho

end Platform

/-! ### The slowdown -/

/-- The efficiency lies between nothing and one. For one request and a softmax that takes some time
it is one exactly if the heads come out even, two or more to an HBM, and with more heads than HBMs
no more is lost than if all HBMs but one did one head more. `_apply_eff_lat` therefore only slows
attention down, and only on a PIM: the times it is given are not negative where those of the
devices are not. -/
theorem getPipeliningEfficiencyLatency_spec {nKv numHbm : ℕ} (hkv : 1 ≤ nKv) (hhbm : 1 ≤ numHbm)
    {softmaxToGemv : ℚ} (hsoftmax : 0 ≤ softmaxToGemv) (batchSize : ℕ) :
    (∃ eff, getPipeliningEfficiencyLatency nKv numHbm batchSize softmaxToGemv = .ok eff ∧
      0 < eff ∧ eff ≤ 1 ∧
      (batchSize = 1 → 0 < softmaxToGemv → (eff = 1 ↔ numHbm ∣ nKv ∧ 2 * numHbm ≤ nKv)) ∧
      (numHbm < nKv → (nKv : ℚ) / (nKv + numHbm - 1) ≤ eff)) ∧
    (∀ device block, ∃ block', applyEffLat numHbm batchSize device block = .ok block' ∧
      List.Forall₂ (Slowed device) block block') ∧
    ∀ sys : Platform, sys.Nonneg → ∀ device block timed,
      sys.simulateSumLayers device 0 0 block = .ok timed ∨
        sys.timeGenBlock device block = .ok timed →
      ∀ l ∈ timed, 0 ≤ l.execTime := by
  refine ⟨?_, ?_, ?_⟩
  · rcases Nat.lt_or_ge batchSize 2 with hone | hbatch
    · exact ⟨_, getPipeliningEfficiencyLatency_eq hkv hhbm hsoftmax hone,
        pipelineEfficiency_pos hkv hhbm hsoftmax, pipelineEfficiency_le_one hkv hhbm hsoftmax,
        fun _ => pipelineEfficiency_eq_one_iff hkv hhbm, le_pipelineEfficiency hhbm⟩
    · refine ⟨1, getPipeliningEfficiencyLatency_of_batch hbatch, one_pos, le_rfl, ?_, ?_⟩
      · intro hone
        omega
      · intro hmany
        have hkv : (0 : ℚ) < nKv := Nat.cast_pos.mpr hkv
        have hhbm : (1 : ℚ) ≤ numHbm := Nat.one_le_cast.mpr hhbm
        exact (div_le_one (by linarith)).mpr (by linarith)
  · intro device block
    obtain ⟨eff, hpos, hle, hblock⟩ := exists_applyEffLat_eq hhbm batchSize device block
    refine ⟨_, hblock, ?_⟩
    rw [List.forall₂_map_right_iff, List.forall₂_same]
    exact fun l _ => slowed_slowedBy hpos hle device l
  · intro sys hsys device block timed htimed
    rcases htimed with hsum | hgen
    · exact sys.simulateSumLayers_nonneg hsys hsum
    · exact sys.timeGenBlock_nonneg hsys hgen

/-- Eight heads, which is as many as Qwen3-VL has, on five HBMs. -/
theorem getPipeliningEfficiencyLatency_spec_eight :
    (∃ eff, getPipeliningEfficiencyLatency 8 5 1 (2 / 5) = .ok eff ∧
      0 < eff ∧ eff ≤ 1 ∧
      (1 = 1 → (0 : ℚ) < 2 / 5 → (eff = 1 ↔ 5 ∣ 8 ∧ 2 * 5 ≤ 8)) ∧
      (5 < 8 → ((8 : ℕ) : ℚ) / ((8 : ℕ) + (5 : ℕ) - 1) ≤ eff)) ∧
    (∀ device block, ∃ block', applyEffLat 5 1 device block = .ok block' ∧
      List.Forall₂ (Slowed device) block block') ∧
    ∀ sys : Platform, sys.Nonneg → ∀ device block timed,
      sys.simulateSumLayers device 0 0 block = .ok timed ∨
        sys.timeGenBlock device block = .ok timed →
      ∀ l ∈ timed, 0 ≤ l.execTime :=
  getPipeliningEfficiencyLatency_spec (by decide) (by decide) (by norm_num) 1

end AttAcc
