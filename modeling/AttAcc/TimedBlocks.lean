import AttAcc.Efficiency
import AttAcc.Overlap
import AttAcc.Prefill
import AttAcc.Reports

/-!
# The passes over timed layers

The divisors of the passes in `src/system.py`: with positive parameters no pass over a block
divides by zero, whatever its layers take, so a block is simulated exactly where every layer
is timed (`Platform.exists_simulateSumLayers_iff`, `Platform.exists_simulateGenBlocks`,
`Platform.timed_of_simulateGenBlocks`). A decode block takes time then: its normalisations do
(`Platform.collectGPerf_all_pos`).
-/

namespace AttAcc

open Library

/-! ## Devices with positive parameters -/

/-- A PIM whose parameters are positive. -/
structure PimConfig.Positive (c : PimConfig) : Prop where
  numHbm : 0 < c.numHbm
  memBwPerHbm : 0 < c.memBwPerHbm
  maxInterfaceBandwidth : 0 < c.maxInterfaceBandwidth

/-- The scores that a PIM is asked for: those over the heads of the model, of some length. -/
structure LayerArgs.Asked (l : LayerArgs) (dhead : ℕ) : Prop where
  type : l.type = .MATMUL
  k : l.k = dhead
  n : 0 < l.n
  pimNumOp : 0 < l.pimNumOp

/-- What `Ramulator.output` answers when it is asked for a score: the counters of some
simulation, processed by one of its two paths (`Session.answered_of_sound`). -/
def PimConfig.Answered (c : PimConfig)
    (output : PIMType → Layer → Bool → Except PyError (ℚ × PimTraffic)) (r : RamulatorConfig) :
    Prop :=
  ∀ (l : Layer) powerConstraint, l.toLayerArgs.Asked r.dhead → ∃ counters,
    output c.pimType l powerConstraint =
        .ok (r.freshResult ⟨c.pimType, l, powerConstraint⟩ counters) ∨
      output c.pimType l powerConstraint =
        .ok (r.cachedResult ⟨c.pimType, l, powerConstraint⟩ counters)

/-- A session answers for every score, if the toolchain simulates every score. -/
theorem Session.answered_of_sound {env : Toolchain} {s : Session} {r : RamulatorConfig}
    (hpandas : env.pandas = true) (hdir : env.ramulatorDir = true) (hs : s.Sound env r)
    (hnum : r.numHbm ≠ 0) (hsim : ∀ q : Query, q.layer.toLayerArgs.Asked r.dhead →
      ∃ counters, env.runRamulator (r.runKey q) = .ok counters) (c : PimConfig) :
    c.Answered (fun pimType l powerConstraint =>
      (s.output env ⟨pimType, l, powerConstraint⟩).map Prod.fst) r := by
  intro l powerConstraint hasked
  let q : Query := ⟨c.pimType, l, powerConstraint⟩
  obtain ⟨counters, hcounters⟩ := hsim q hasked
  rcases output_of_sound hpandas hdir hs hnum (q := q) hasked.k with
    ⟨counters', s', -, -, hfresh | hcached⟩ | ⟨e, he, -⟩
  · exact ⟨counters', .inl (congrArg (Except.map Prod.fst) hfresh)⟩
  · exact ⟨counters', .inr (congrArg (Except.map Prod.fst) hcached)⟩
  · rw [hcounters] at he
    cases he

/-- The layers that a PIM simulates. -/
def LayerName.IsScore (name : LayerName) : Prop := name = .score ∨ name = .vitScore

/-- Whether `_select_acc_device` sends a layer to the accelerator. -/
def OnAcc (device : RoutingDevice) (l : LayerArgs) : Prop :=
  device ≠ .gpu ∧ (l.type = .MATMUL ∨ l.type = .SOFTMAX ∨ l.type = .X2G)

instance (device : RoutingDevice) (l : LayerArgs) : Decidable (OnAcc device l) :=
  inferInstanceAs (Decidable (_ ∧ _))

/-- Normalisations stay on the GPU. -/
theorem OnAcc.type_ne_norm {device : RoutingDevice} {l : LayerArgs} (h : OnAcc device l) :
    l.type ≠ .NORM := by
  obtain ⟨-, htype | htype | htype⟩ := h <;> rw [htype] <;> exact nofun

namespace AccConfig

/-- An accelerator whose parameters are positive, and whose simulations answer for heads of the
given size. -/
def Positive (dhead : ℕ) : AccConfig → Prop
  | xpu c => c.Positive
  | pim c output => c.Positive ∧ ∃ r : RamulatorConfig, r.dhead = dhead ∧ c.Answered output r

/-- The layers an accelerator times, of those it is sent: a PIM times all of them. -/
def Times : AccConfig → LayerArgs → Prop
  | xpu c, l => c.Times l
  | pim _ _, _ => True

variable {c : AccConfig} {dhead : ℕ}

theorem exists_getTimeAndEnergy (hc : c.Positive dhead) {device : RoutingDevice} {l : Layer}
    (hon : OnAcc device l.toLayerArgs) (hasked : l.name.IsScore → l.toLayerArgs.Asked dhead)
    (hl : c.Times l.toLayerArgs) :
    ∃ o, c.device.getTimeAndEnergy l = .ok o ∧ 0 ≤ o.execTime := by
  cases c with
  | xpu c =>
    obtain ⟨o, ho, hnonneg, -⟩ := XpuConfig.exists_getTimeAndEnergy hc hl
    exact ⟨o, ho, hnonneg⟩
  | pim c output =>
    obtain ⟨hpos, r, rfl, hanswer⟩ := hc
    show ∃ o, c.getTimeAndEnergy output l = .ok o ∧ 0 ≤ o.execTime
    rw [PimConfig.getTimeAndEnergy]
    obtain ⟨-, htype | htype | htype⟩ := hon
    · -- the score asks the simulator, and stands for the context
      rw [htype]
      simp only
      split_ifs with hname
      · let q : Query := ⟨c.pimType, l, c.powerConstraint⟩
        obtain ⟨counters, h | h⟩ := hanswer l c.powerConstraint (hasked hname)
        · exact ⟨_, bind_ok_iff.mpr ⟨_, h, rfl⟩, r.postProcess_nonneg q 1 1 counters⟩
        · exact ⟨_, bind_ok_iff.mpr ⟨_, h, rfl⟩,
            r.postProcess_nonneg q 2 (r.numOpsGroup q) counters⟩
      · exact ⟨_, rfl, le_rfl⟩
    · -- and for the softmax
      rw [htype]
      exact ⟨_, rfl, le_rfl⟩
    · rw [htype]
      have hhalf := half_pos hpos.maxInterfaceBandwidth
      exact ⟨_, bind_ok_iff.mpr ⟨_, fdiv_of_pos _ hhalf, rfl⟩,
        div_nonneg (Nat.cast_nonneg _) hhalf.le⟩

theorem times_of_getTimeAndEnergy {l : Layer} {o : Outcome}
    (h : c.device.getTimeAndEnergy l = .ok o) : c.Times l.toLayerArgs := by
  cases c with
  | xpu c => exact XpuConfig.times_of_getTimeAndEnergy h
  | pim c output => trivial

theorem numHbm_pos (hc : c.Positive dhead) : 0 < c.device.numHbm := by
  cases c with
  | xpu c => exact Nat.succ_pos 4
  | pim c output => exact hc.1.numHbm

theorem peakMemoryBandwidth_pos (hc : c.Positive dhead) : 0 < c.device.peakMemoryBandwidth := by
  cases c with
  | xpu c => exact hc.peakMemoryBandwidth
  | pim c output => exact mul_pos hc.1.memBwPerHbm (Nat.cast_pos.mpr hc.1.numHbm)

end AccConfig

/-- A system whose devices have positive parameters, its PIM for heads of the given size. -/
structure Platform.Positive (sys : Platform) (gpu : XpuConfig) (acc : AccConfig) (dhead : ℕ) :
    Prop where
  gpu_eq : sys.gpu = gpu.device
  acc_eq : sys.acc = acc.device
  gpu : gpu.Positive
  acc : acc.Positive dhead

/-- The layers that the device they are sent to times. -/
def Timed (gpu : XpuConfig) (acc : AccConfig) (device : RoutingDevice) (l : LayerArgs) : Prop :=
  if OnAcc device l then acc.Times l else gpu.Times l

namespace Platform

variable {sys : Platform} {gpu : XpuConfig} {acc : AccConfig} {device : RoutingDevice}
  {t : Transformer} {args : PassArgs} {bs dhead : ℕ}

theorem timeOn_eq (h : sys.Positive gpu acc dhead) (l : Layer) : sys.timeOn device l =
    if OnAcc device l.toLayerArgs then acc.device.getTimeAndEnergy l
    else gpu.getTimeAndEnergy l := by
  rw [timeOn, h.gpu_eq, h.acc_eq]
  rfl

/-- A layer is timed where its device times it, and a normalisation takes some time. -/
theorem exists_timeOn (h : sys.Positive gpu acc dhead) {l : Layer}
    (hasked : device ≠ .gpu → l.name.IsScore → l.toLayerArgs.Asked dhead)
    (hl : Timed gpu acc device l.toLayerArgs) :
    ∃ o, sys.timeOn device l = .ok o ∧ 0 ≤ o.execTime ∧ (l.type = .NORM → 0 < o.execTime) := by
  rw [timeOn_eq h]
  rw [Timed] at hl
  by_cases hon : OnAcc device l.toLayerArgs
  · rw [if_pos hon] at hl ⊢
    obtain ⟨o, ho, hnonneg⟩ := AccConfig.exists_getTimeAndEnergy h.acc hon (hasked hon.1) hl
    exact ⟨o, ho, hnonneg, fun hnorm => absurd hnorm hon.type_ne_norm⟩
  · rw [if_neg hon] at hl ⊢
    exact XpuConfig.exists_getTimeAndEnergy h.gpu hl

theorem timed_of_timeOn (h : sys.Positive gpu acc dhead) {l : Layer} {o : Outcome}
    (ho : sys.timeOn device l = .ok o) : Timed gpu acc device l.toLayerArgs := by
  rw [timeOn_eq h] at ho
  rw [Timed]
  by_cases hon : OnAcc device l.toLayerArgs
  · rw [if_pos hon] at ho ⊢
    exact AccConfig.times_of_getTimeAndEnergy ho
  · rw [if_neg hon] at ho ⊢
    exact XpuConfig.times_of_getTimeAndEnergy ho

/-! ## The passes over a prefill block -/

/-- Without queries there are no chunks. -/
theorem simulatePimPrefillScore_zero {time : Layer → Except PyError Outcome} {l : Layer}
    (hL : l.n = 0) (prefillChunkSize count : ℕ) :
    simulatePimPrefillScore time prefillChunkSize count l = .ok (0, 0) := by
  have hchunks : chunkCount prefillChunkSize l.n = 0 := by
    rw [hL]
    exact zero_ceilDiv _
  rw [simulatePimPrefillScore_def, hchunks]
  simp only [sampleIndices_of_le (Nat.zero_le count)]
  rfl

/-- A score is timed if its chunks are, whatever their number. -/
theorem exists_simulatePimPrefillScore {time : Layer → Except PyError Outcome} {l : Layer}
    (htime : ∀ q, 1 ≤ q → q ≤ l.n → ∃ o, time (chunkLayer l q) = .ok o)
    (prefillChunkSize count : ℕ) :
    ∃ cost, simulatePimPrefillScore time prefillChunkSize count l = .ok cost := by
  rcases Nat.eq_zero_or_pos l.n with hL | hL
  · exact ⟨_, simulatePimPrefillScore_zero hL prefillChunkSize count⟩
  · have : Nonempty Outcome := ⟨0, 0, .compute⟩
    choose! o ho using htime
    have hcosts : QueryCosts time l (fun q => (o q).execTime) fun level q => (o q).energy level :=
      fun q hq hle => ⟨(o q).bound, ho q hq hle⟩
    exact ⟨_, simulatePimPrefillScore_eq hcosts hL prefillChunkSize count⟩

/-- The score of a PIM is timed in chunks, everything else at once. -/
theorem exists_timeSum (h : sys.Positive gpu acc dhead)
    (hpim : device = .pim → ∃ c output, acc = .pim c output) {l : Layer}
    (hasked : device ≠ .gpu → l.name.IsScore → l.toLayerArgs.Asked dhead)
    (hl : Timed gpu acc device l.toLayerArgs) : ∃ o, sys.timeSum device l = .ok o := by
  rw [timeSum]
  by_cases hchunked : device = .pim ∧ l.name = .score
  · obtain ⟨c, output, rfl⟩ := hpim hchunked.1
    have hne : device ≠ .gpu := by simp [hchunked.1]
    have hlayer := hasked hne (.inl hchunked.2)
    -- a chunk differs from the layer in its length only, so a PIM can be asked for it, too
    have hchunk : ∀ q, 1 ≤ q → q ≤ l.n →
        ∃ o, sys.acc.getTimeAndEnergy (chunkLayer l q) = .ok o := by
      intro q hq _
      have hon : OnAcc device (chunkLayer l q).toLayerArgs := ⟨hne, .inl hlayer.type⟩
      have hchunkLayer : (chunkLayer l q).toLayerArgs.Asked dhead :=
        ⟨hlayer.type, hlayer.k, hq, hlayer.pimNumOp⟩
      obtain ⟨o, ho, -⟩ :=
        AccConfig.exists_getTimeAndEnergy h.acc hon (fun _ => hchunkLayer) trivial
      rw [h.acc_eq]
      exact ⟨o, ho⟩
    obtain ⟨cost, hcost⟩ :=
      exists_simulatePimPrefillScore hchunk sys.prefillChunkSize sys.prefillSampleCount
    rw [if_pos hchunked]
    exact ⟨_, bind_ok_iff.mpr ⟨cost, hcost, rfl⟩⟩
  · rw [if_neg hchunked]
    obtain ⟨o, ho, -⟩ := exists_timeOn h hasked hl
    exact ⟨o, ho⟩

theorem timed_of_timeSum (h : sys.Positive gpu acc dhead)
    (hpim : device = .pim → ∃ c output, acc = .pim c output) {l : Layer}
    (hasked : device ≠ .gpu → l.name.IsScore → l.toLayerArgs.Asked dhead) {o : Outcome}
    (ho : sys.timeSum device l = .ok o) : Timed gpu acc device l.toLayerArgs := by
  rw [timeSum] at ho
  by_cases hchunked : device = .pim ∧ l.name = .score
  · obtain ⟨c, output, rfl⟩ := hpim hchunked.1
    have hne : device ≠ .gpu := by simp [hchunked.1]
    rw [Timed, if_pos ⟨hne, .inl (hasked hne (.inl hchunked.2)).type⟩]
    trivial
  · rw [if_neg hchunked] at ho
    exact timed_of_timeOn h ho

/-- A block is timed when its layers are. -/
theorem exists_simulateSumLayers_iff {time wrtIoBusy : ℚ} {ls : List SimLayer} :
    (∃ out, sys.simulateSumLayers device time wrtIoBusy ls = .ok out) ↔
      ∀ l ∈ ls, ∃ o, sys.timeSum device l.layer = .ok o := by
  induction ls generalizing time wrtIoBusy with
  | nil => exact ⟨fun _ l hl => absurd hl List.not_mem_nil, fun _ => ⟨[], rfl⟩⟩
  | cons l ls ih =>
    rw [List.forall_mem_cons]
    refine ⟨?_, ?_⟩
    · rintro ⟨out, h⟩
      obtain ⟨o, ho, h⟩ := bind_ok_iff.mp h
      obtain ⟨rest, hrest, -⟩ := bind_ok_iff.mp h
      exact ⟨⟨o, ho⟩, ih.mp ⟨rest, hrest⟩⟩
    · rintro ⟨⟨o, ho⟩, hls⟩
      obtain ⟨rest, hrest⟩ := ih.mpr hls
      exact ⟨_, bind_ok_iff.mpr ⟨o, ho, bind_ok_iff.mpr ⟨rest, hrest, rfl⟩⟩⟩

/-! ## The passes over a decode block -/

/-- A layer as a pass leaves it that scales the times of a kind of layers. -/
structure Scaled (kind : LayerName → Bool) (l l' : SimLayer) : Prop where
  layer : l'.layer = l.layer
  nonneg : 0 ≤ l.execTime → 0 ≤ l'.execTime
  same : kind l.layer.name = false → l'.execTime = l.execTime

theorem Scaled.refl (kind : LayerName → Bool) (l : SimLayer) : Scaled kind l l :=
  ⟨rfl, id, fun _ => rfl⟩

/-- A new time for a layer of the kind. -/
theorem Scaled.of_kind {kind : LayerName → Bool} {l : SimLayer} (hkind : kind l.layer.name = true)
    {execTime : ℚ} (h : 0 ≤ l.execTime → 0 ≤ execTime) :
    Scaled kind l { l with execTime := execTime } := by
  refine ⟨rfl, h, ?_⟩
  intro hsame
  rw [hkind] at hsame
  cases hsame

/-- A pass that scales every layer scales the block. -/
theorem exists_mapM_scaled {kind : LayerName → Bool} {f : SimLayer → Except PyError SimLayer}
    (hf : ∀ l, ∃ l', f l = .ok l' ∧ Scaled kind l l') (block : List SimLayer) :
    ∃ block', block.mapM f = .ok block' ∧ List.Forall₂ (Scaled kind) block block' := by
  obtain ⟨block', hblock'⟩ := exists_forall₂_iff.mpr fun l (_ : l ∈ block) => hf l
  exact ⟨block', mapM_ok_iff.mpr (hblock'.imp fun _ _ h => h.1), hblock'.imp fun _ _ h => h.2⟩

/-- `_apply_eff_lat` scales attention. -/
theorem exists_applyEffLat {numHbm : ℕ} (hhbm : 0 < numHbm) (batchSize : ℕ)
    (device : RoutingDevice) (block : List SimLayer) :
    ∃ block', applyEffLat numHbm batchSize device block = .ok block' ∧
      List.Forall₂ (Scaled LayerName.isAttention) block block' := by
  obtain ⟨eff, hpos, -, hblock⟩ := exists_applyEffLat_eq hhbm batchSize device block
  refine ⟨_, hblock, ?_⟩
  rw [List.forall₂_map_right_iff, List.forall₂_same]
  intro l _
  rw [SimLayer.slowedBy]
  split_ifs with hattention
  · exact .of_kind hattention.2 fun hnonneg => div_nonneg hnonneg hpos.le
  · exact .refl _ l

/-- The share that an `ff` layer keeps is not negative. -/
theorem exists_ffRatio {gpu : Xpu} (hflops : 0 < gpu.peakFlops)
    (hgpu : 0 < gpu.peakMemoryBandwidth) {bwScale : ℚ} (hscale : 0 < bwScale) {bs : ℕ}
    (hbs : 0 < bs) (l : SimLayer) :
    ∃ ratio, 0 ≤ ratio ∧ ffRatio gpu bwScale bs l = .ok ratio := by
  rw [ffRatio]
  -- the two bounds divide by different sums, both positive with what the GPU adds
  cases l.bound with
  | compute =>
    have hdbyte : (0 : ℚ) ≤ l.layer.dbyte := Nat.cast_nonneg _
    have hsum : 0 < gpu.peakFlops + gpu.peakMemoryBandwidth / l.layer.dbyte * 2 * bwScale :=
      add_pos_of_pos_of_nonneg hflops (by positivity)
    exact ⟨_, div_nonneg hflops.le hsum.le, fdiv_of_pos _ hsum⟩
  | memory =>
    have hbs : (0 : ℚ) < bs := Nat.cast_pos.mpr hbs
    have hsum : 0 < gpu.peakMemoryBandwidth + gpu.peakMemoryBandwidth * bwScale / bs := by
      positivity
    exact ⟨_, div_nonneg hgpu.le hsum.le,
      bind_ok_iff.mpr ⟨_, fdiv_of_pos _ hbs, fdiv_of_pos _ hsum⟩⟩

/-- `_ff_parallel` scales the feed-forward layers. -/
theorem exists_ffParallel {gpu : Xpu} {acc : AccDevice} (hflops : 0 < gpu.peakFlops)
    (hgpu : 0 < gpu.peakMemoryBandwidth) (hacc : 0 < acc.peakMemoryBandwidth) {bs : ℕ}
    (hbs : 0 < bs) (block : List SimLayer) :
    ∃ block', ffParallel gpu acc bs block = .ok block' ∧
      List.Forall₂ (Scaled LayerName.hasFf) block block' := by
  obtain ⟨block', hblock', hscaled⟩ : ∃ block', (block.mapM fun l =>
      if l.layer.name.hasFf then
        ffRatio gpu (acc.peakMemoryBandwidth / gpu.peakMemoryBandwidth) bs l >>= fun ratio =>
          .ok { l with execTime := l.execTime * ratio }
      else .ok l) = .ok block' ∧ List.Forall₂ (Scaled LayerName.hasFf) block block' := by
    refine exists_mapM_scaled ?_ block
    intro l
    split_ifs with hkind
    · obtain ⟨ratio, hnonneg, hratio⟩ := exists_ffRatio hflops hgpu (div_pos hacc hgpu) hbs l
      exact ⟨_, bind_ok_iff.mpr ⟨ratio, hratio, rfl⟩,
        .of_kind hkind fun htime => mul_nonneg htime hnonneg⟩
    · exact ⟨l, rfl, .refl _ l⟩
  exact ⟨block', bind_ok_iff.mpr ⟨_, fdiv_of_pos _ hgpu, hblock'⟩, hscaled⟩

/-- The projections do not take less than no time together, whatever is taken from either. -/
theorem fc_pipelineTimes_nonneg {r attn : ℚ} (level : Bool) (start : PipelineTimes) (hr0 : 0 ≤ r)
    (hattn : 0 ≤ attn) (hfc : 0 ≤ start.qkvTime + start.prjTime) :
    0 ≤ (pipelineTimes r attn level start).qkvTime +
      (pipelineTimes r attn level start).prjTime := by
  have hscaled : 0 ≤ start.qkvTime * r + start.prjTime * r := by
    rw [← add_mul]
    exact mul_nonneg hfc hr0
  cases level with
  | true =>
    rw [pipelineTimes, if_pos rfl]
    simp only
    by_cases hlong : start.qkvTime + start.prjTime < attn
    · rw [if_pos hlong]
      exact hscaled
    · rw [if_neg hlong]
      split_ifs
      · -- what attention hides is taken from both in fixed shares, and is less than both together
        have hpart : attn * (1 - r) ≤ attn := mul_le_of_le_one_right hattn (by linarith)
        simp only
        linarith
      · exact hscaled
  | false =>
    rw [pipelineTimes, if_neg Bool.false_ne_true]
    exact hfc

/-- A block whose layers do not take less than no time, and its normalisation some. -/
structure Timely (block : List SimLayer) : Prop where
  nonneg : ∀ l ∈ block, 0 ≤ l.execTime
  norm : ∃ l ∈ block, l.layer.name = .norm1 ∧ 0 < l.execTime

/-- A block of which this holds, its two projections taken together. -/
structure Runs (block : List SimLayer) : Prop where
  fc : 0 ≤ fcTime block
  nonneg : ∀ l ∈ block, l.layer.name ≠ .qkv → l.layer.name ≠ .proj → 0 ≤ l.execTime
  norm : ∃ l ∈ block, l.layer.name = .norm1 ∧ 0 < l.execTime

theorem Timely.runs {block : List SimLayer} (h : Timely block) : Runs block :=
  ⟨fcTime_nonneg h.nonneg, fun l hl _ _ => h.nonneg l hl, h.norm⟩

/-- The projections and the rest of a block. -/
theorem sum_execTime_eq (block : List SimLayer) : (block.map SimLayer.execTime).sum =
    fcTime block + timeOf (fun n => decide (n ≠ .qkv ∧ n ≠ .proj)) block := by
  induction block with
  | nil => simp [fcTime, timeOf]
  | cons l block ih =>
    rw [List.map_cons, List.sum_cons, ih, fcTime, fcTime, timeOf_cons, timeOf_cons, timeOf_cons]
    by_cases hqkv : l.layer.name = .qkv
    · simp [hqkv]
      ring
    · by_cases hproj : l.layer.name = .proj
      · simp [hproj]
        ring
      · simp [hqkv, hproj]
        ring

/-- Such a block takes time. -/
theorem Runs.sum_pos {block : List SimLayer} (h : Runs block) :
    0 < (block.map SimLayer.execTime).sum := by
  obtain ⟨l, hl, hname, hpos⟩ := h.norm
  have hle : l.execTime ≤ timeOf (fun n => decide (n ≠ .qkv ∧ n ≠ .proj)) block := by
    refine List.single_le_sum ?_ l.execTime ?_
    · intro time htime
      obtain ⟨l, hl, rfl⟩ := List.mem_map.mp htime
      obtain ⟨hl, hother⟩ := List.mem_filter.mp hl
      obtain ⟨hqkv, hproj⟩ := of_decide_eq_true hother
      exact h.nonneg l hl hqkv hproj
    · refine List.mem_map_of_mem (List.mem_filter.mpr ⟨hl, ?_⟩)
      rw [hname]
      decide
  rw [sum_execTime_eq]
  exact add_pos_of_nonneg_of_pos h.fc (lt_of_lt_of_le hpos hle)

section Scaling

variable {kind : LayerName → Bool} {block block' : List SimLayer}

/-- The times of other kinds of layers are the same. -/
theorem timeOf_of_scaled {other : LayerName → Bool} (hother : ∀ n, other n = true → kind n = false)
    (h : List.Forall₂ (Scaled kind) block block') : timeOf other block' = timeOf other block := by
  induction h with
  | nil => rfl
  | @cons l l' block block' hl _ ih =>
    rw [timeOf_cons, timeOf_cons, ih, hl.layer]
    split_ifs with hname
    · rw [hl.same (hother _ hname)]
    · rfl

theorem exists_norm_of_scaled (hnorm : kind .norm1 = false)
    (h : List.Forall₂ (Scaled kind) block block')
    (hblock : ∃ l ∈ block, l.layer.name = .norm1 ∧ 0 < l.execTime) :
    ∃ l ∈ block', l.layer.name = .norm1 ∧ 0 < l.execTime := by
  obtain ⟨l, hl, hname, hpos⟩ := hblock
  obtain ⟨l', hl', hscaled⟩ := exists_of_forall₂_right h.flip hl
  refine ⟨l', hl', ?_, ?_⟩
  · rw [hscaled.layer]
    exact hname
  · rw [hscaled.same (by rw [hname]; exact hnorm)]
    exact hpos

theorem Timely.of_scaled (hnorm : kind .norm1 = false)
    (h : List.Forall₂ (Scaled kind) block block') (hblock : Timely block) : Timely block' := by
  refine ⟨?_, exists_norm_of_scaled hnorm h hblock.norm⟩
  intro l' hl'
  obtain ⟨l, hl, hscaled⟩ := exists_of_forall₂_right h hl'
  exact hscaled.nonneg (hblock.nonneg l hl)

theorem Runs.of_scaled (hnorm : kind .norm1 = false) (hqkv : kind .qkv = false)
    (hproj : kind .proj = false) (h : List.Forall₂ (Scaled kind) block block')
    (hblock : Runs block) : Runs block' := by
  refine ⟨?_, ?_, exists_norm_of_scaled hnorm h hblock.norm⟩
  · have hsame : fcTime block' = fcTime block := by
      rw [fcTime, fcTime, timeOf_of_scaled ?_ h, timeOf_of_scaled ?_ h]
      · intro n hn
        rw [of_decide_eq_true hn]
        exact hproj
      · intro n hn
        rw [of_decide_eq_true hn]
        exact hqkv
    rw [hsame]
    exact hblock.fc
  · intro l' hl' hqkv' hproj'
    obtain ⟨l, hl, hscaled⟩ := exists_of_forall₂_right h hl'
    rw [hscaled.layer] at hqkv' hproj'
    exact hscaled.nonneg (hblock.nonneg l hl hqkv' hproj')

theorem map_layer_of_scaled (h : List.Forall₂ (Scaled kind) block block') :
    block'.map SimLayer.layer = block.map SimLayer.layer := by
  induction h with
  | nil => rfl
  | cons hl _ ih => rw [List.map_cons, List.map_cons, ih, hl.layer]

end Scaling

/-- `_pipeline` may take more from one projection than it takes, but not from both. -/
theorem exists_pipeline {block : List SimLayer} {attnOnHetero : Bool}
    (hdecode : IsDecodeBlock t attnOnHetero block) (hblock : Timely block) {numXpu : ℕ}
    (hxpu : 0 < numXpu) (numKvHeads : ℕ) (level : Bool) :
    ∃ block', pipeline numKvHeads numXpu level block = .ok block' ∧ Runs block' := by
  have hattn := attnTime_nonneg hblock.nonneg
  have hr0 := (minimumRatio_pos numKvHeads numXpu).le
  have hr1 := minimumRatio_le_one numKvHeads numXpu
  refine ⟨_, pipeline_of_pos hxpu, ?_, ?_, ?_⟩
  · rw [fcTime_withTimes hdecode]
    exact fc_pipelineTimes_nonneg level _ hr0 hattn (fcTime_nonneg hblock.nonneg)
  · intro l' hl' hqkv hproj
    obtain ⟨l, hl, rfl⟩ := List.mem_map.mp hl'
    have hx2g := (x2gTime_pipelineTimes level (startTimes block) hr0 hr1 hattn
      (timeOf_nonneg hblock.nonneg)).1
    simp only [pipelineTime, if_neg hqkv, if_neg hproj]
    split_ifs
    · exact div_nonneg hx2g (zero_le_one.trans (le_max_left _ _))
    · exact le_rfl
    · exact hblock.nonneg l hl
  · -- the normalisation is not overlapped
    obtain ⟨l, hl, hname, hpos⟩ := hblock.norm
    refine ⟨_, List.mem_map_of_mem hl, hname, ?_⟩
    have hsame : pipelineTime (endTimes numKvHeads numXpu level block)
        (block.countP fun l => l.layer.name.startsWithCommX2g) l = l.execTime := by
      rw [pipelineTime, hname]
      rfl
    exact lt_of_lt_of_eq hpos hsame.symm

/-- The layers of a decode block are timed, and none takes less than no time. -/
theorem exists_timeGenBlock (h : sys.Positive gpu acc dhead) {block : List SimLayer}
    (hasked : ∀ l ∈ block, l.layer.name.IsScore → l.layer.toLayerArgs.Asked dhead)
    (hnorm : ∃ l ∈ block, l.layer.name = .norm1 ∧ l.layer.type = .NORM)
    (hblock : ∀ l ∈ block, Timed gpu acc device l.layer.toLayerArgs) :
    ∃ timed, sys.timeGenBlock device block = .ok timed ∧ Timely timed := by
  obtain ⟨timed, htimed⟩ := exists_forall₂_iff.mpr fun l (hl : l ∈ block) =>
    show ∃ l' : SimLayer, (∃ o, sys.timeOn device l.layer = .ok o ∧ 0 ≤ o.execTime ∧
        (l.layer.type = .NORM → 0 < o.execTime) ∧ l' = l.assign o) by
      obtain ⟨o, ho, hnonneg, hpos⟩ := exists_timeOn h (fun _ => hasked l hl) (hblock l hl)
      exact ⟨_, o, ho, hnonneg, hpos, rfl⟩
  refine ⟨timed, mapM_ok_iff.mpr (htimed.imp ?_), ?_, ?_⟩
  · rintro l l' ⟨o, ho, -, -, rfl⟩
    exact bind_ok_iff.mpr ⟨o, ho, rfl⟩
  · intro l' hl'
    obtain ⟨l, -, o, -, hnonneg, -, rfl⟩ := exists_of_forall₂_right htimed hl'
    exact hnonneg
  · obtain ⟨l, hl, hname, htype⟩ := hnorm
    obtain ⟨l', hl', o, -, -, hpos, rfl⟩ := exists_of_forall₂_right htimed.flip hl
    exact ⟨_, hl', hname, hpos htype⟩

theorem timed_of_timeGenBlock (h : sys.Positive gpu acc dhead) {block timed : List SimLayer}
    (htimed : sys.timeGenBlock device block = .ok timed) :
    ∀ l ∈ block, Timed gpu acc device l.layer.toLayerArgs := by
  intro l hl
  obtain ⟨l', -, hl'⟩ := exists_of_forall₂_right (mapM_ok_iff.mp htimed).flip hl
  obtain ⟨o, ho, -⟩ := bind_ok_iff.mp hl'
  exact timed_of_timeOn h ho

/-- The passes over a timed block return, and leave a block that takes time. -/
theorem exists_adjustGenBlock (h : sys.Positive gpu acc dhead) (args : PassArgs) (hbs : 0 < bs)
    (device : RoutingDevice) {timed : List SimLayer} {attnOnHetero : Bool}
    (hdecode : IsDecodeBlock t attnOnHetero timed)
    (htimed : Timely timed) :
    ∃ adjusted, sys.adjustGenBlock t args bs device timed = .ok adjusted ∧ Runs adjusted := by
  have hhbm : 0 < sys.acc.numHbm := h.acc_eq ▸ AccConfig.numHbm_pos h.acc
  have hxpu : 0 < sys.gpu.numXpu := h.gpu_eq ▸ h.gpu.numXpu
  have hacc : 0 < sys.acc.peakMemoryBandwidth :=
    h.acc_eq ▸ AccConfig.peakMemoryBandwidth_pos h.acc
  have hbw : 0 < sys.gpu.peakMemoryBandwidth := h.gpu_eq ▸ h.gpu.peakMemoryBandwidth
  have hflops : 0 < sys.gpu.peakFlops := h.gpu_eq ▸ h.gpu.peakFlops
  rw [adjustGenBlock]
  by_cases hdevice : device = .pim
  · rw [if_pos hdevice]
    obtain ⟨slowed, hslowed, hscaled⟩ := exists_applyEffLat hhbm args.batchSize device timed
    have hslowedDecode : IsDecodeBlock t attnOnHetero slowed := by
      obtain ⟨batch, lin, stage, hbuild⟩ := hdecode
      exact ⟨batch, lin, stage, by rw [map_layer_of_scaled hscaled, hbuild]⟩
    obtain ⟨piped, hpiped, hruns⟩ := exists_pipeline hslowedDecode
      (htimed.of_scaled rfl hscaled) hxpu t.numKvHeads args.pipe
    cases hff : args.parallelFf with
    | true =>
      obtain ⟨parallel, hparallel, hscaled'⟩ := exists_ffParallel hflops hbw hacc hbs piped
      refine ⟨parallel, ?_, hruns.of_scaled rfl rfl rfl hscaled'⟩
      exact bind_ok_iff.mpr ⟨slowed, hslowed, bind_ok_iff.mpr ⟨piped, hpiped, hparallel⟩⟩
    | false =>
      refine ⟨piped, ?_, hruns⟩
      exact bind_ok_iff.mpr ⟨slowed, hslowed, bind_ok_iff.mpr ⟨piped, hpiped, rfl⟩⟩
  · rw [if_neg hdevice]
    exact ⟨timed, rfl, htimed.runs⟩

/-! ## The passes over a group -/

/-- A decode block that has just been built. -/
structure FreshDecodeBlock (t : Transformer) (block : List SimLayer) : Prop where
  decode : ∃ attnOnHetero, IsDecodeBlock t attnOnHetero block
  norm : ∃ l ∈ block, l.layer.name = .norm1 ∧ l.layer.type = .NORM
  asked : ∀ l ∈ block, l.layer.name.IsScore → l.layer.toLayerArgs.Asked t.dhead

theorem exists_simulateGenBlock (h : sys.Positive gpu acc t.dhead) (args : PassArgs) (hbs : 0 < bs)
    {block : List SimLayer} (hfresh : FreshDecodeBlock t block)
    (hblock : ∀ l ∈ block, Timed gpu acc device l.layer.toLayerArgs) (energies : GenEnergies) :
    ∃ out energies', sys.simulateGenBlock t args bs device energies block = .ok (out, energies') ∧
      Runs out := by
  obtain ⟨⟨attnOnHetero, batch, lin, stage, hbuild⟩, hnorm, hasked⟩ := hfresh
  obtain ⟨timed, htimed, htimely⟩ := exists_timeGenBlock h hasked hnorm hblock
  have hdecode : IsDecodeBlock t attnOnHetero timed :=
    ⟨batch, lin, stage, by rw [map_layer_timeGenBlock htimed, hbuild]⟩
  obtain ⟨adjusted, hadjusted, hruns⟩ := exists_adjustGenBlock h args hbs device hdecode htimely
  exact ⟨adjusted, _, bind_ok_iff.mpr ⟨timed, htimed,
    bind_ok_iff.mpr ⟨adjusted, hadjusted, rfl⟩⟩, hruns⟩

theorem exists_simulateGenBlocks (h : sys.Positive gpu acc t.dhead) (args : PassArgs) (hbs : 0 < bs)
    {blocks : List (List SimLayer)} (hfresh : ∀ block ∈ blocks, FreshDecodeBlock t block)
    (hblocks : ∀ block ∈ blocks, ∀ l ∈ block, Timed gpu acc device l.layer.toLayerArgs)
    (energies : GenEnergies) : ∃ out energies',
      sys.simulateGenBlocks t args bs device energies blocks = .ok (out, energies') ∧
        out.length = blocks.length ∧ ∀ block ∈ out, Runs block := by
  induction blocks generalizing energies with
  | nil => exact ⟨[], energies, rfl, rfl, fun block hblock => absurd hblock List.not_mem_nil⟩
  | cons block blocks ih =>
    obtain ⟨hfreshBlock, hfreshRest⟩ := List.forall_mem_cons.mp hfresh
    obtain ⟨hblock, hrest⟩ := List.forall_mem_cons.mp hblocks
    obtain ⟨out, energies₁, hout, hruns⟩ :=
      exists_simulateGenBlock h args hbs hfreshBlock hblock energies
    obtain ⟨outs, energies₂, houts, hlength, hrunsRest⟩ := ih hfreshRest hrest energies₁
    refine ⟨out :: outs, energies₂, ?_, by rw [List.length_cons, List.length_cons, hlength],
      List.forall_mem_cons.mpr ⟨hruns, hrunsRest⟩⟩
    exact bind_ok_iff.mpr ⟨_, hout, bind_ok_iff.mpr ⟨_, houts, rfl⟩⟩

theorem timed_of_simulateGenBlocks (h : sys.Positive gpu acc dhead)
    {blocks out : List (List SimLayer)} {energies energies' : GenEnergies}
    (hout : sys.simulateGenBlocks t args bs device energies blocks = .ok (out, energies')) :
    ∀ block ∈ blocks, ∀ l ∈ block, Timed gpu acc device l.layer.toLayerArgs := by
  induction blocks generalizing energies out energies' with
  | nil => exact fun block hblock => absurd hblock List.not_mem_nil
  | cons block blocks ih =>
    obtain ⟨⟨out₁, energies₁⟩, hblock, hout⟩ := bind_ok_iff.mp hout
    obtain ⟨⟨outs, energies₂⟩, hblocks, -⟩ := bind_ok_iff.mp hout
    obtain ⟨timed, htimed, -⟩ := bind_ok_iff.mp hblock
    exact List.forall_mem_cons.mpr ⟨timed_of_timeGenBlock h htimed, ih hblocks⟩

theorem collectGPerf_all (gDecoder : List (List SimLayer)) : collectGPerf gDecoder .all =
    (gDecoder.map fun block => (block.map SimLayer.execTime).sum).sum := by
  have hall : gDecoder.flatten.filter (fun l => GPerfKey.all ∈ gPerfKeys l.layer) =
      gDecoder.flatten := by
    refine List.filter_eq_self.mpr ?_
    intro l _
    exact decide_eq_true List.mem_cons_self
  rw [collectGPerf, hall, List.map_flatten, List.sum_flatten, List.map_map]
  rfl

/-- Blocks that take time take time together. -/
theorem collectGPerf_all_pos {gDecoder : List (List SimLayer)} (hne : gDecoder ≠ [])
    (hruns : ∀ block ∈ gDecoder, Runs block) : 0 < collectGPerf gDecoder .all := by
  rw [collectGPerf_all]
  refine List.sum_pos _ ?_ (by simpa using hne)
  intro time htime
  obtain ⟨block, hblock, rfl⟩ := List.mem_map.mp htime
  exact (hruns block hblock).sum_pos

end Platform

end AttAcc
