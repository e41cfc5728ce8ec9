import AttAcc.Device
import AttAcc.Library.List
import AttAcc.Routing

/-!
# Adjusting the times of a decode block

The passes `src/system.py` runs over the timed layers of a PIM group: the efficiency of
the head-level pipeline (`_apply_eff_lat`), the overlap of transfers and projections with
attention (`_pipeline`), and the feed-forward layers run on both devices (`_ff_parallel`).
They change execution times only, which is the first thing proved about each.
-/

namespace AttAcc

open Library

/-- `get_pipelining_efficiency_latency`. -/
def getPipeliningEfficiencyLatency (nKvPerGpu numHbm batchSize : ℕ) (softmaxToGemv : ℚ) :
    Except PyError ℚ := do
  if 2 ≤ batchSize then return 1
  if nKvPerGpu = 0 then return 1
  if numHbm = 0 then throw .zeroDivision
  let maxHeadsPerHbm := nKvPerGpu ⌈/⌉ numHbm
  let denom : ℚ :=
    if maxHeadsPerHbm ≤ 1 then numHbm * (1 + softmaxToGemv) else numHbm * maxHeadsPerHbm
  let ratio ← fdiv nKvPerGpu denom
  return min 1 ratio

/-- The layers the efficiency applies to. -/
def LayerName.isAttention : LayerName → Bool
  | .score | .softmax | .context => true
  | _ => false

/-- `_apply_eff_lat`; the default softmax ratio is 0.4. -/
def applyEffLat (numHbm batchSize : ℕ) (device : RoutingDevice) (block : List SimLayer) :
    Except PyError (List SimLayer) :=
  if device ≠ .pim then .ok block
  else
    match block.find? fun l => decide (l.layer.name = .score) with
    | none => .ok block
    | some scoreLayer => do
      let effLat ← getPipeliningEfficiencyLatency scoreLayer.layer.pimNumOp numHbm batchSize (2 / 5)
      block.mapM fun l =>
        if l.layer.name.isAttention then do
          let execTime ← fdiv l.execTime effLat
          return { l with execTime := execTime }
        else return l

/-- The total time of the layers with a name of some kind. -/
def timeOf (kind : LayerName → Bool) (block : List SimLayer) : ℚ :=
  ((block.filter fun l => kind l.layer.name).map SimLayer.execTime).sum

/-- The times `_pipeline` overlaps. -/
structure PipelineTimes where
  qkvTime : ℚ
  prjTime : ℚ
  x2gTime : ℚ

/-- The arithmetic of `_pipeline`, for a ratio of exposed time. -/
def pipelineTimes (minimumRatio attnTime : ℚ) (level : Bool) (t : PipelineTimes) :
    PipelineTimes :=
  if level then
    let fcTime := t.qkvTime + t.prjTime
    if fcTime < attnTime then
      { qkvTime := t.qkvTime * minimumRatio
        prjTime := t.prjTime * minimumRatio
        x2gTime :=
          if t.x2gTime < attnTime then t.x2gTime * minimumRatio
          else t.x2gTime - attnTime * (1 - minimumRatio) }
    else if t.x2gTime < fcTime then
      { qkvTime := t.qkvTime - attnTime * (1 - minimumRatio) * (3 / 4)
        prjTime := t.prjTime - attnTime * (1 - minimumRatio) * (1 / 4)
        x2gTime := t.x2gTime * minimumRatio }
    else
      { qkvTime := t.qkvTime * minimumRatio
        prjTime := t.prjTime * minimumRatio
        x2gTime := t.x2gTime - attnTime * (1 - minimumRatio) }
  else
    { t with
      x2gTime :=
        if t.x2gTime < attnTime then t.x2gTime * minimumRatio
        else t.x2gTime - attnTime * (1 - minimumRatio) }

/-- The time `_pipeline` writes back to a layer. -/
def pipelineTime (t : PipelineTimes) (x2gLayers : ℕ) (l : SimLayer) : ℚ :=
  if l.layer.name = .qkv then t.qkvTime
  else if l.layer.name = .proj then t.prjTime
  else if l.layer.name.startsWithCommX2g then t.x2gTime / max 1 (x2gLayers : ℚ)
  else if l.layer.name = .softmax then 0
  else l.execTime

/-- `_pipeline`. -/
def pipeline (numKvHeads numXpu : ℕ) (level : Bool) (block : List SimLayer) :
    Except PyError (List SimLayer) := do
  let headsPerXpu ← fdiv numKvHeads numXpu
  let minimumRatio : ℚ := 1 / max 1 headsPerXpu
  let attnTime := timeOf (· = .score) block + timeOf (· = .context) block +
    timeOf (· = .softmax) block
  let times := pipelineTimes minimumRatio attnTime level
    { qkvTime := timeOf (· = .qkv) block
      prjTime := timeOf (· = .proj) block
      x2gTime := timeOf LayerName.startsWithCommX2g block }
  let x2gLayers := block.countP fun l => l.layer.name.startsWithCommX2g
  return block.map fun l => { l with execTime := pipelineTime times x2gLayers l }

/-- The share of its time an `ff` layer keeps when the accelerator takes part. -/
def ffRatio (gpu : Xpu) (bwScale : ℚ) (bs : ℕ) (l : SimLayer) : Except PyError ℚ :=
  match l.bound with
  | .compute =>
    let attnFlops := gpu.peakMemoryBandwidth / l.layer.dbyte * 2 * bwScale
    fdiv gpu.peakFlops (gpu.peakFlops + attnFlops)
  | .memory => do
    let attnEffBw ← fdiv (gpu.peakMemoryBandwidth * bwScale) bs
    fdiv gpu.peakMemoryBandwidth (gpu.peakMemoryBandwidth + attnEffBw)

/-- `_ff_parallel`. -/
def ffParallel (gpu : Xpu) (acc : AccDevice) (bs : ℕ) (block : List SimLayer) :
    Except PyError (List SimLayer) := do
  let bwScale ← fdiv acc.peakMemoryBandwidth gpu.peakMemoryBandwidth
  block.mapM fun l =>
    if l.layer.name.hasFf then do
      let ratio ← ffRatio gpu bwScale bs l
      return { l with execTime := l.execTime * ratio }
    else return l

/-! ### Only times change -/

/-- Two layers that differ in their time at most. -/
def SimLayer.SameButTime (l l' : SimLayer) : Prop :=
  l'.layer = l.layer ∧ l'.energy = l.energy ∧ l'.bound = l.bound

theorem SimLayer.SameButTime.refl (l : SimLayer) : l.SameButTime l := ⟨rfl, rfl, rfl⟩

theorem SimLayer.SameButTime.trans {l₁ l₂ l₃ : SimLayer} (h : l₁.SameButTime l₂)
    (h' : l₂.SameButTime l₃) : l₁.SameButTime l₃ :=
  ⟨h'.1.trans h.1, h'.2.1.trans h.2.1, h'.2.2.trans h.2.2⟩

/-- Blocks whose layers differ in their times at most. -/
abbrev BlockSameButTime : List SimLayer → List SimLayer → Prop :=
  List.Forall₂ SimLayer.SameButTime

theorem BlockSameButTime.refl (block : List SimLayer) : BlockSameButTime block block :=
  List.forall₂_same.mpr fun l _ => .refl l

theorem BlockSameButTime.trans {b₁ b₂ b₃ : List SimLayer} (h : BlockSameButTime b₁ b₂)
    (h' : BlockSameButTime b₂ b₃) : BlockSameButTime b₁ b₃ :=
  forall₂_trans (R := SimLayer.SameButTime) SimLayer.SameButTime.trans h h'

theorem BlockSameButTime.map_layer {b b' : List SimLayer} (h : BlockSameButTime b b') :
    b'.map SimLayer.layer = b.map SimLayer.layer := by
  induction h with
  | nil => rfl
  | cons hl _ ih => rw [List.map_cons, List.map_cons, hl.1, ih]

/-- A pass that maps a time change over a block leaves the rest. -/
theorem BlockSameButTime.of_mapM {f : SimLayer → Except PyError SimLayer}
    (hf : ∀ {l l'}, f l = .ok l' → l.SameButTime l') {block block' : List SimLayer}
    (h : block.mapM f = .ok block') : BlockSameButTime block block' :=
  (mapM_ok_iff.mp h).imp fun _ _ => hf

theorem applyEffLat_sameButTime {numHbm batchSize : ℕ} {device : RoutingDevice}
    {block block' : List SimLayer} (h : applyEffLat numHbm batchSize device block = .ok block') :
    BlockSameButTime block block' := by
  unfold applyEffLat at h
  split_ifs at h with hdevice
  · obtain rfl := Except.ok.inj h
    exact .refl block
  · rcases hfind : block.find? (fun l => decide (l.layer.name = .score)) with _ | scoreLayer
    · rw [hfind] at h
      obtain rfl := Except.ok.inj h
      exact .refl block
    · rw [hfind] at h
      obtain ⟨effLat, -, h⟩ := bind_ok_iff.mp h
      refine BlockSameButTime.of_mapM ?_ h
      intro l l' hl
      split_ifs at hl with hname
      · obtain ⟨execTime, -, hl⟩ := bind_ok_iff.mp hl
        obtain rfl := Except.ok.inj hl
        exact ⟨rfl, rfl, rfl⟩
      · obtain rfl := Except.ok.inj hl
        exact .refl l

theorem pipeline_sameButTime {numKvHeads numXpu : ℕ} {level : Bool}
    {block block' : List SimLayer} (h : pipeline numKvHeads numXpu level block = .ok block') :
    BlockSameButTime block block' := by
  obtain ⟨headsPerXpu, -, h⟩ := bind_ok_iff.mp h
  obtain rfl := Except.ok.inj h
  refine List.forall₂_map_right_iff.mpr (List.forall₂_same.mpr ?_)
  intro l _
  exact ⟨rfl, rfl, rfl⟩

theorem ffParallel_sameButTime {gpu : Xpu} {acc : AccDevice} {bs : ℕ}
    {block block' : List SimLayer} (h : ffParallel gpu acc bs block = .ok block') :
    BlockSameButTime block block' := by
  obtain ⟨bwScale, -, h⟩ := bind_ok_iff.mp h
  refine BlockSameButTime.of_mapM ?_ h
  intro l l' hl
  split_ifs at hl with hname
  · obtain ⟨ratio, -, hl⟩ := bind_ok_iff.mp hl
    obtain rfl := Except.ok.inj hl
    exact ⟨rfl, rfl, rfl⟩
  · obtain rfl := Except.ok.inj hl
    exact .refl l

end AttAcc
