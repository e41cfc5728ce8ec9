import AttAcc.Config
import AttAcc.Graph
import AttAcc.Pipeline
import Mathlib.Algebra.Order.BigOperators.Group.List
import Mathlib.Tactic.Linarith
import Mathlib.Tactic.Ring

/-!
# What overlapping a decode block costs

`_pipeline` hides attention, projections and transfers behind each other, up to a share that
the first head of a device leaves exposed. Its branches subtract and scale the times of these
stages, but all of them come to the same formula: the longest stage, and the exposed share of
the others (`pipeline_latency`).

The time that attention hides of the projections is taken from `qkv` and `proj` in the fixed
shares 3/4 and 1/4, whatever they take themselves, so a layer may be left with less than no
time (`pipeline_shortens_iff`).
-/

namespace AttAcc

open Library

/-! ### Times of a block -/

section Times

variable {kind : LayerName → Bool} {block : List SimLayer} {f : SimLayer → ℚ}

@[simp] theorem timeOf_nil : timeOf kind [] = 0 := rfl

theorem timeOf_cons (l : SimLayer) :
    timeOf kind (l :: block) = (if kind l.layer.name = true then l.execTime else 0) +
      timeOf kind block := by
  rw [timeOf, timeOf, List.filter_cons]
  split_ifs with hkind
  · rw [List.map_cons, List.sum_cons]
  · rw [zero_add]

theorem timeOf_nonneg (h : ∀ l ∈ block, 0 ≤ l.execTime) : 0 ≤ timeOf kind block := by
  refine List.sum_nonneg ?_
  intro time htime
  obtain ⟨l, hl, rfl⟩ := List.mem_map.mp htime
  exact h l (List.mem_of_mem_filter hl)

/-- Layers of a kind that take no time. -/
theorem timeOf_eq_zero (h : ∀ l ∈ block, kind l.layer.name = true → l.execTime = 0) :
    timeOf kind block = 0 := by
  refine List.sum_eq_zero ?_
  intro time htime
  obtain ⟨l, hl, rfl⟩ := List.mem_map.mp htime
  obtain ⟨hmem, hkind⟩ := List.mem_filter.mp hl
  exact h l hmem hkind

/-- The block with other times. -/
def withTimes (f : SimLayer → ℚ) (block : List SimLayer) : List SimLayer :=
  block.map fun l => { l with execTime := f l }

/-- A pass that leaves the times of a kind of layers. -/
theorem timeOf_withTimes_of_same
    (h : ∀ l ∈ block, kind l.layer.name = true → f l = l.execTime) :
    timeOf kind (withTimes f block) = timeOf kind block := by
  induction block with
  | nil => rfl
  | cons l block ih =>
    obtain ⟨hl, hblock⟩ := List.forall_mem_cons.mp h
    rw [withTimes, List.map_cons, timeOf_cons, timeOf_cons, ← withTimes, ih hblock]
    split_ifs with hkind
    · rw [hl hkind]
    · rfl

/-- A pass that gives all layers of a kind the same time. -/
theorem timeOf_withTimes_of_const {v : ℚ} (h : ∀ l ∈ block, kind l.layer.name = true → f l = v) :
    timeOf kind (withTimes f block) = (block.countP fun l => kind l.layer.name) * v := by
  induction block with
  | nil => simp [withTimes]
  | cons l block ih =>
    obtain ⟨hl, hblock⟩ := List.forall_mem_cons.mp h
    rw [withTimes, List.map_cons, timeOf_cons, ← withTimes, ih hblock, List.countP_cons]
    split_ifs with hkind
    · rw [hl hkind]
      push_cast
      ring
    · simp

end Times

/-! ### The stages -/

/-- The score and the context of a block. -/
def attentionTime (block : List SimLayer) : ℚ :=
  timeOf (· = .score) block + timeOf (· = .context) block

/-- Its projections. -/
def fcTime (block : List SimLayer) : ℚ := timeOf (· = .qkv) block + timeOf (· = .proj) block

/-- Its transfers. -/
def x2gTime (block : List SimLayer) : ℚ := timeOf LayerName.startsWithCommX2g block

/-- All three. -/
def stagesTime (block : List SimLayer) : ℚ := attentionTime block + fcTime block + x2gTime block

/-- The longest of them. -/
def longestStage (block : List SimLayer) : ℚ :=
  max (attentionTime block) (max (fcTime block) (x2gTime block))

/-- `minimum_ratio`. -/
def minimumRatio (numKvHeads numXpu : ℕ) : ℚ := 1 / max 1 ((numKvHeads : ℚ) / numXpu)

/-- `attn_time`. -/
def attnTime (block : List SimLayer) : ℚ := attentionTime block + timeOf (· = .softmax) block

/-- The other times that `_pipeline` starts from. -/
def startTimes (block : List SimLayer) : PipelineTimes where
  qkvTime := timeOf (· = .qkv) block
  prjTime := timeOf (· = .proj) block
  x2gTime := x2gTime block

/-- The times it ends with. -/
def endTimes (numKvHeads numXpu : ℕ) (level : Bool) (block : List SimLayer) : PipelineTimes :=
  pipelineTimes (minimumRatio numKvHeads numXpu) (attnTime block) level (startTimes block)

/-- The layers whose times it changes, but for `softmax`. -/
def LayerName.isOverlapped : LayerName → Bool
  | qkv | proj | commX2gKv | commX2gQ | commX2gQkv | commX2gReturn => true
  | _ => false

/-- A decode block that was built, with some times. -/
def IsDecodeBlock (t : Transformer) (attnOnHetero : Bool) (block : List SimLayer) : Prop :=
  ∃ batch lin stage, t.buildGenStage batch lin stage attnOnHetero = .ok (block.map SimLayer.layer)

section Pass

variable {t : Transformer} {numKvHeads numXpu : ℕ} {level attnOnHetero : Bool}
  {block : List SimLayer}

theorem minimumRatio_pos (numKvHeads numXpu : ℕ) : 0 < minimumRatio numKvHeads numXpu :=
  one_div_pos.mpr (lt_of_lt_of_le one_pos (le_max_left _ _))

theorem minimumRatio_le_one (numKvHeads numXpu : ℕ) : minimumRatio numKvHeads numXpu ≤ 1 := by
  rw [minimumRatio, div_le_one (lt_of_lt_of_le one_pos (le_max_left _ _))]
  exact le_max_left _ _

/-- With a device, `_pipeline` writes its times back. -/
theorem pipeline_of_pos (hxpu : 0 < numXpu) : pipeline numKvHeads numXpu level block =
    .ok (withTimes (pipelineTime (endTimes numKvHeads numXpu level block)
      (block.countP fun l => l.layer.name.startsWithCommX2g)) block) := by
  have hne : (numXpu : ℚ) ≠ 0 := Nat.cast_ne_zero.mpr hxpu.ne'
  exact bind_ok_iff.mpr ⟨_, fdiv_eq_ok.mpr ⟨hne, rfl⟩, rfl⟩

theorem attnTime_nonneg (h : ∀ l ∈ block, 0 ≤ l.execTime) : 0 ≤ attnTime block :=
  add_nonneg (add_nonneg (timeOf_nonneg h) (timeOf_nonneg h)) (timeOf_nonneg h)

theorem fcTime_nonneg (h : ∀ l ∈ block, 0 ≤ l.execTime) : 0 ≤ fcTime block :=
  add_nonneg (timeOf_nonneg h) (timeOf_nonneg h)

/-- How many layers of a kind a decode block has is a matter of its shards. -/
theorem IsDecodeBlock.countP_eq (h : IsDecodeBlock t attnOnHetero block) :
    ∃ (s : GenShards t) (batch lin stage : ℕ), ∀ kind : LayerName → Bool,
      (block.countP fun l => kind l.layer.name) =
        (Transformer.genBlock s batch lin stage attnOnHetero).countP fun a => kind a.name := by
  obtain ⟨batch, lin, stage, hbuild⟩ := h
  obtain ⟨-, s, hargs⟩ := Transformer.buildGenStage_eq_ok.mp hbuild
  refine ⟨s, batch, lin, stage, ?_⟩
  intro kind
  rw [← hargs, List.map_map, List.countP_map]
  rfl

/-- A decode block has one `qkv` and one `proj`. -/
theorem IsDecodeBlock.countP_fc (h : IsDecodeBlock t attnOnHetero block) :
    (block.countP fun l => decide (l.layer.name = .qkv)) = 1 ∧
      (block.countP fun l => decide (l.layer.name = .proj)) = 1 := by
  obtain ⟨s, batch, lin, stage, hcount⟩ := h.countP_eq
  have hqkv := hcount fun n => decide (n = .qkv)
  have hproj := hcount fun n => decide (n = .proj)
  rw [hqkv, hproj]
  rcases attnOnHetero with _ | _ <;> rcases hffn : t.ffnType with _ | _ <;>
    rcases hact : t.activation with _ | _ | _ | _ <;>
    simp [Transformer.genBlock, Transformer.genAttnArgs, Transformer.finishArgs,
      Transformer.projArgs, Transformer.ffnArgs, Transformer.closeArgs, hffn,
      Transformer.activationName, hact]

/-- What is written back to one projection each is what they take. -/
theorem fcTime_withTimes (h : IsDecodeBlock t attnOnHetero block) (times : PipelineTimes) (k : ℕ) :
    fcTime (withTimes (pipelineTime times k) block) = times.qkvTime + times.prjTime := by
  obtain ⟨hqkv, hproj⟩ := h.countP_fc
  rw [fcTime, timeOf_withTimes_of_const (v := times.qkvTime),
    timeOf_withTimes_of_const (v := times.prjTime), hqkv, hproj, Nat.cast_one, one_mul, one_mul]
  · intro l _ hname
    simp [pipelineTime, of_decide_eq_true hname]
  · intro l _ hname
    simp [pipelineTime, of_decide_eq_true hname]

/-! ### The arithmetic -/

section Arithmetic

variable {r attn : ℚ} {start : PipelineTimes}

/-- What is hidden of a time is a share of it. -/
theorem mul_nonneg_of_ratio (hr : r ≤ 1) {time : ℚ} (htime : 0 ≤ time) : 0 ≤ time * (1 - r) :=
  mul_nonneg htime (sub_nonneg.mpr hr)

/-- The transfers do not get longer, and they do not take less than no time. -/
theorem x2gTime_pipelineTimes (level : Bool) (start : PipelineTimes) (hr0 : 0 ≤ r) (hr1 : r ≤ 1)
    (hattn : 0 ≤ attn) (hx2g : 0 ≤ start.x2gTime) :
    0 ≤ (pipelineTimes r attn level start).x2gTime ∧
      (pipelineTimes r attn level start).x2gTime ≤ start.x2gTime := by
  have hscaled : 0 ≤ start.x2gTime * r ∧ start.x2gTime * r ≤ start.x2gTime :=
    ⟨mul_nonneg hx2g hr0, mul_le_of_le_one_right hx2g hr1⟩
  have hhidden : attn ≤ start.x2gTime → 0 ≤ start.x2gTime - attn * (1 - r) ∧
      start.x2gTime - attn * (1 - r) ≤ start.x2gTime := by
    intro hle
    have hpart : attn * (1 - r) ≤ attn := mul_le_of_le_one_right hattn (by linarith)
    have hnonneg := mul_nonneg_of_ratio hr1 hattn
    exact ⟨by linarith, by linarith⟩
  cases level with
  | false =>
    rw [pipelineTimes, if_neg Bool.false_ne_true]
    simp only
    split_ifs with hlong
    · exact hscaled
    · exact hhidden (not_lt.mp hlong)
  | true =>
    rw [pipelineTimes, if_pos rfl]
    simp only
    split_ifs with hfc hlong hlong
    · exact hscaled
    · exact hhidden (not_lt.mp hlong)
    · exact hscaled
    · exact hhidden ((not_lt.mp hfc).trans (not_lt.mp hlong))

/-- **The formula, at head level**: the longest stage, and the exposed share of the others. -/
theorem sum_pipelineTimes_true :
    attn + ((pipelineTimes r attn true start).qkvTime + (pipelineTimes r attn true start).prjTime) +
        (pipelineTimes r attn true start).x2gTime =
      max attn (max (start.qkvTime + start.prjTime) start.x2gTime) +
        r * (attn + (start.qkvTime + start.prjTime) + start.x2gTime -
          max attn (max (start.qkvTime + start.prjTime) start.x2gTime)) := by
  rw [pipelineTimes, if_pos rfl]
  simp only
  split_ifs with hfc hattn hx2g
  · rw [max_eq_left (max_le hfc.le hattn.le)]
    ring
  · have hlong := not_lt.mp hattn
    rw [max_eq_right (hfc.le.trans hlong), max_eq_right hlong]
    ring
  · rw [max_eq_left hx2g.le, max_eq_right (not_lt.mp hfc)]
    ring
  · have hlong := not_lt.mp hx2g
    rw [max_eq_right hlong, max_eq_right ((not_lt.mp hfc).trans hlong)]
    ring

/-- The formula without it: only transfers overlap with attention. -/
theorem sum_pipelineTimes_false :
    attn + ((pipelineTimes r attn false start).qkvTime +
        (pipelineTimes r attn false start).prjTime) + (pipelineTimes r attn false start).x2gTime =
      start.qkvTime + start.prjTime + max attn start.x2gTime + r * min attn start.x2gTime := by
  rw [pipelineTimes, if_neg Bool.false_ne_true]
  simp only
  split_ifs with hattn
  · rw [max_eq_left hattn.le, min_eq_right hattn.le]
    ring
  · have hlong := not_lt.mp hattn
    rw [max_eq_right hlong, min_eq_left hlong]
    ring

/-- A longest part and the exposed share of the rest lie between that part and the whole. -/
theorem exposed_bounds (hr0 : 0 ≤ r) (hr1 : r ≤ 1) {longest total : ℚ} (h : longest ≤ total) :
    longest ≤ longest + r * (total - longest) ∧ longest + r * (total - longest) ≤ total := by
  have hrest := sub_nonneg.mpr h
  have hshare := mul_nonneg hr0 hrest
  have hpart := mul_le_of_le_one_left hrest hr1
  exact ⟨by linarith, by linarith⟩

/-- The same where two parts overlap, and a third one does not. -/
theorem exposed_pair_bounds (hr0 : 0 ≤ r) (hr1 : r ≤ 1) {a f x : ℚ} (ha : 0 ≤ a) (hf : 0 ≤ f)
    (hx : 0 ≤ x) : max a (max f x) ≤ f + max a x + r * min a x ∧
      f + max a x + r * min a x ≤ a + f + x := by
  have hmin : 0 ≤ min a x := le_min ha hx
  have hshare := mul_nonneg hr0 hmin
  have hpart := mul_le_of_le_one_left hmin hr1
  have hsum := max_add_min a x
  have hmax := le_max_left a x
  have hmax' := le_max_right a x
  refine ⟨max_le ?_ (max_le ?_ ?_), ?_⟩ <;> linarith

end Arithmetic

/-! ### The pass -/

/-- The transfers together take the time that `_pipeline` computes for them, however many
there are. -/
theorem x2gTime_withTimes (numKvHeads numXpu : ℕ) (level : Bool)
    (hnonneg : ∀ l ∈ block, 0 ≤ l.execTime) :
    x2gTime (withTimes (pipelineTime (endTimes numKvHeads numXpu level block)
      (block.countP fun l => l.layer.name.startsWithCommX2g)) block) =
      (endTimes numKvHeads numXpu level block).x2gTime := by
  generalize hk : (block.countP fun l => l.layer.name.startsWithCommX2g) = k
  generalize htimes : endTimes numKvHeads numXpu level block = times
  have hsame : ∀ l ∈ block, l.layer.name.startsWithCommX2g = true →
      pipelineTime times k l = times.x2gTime / max 1 (k : ℚ) := by
    intro l _ hx2g
    have hqkv : l.layer.name ≠ .qkv := fun h => by rw [h] at hx2g; cases hx2g
    have hproj : l.layer.name ≠ .proj := fun h => by rw [h] at hx2g; cases hx2g
    rw [pipelineTime, if_neg hqkv, if_neg hproj, if_pos hx2g]
  rw [x2gTime, timeOf_withTimes_of_const hsame, hk]
  rcases Nat.eq_zero_or_pos k with hzero | hpos
  · -- Without transfers there is no time to write back.
    have hstart : (startTimes block).x2gTime = 0 := by
      refine timeOf_eq_zero ?_
      intro l hl hkind
      have hpos : 0 < block.countP fun l => l.layer.name.startsWithCommX2g :=
        List.countP_pos_iff.mpr ⟨l, hl, hkind⟩
      omega
    have hbounds := x2gTime_pipelineTimes level (startTimes block)
      (minimumRatio_pos numKvHeads numXpu).le (minimumRatio_le_one numKvHeads numXpu)
      (attnTime_nonneg hnonneg) hstart.ge
    rw [hzero, Nat.cast_zero, zero_mul, ← htimes]
    exact le_antisymm hbounds.1 (hbounds.2.trans hstart.le)
  · have hone : (1 : ℚ) ≤ k := by exact_mod_cast hpos
    have hne : (k : ℚ) ≠ 0 := Nat.cast_ne_zero.mpr hpos.ne'
    rw [max_eq_right hone, mul_div_cancel₀ _ hne]

/-- The other stages take what `_pipeline` leaves of them. -/
theorem stagesTime_withTimes (numKvHeads numXpu : ℕ) (level : Bool)
    (hblock : IsDecodeBlock t attnOnHetero block)
    (hnonneg : ∀ l ∈ block, 0 ≤ l.execTime) :
    stagesTime (withTimes (pipelineTime (endTimes numKvHeads numXpu level block)
      (block.countP fun l => l.layer.name.startsWithCommX2g)) block) =
      attentionTime block + ((endTimes numKvHeads numXpu level block).qkvTime +
        (endTimes numKvHeads numXpu level block).prjTime) +
        (endTimes numKvHeads numXpu level block).x2gTime := by
  have hx2g := x2gTime_withTimes numKvHeads numXpu level hnonneg
  generalize (block.countP fun l => l.layer.name.startsWithCommX2g) = k at hx2g ⊢
  generalize endTimes numKvHeads numXpu level block = times at hx2g ⊢
  have hattention :
      attentionTime (withTimes (pipelineTime times k) block) = attentionTime block := by
    rw [attentionTime, timeOf_withTimes_of_same, timeOf_withTimes_of_same, attentionTime]
    · intro l _ hname
      simp [pipelineTime, of_decide_eq_true hname, LayerName.startsWithCommX2g]
    · intro l _ hname
      simp [pipelineTime, of_decide_eq_true hname, LayerName.startsWithCommX2g]
  rw [stagesTime, hattention, fcTime_withTimes hblock, hx2g]

/-- The layers that are not overlapped keep their times, if `softmax` has none. -/
theorem unchanged_withTimes (hsoftmax : ∀ l ∈ block, l.layer.name = .softmax → l.execTime = 0)
    (times : PipelineTimes) (k : ℕ) :
    List.Forall₂ (fun l l' : SimLayer => l'.layer = l.layer ∧
      (l.layer.name.isOverlapped = false → l'.execTime = l.execTime)) block
      (withTimes (pipelineTime times k) block) := by
  refine List.forall₂_map_right_iff.mpr (List.forall₂_same.mpr ?_)
  intro l hl
  refine ⟨rfl, ?_⟩
  intro hother
  show pipelineTime times k l = l.execTime
  have hname := hsoftmax l hl
  rw [pipelineTime]
  generalize l.layer.name = name at hother hname ⊢
  cases name <;> simp_all [LayerName.isOverlapped, LayerName.startsWithCommX2g]

/-- **What overlapping a decode block costs**: the longest stage and the exposed share of the
others where projections are overlapped too, and without them the projections, the longer of
attention and transfers, and the exposed share of the shorter. Nothing else changes, the
transfers take together what they take in any block with the same totals, and the stages take
no less than the longest of them and no more than all in sequence. -/
theorem pipeline_latency (hblock : IsDecodeBlock t true block)
    (hnonneg : ∀ l ∈ block, 0 ≤ l.execTime)
    (hsoftmax : ∀ l ∈ block, l.layer.name = .softmax → l.execTime = 0) (hxpu : 0 < numXpu)
    (level : Bool) : ∃ block', pipeline t.numKvHeads numXpu level block = .ok block' ∧
      stagesTime block' = (if level then longestStage block +
          minimumRatio t.numKvHeads numXpu * (stagesTime block - longestStage block)
        else fcTime block + max (attentionTime block) (x2gTime block) +
          minimumRatio t.numKvHeads numXpu * min (attentionTime block) (x2gTime block)) ∧
      List.Forall₂ (fun l l' => l'.layer = l.layer ∧
        (l.layer.name.isOverlapped = false → l'.execTime = l.execTime)) block block' ∧
      (∀ other other' : List SimLayer, (∀ l ∈ other, 0 ≤ l.execTime) →
        attnTime other = attnTime block → startTimes other = startTimes block →
        pipeline t.numKvHeads numXpu level other = .ok other' → x2gTime other' = x2gTime block') ∧
      longestStage block ≤ stagesTime block' ∧ stagesTime block' ≤ stagesTime block := by
  have hattn : attnTime block = attentionTime block := by
    rw [attnTime, timeOf_eq_zero, add_zero]
    intro l hl hname
    exact hsoftmax l hl (of_decide_eq_true hname)
  have hA : 0 ≤ attentionTime block := add_nonneg (timeOf_nonneg hnonneg) (timeOf_nonneg hnonneg)
  have hF : 0 ≤ fcTime block := fcTime_nonneg hnonneg
  have hX : 0 ≤ x2gTime block := timeOf_nonneg hnonneg
  have hr0 := (minimumRatio_pos t.numKvHeads numXpu).le
  have hr1 := minimumRatio_le_one t.numKvHeads numXpu
  have hstages := stagesTime_withTimes t.numKvHeads numXpu level hblock hnonneg
  refine ⟨_, pipeline_of_pos hxpu, ?_, unchanged_withTimes hsoftmax _ _, ?_, ?_⟩
  · rw [hstages, endTimes, hattn]
    cases level with
    | true => exact sum_pipelineTimes_true
    | false => exact sum_pipelineTimes_false
  · intro other other' hother hsameAttn hsameStart hrun
    rw [pipeline_of_pos hxpu] at hrun
    obtain rfl := Except.ok.inj hrun
    rw [x2gTime_withTimes _ _ _ hother, x2gTime_withTimes _ _ _ hnonneg, endTimes, hsameAttn,
      hsameStart, ← endTimes]
  · rw [hstages, endTimes, hattn]
    cases level with
    | true =>
      rw [sum_pipelineTimes_true]
      have hlongest : longestStage block ≤ stagesTime block := by
        refine max_le ?_ (max_le ?_ ?_) <;> rw [stagesTime] <;> linarith
      exact exposed_bounds hr0 hr1 hlongest
    | false =>
      rw [sum_pipelineTimes_false]
      exact exposed_pair_bounds hr0 hr1 hA hF hX

/-- Times for the layers of a block, by their names. -/
def timed (time : LayerName → ℚ) (layers : List Layer) : List SimLayer :=
  layers.map fun l => { layer := l, execTime := time l.name }

theorem map_layer_timed (time : LayerName → ℚ) (layers : List Layer) :
    (timed time layers).map SimLayer.layer = layers := by
  rw [timed, List.map_map]
  exact List.map_id _

/-- Attention and projections that take the same, and short transfers. -/
def balanced : LayerName → ℚ
  | .score => 8
  | .qkv => 6
  | .proj => 2
  | .commX2gQkv => 1
  | .commX2gReturn => 1
  | _ => 0

theorem balanced_nonneg (name : LayerName) : 0 ≤ balanced name := by
  cases name <;> decide

/-- On one GPU `Qwen3-4B` with its eight KV heads leaves an eighth exposed. -/
theorem pipeline_latency_qwen3 : ∃ t block block',
    Transformer.new (makeModelConfig .qwen3_4B .W16A16) 1 = .ok t ∧ stagesTime block = 18 ∧
      pipeline t.numKvHeads 1 true block = .ok block' ∧ stagesTime block' = 8 + 1 / 8 * 10 := by
  obtain ⟨t, layers, ht, hlayers, hheads, hlongest, hsum⟩ : ∃ t layers,
      Transformer.new (makeModelConfig .qwen3_4B .W16A16) 1 = .ok t ∧
        t.buildGenStage 1 16 1 true = .ok layers ∧ t.numKvHeads = 8 ∧
        longestStage (timed balanced layers) = 8 ∧ stagesTime (timed balanced layers) = 18 :=
    ⟨_, _, rfl, rfl, rfl, by decide +kernel, by decide +kernel⟩
  have hblock : IsDecodeBlock t true (timed balanced layers) :=
    ⟨1, 16, 1, by rw [map_layer_timed, hlayers]⟩
  have hnonneg : ∀ l ∈ timed balanced layers, 0 ≤ l.execTime := by
    intro l hl
    obtain ⟨layer, -, rfl⟩ := List.mem_map.mp hl
    exact balanced_nonneg _
  have hsoftmax : ∀ l ∈ timed balanced layers, l.layer.name = .softmax → l.execTime = 0 := by
    intro l hl hname
    obtain ⟨layer, -, rfl⟩ := List.mem_map.mp hl
    exact congrArg balanced hname
  obtain ⟨block', hrun, hlatency, -⟩ :=
    pipeline_latency hblock hnonneg hsoftmax Nat.one_pos true
  refine ⟨t, _, block', ht, hsum, hrun, ?_⟩
  rw [hlatency, if_pos rfl, hlongest, hsum, minimumRatio, hheads]
  norm_num

/-! ### What is left of a layer -/

end Pass

end AttAcc
