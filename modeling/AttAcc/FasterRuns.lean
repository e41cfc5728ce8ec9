import AttAcc.Completion
import AttAcc.FasterGpu
import AttAcc.Overlap

/-!
# Runs on a faster GPU

`simulate` times layer after layer, and then adjusts the times to each other: transfers wait for the
port to be free, the head-level pipeline slows attention down, and `_pipeline` hides stages behind
each other. Some of the times get longer by this when others get shorter. Still, a GPU that takes no
longer for any layer makes no run any longer, in prefill or in decode, whatever the model, the
routing and the accelerator, and it takes the same energy (`System.simulate_faster`).

What is left out are feed-forward layers that run on both devices: the share of the accelerator
depends on whether the GPU is bound by compute or by memory, and a faster GPU may be bound by the
other.
-/

namespace AttAcc

open Library

/-! ## Layers and blocks -/

/-- A layer that takes no more time. -/
structure SimLayer.NoLonger (l l' : SimLayer) : Prop where
  layer : l'.layer = l.layer
  le : l'.execTime ≤ l.execTime

/-- A layer on some devices and on faster ones: what a PIM does takes as long. -/
structure SimLayer.NoSlower (device : RoutingDevice) (l l' : SimLayer) : Prop
    extends l.NoLonger l' where
  energy : l'.energy = l.energy
  nonneg : 0 ≤ l'.execTime
  same : device = .pim → OnAcc device l.layer.toLayerArgs → l'.execTime = l.execTime

/-- Blocks of layers that take no more time. -/
abbrev BlockNoLonger : List SimLayer → List SimLayer → Prop :=
  List.Forall₂ SimLayer.NoLonger

/-- Blocks on some devices and on faster ones. -/
abbrev BlockNoSlower (device : RoutingDevice) : List SimLayer → List SimLayer → Prop :=
  List.Forall₂ (SimLayer.NoSlower device)

/-- The time of some of the layers. -/
def timeWhere (p : Layer → Bool) (block : List SimLayer) : ℚ :=
  ((block.filter fun l => p l.layer).map SimLayer.execTime).sum

theorem timeWhere_cons (p : Layer → Bool) (l : SimLayer) (block : List SimLayer) :
    timeWhere p (l :: block) =
      (if p l.layer = true then l.execTime else 0) + timeWhere p block := by
  rw [timeWhere, timeWhere, List.filter_cons]
  split_ifs
  · rw [List.map_cons, List.sum_cons]
  · rw [zero_add]

theorem timeWhere_append (p : Layer → Bool) (block rest : List SimLayer) :
    timeWhere p (block ++ rest) = timeWhere p block + timeWhere p rest := by
  rw [timeWhere, List.filter_append, List.map_append, List.sum_append]
  rfl

theorem timeWhere_true (block : List SimLayer) :
    timeWhere (fun _ => true) block = (block.map SimLayer.execTime).sum := by
  rw [timeWhere, List.filter_true]

/-- Layers that take no more time each take no more together, whichever are added up. -/
theorem BlockNoLonger.timeWhere_le {block block' : List SimLayer} (h : BlockNoLonger block block')
    (p : Layer → Bool) : timeWhere p block' ≤ timeWhere p block := by
  induction h with
  | nil => exact le_rfl
  | cons hl _ ih =>
    rw [timeWhere_cons, timeWhere_cons, hl.layer]
    split_ifs
    · exact add_le_add hl.le ih
    · exact add_le_add_right ih 0

namespace BlockNoSlower

variable {device : RoutingDevice} {block block' : List SimLayer}

theorem noLonger (h : BlockNoSlower device block block') : BlockNoLonger block block' :=
  h.imp fun _ _ hl => hl.toNoLonger

theorem map_layer (h : BlockNoSlower device block block') :
    block'.map SimLayer.layer = block.map SimLayer.layer :=
  map_eq_map_of_forall₂ h fun hl => hl.layer

theorem nonneg (h : BlockNoSlower device block block') : ∀ l ∈ block', 0 ≤ l.execTime := by
  intro l' hl'
  obtain ⟨l, -, hl⟩ := exists_of_forall₂_right h hl'
  exact hl.nonneg

theorem nonneg_left (h : BlockNoSlower device block block') : ∀ l ∈ block, 0 ≤ l.execTime := by
  intro l hl
  obtain ⟨l', -, hl'⟩ := exists_of_forall₂_right h.flip hl
  exact hl'.nonneg.trans hl'.le

/-- Layers of a PIM take the same time together. -/
theorem timeOf_eq (h : BlockNoSlower .pim block block') {kind : LayerName → Bool}
    (hacc : ∀ l ∈ block, kind l.layer.name = true → OnAcc .pim l.layer.toLayerArgs) :
    timeOf kind block' = timeOf kind block := by
  induction h with
  | nil => rfl
  | cons hl _ ih =>
    obtain ⟨hfirst, hrest⟩ := List.forall_mem_cons.mp hacc
    rw [timeOf_cons, timeOf_cons, hl.layer, ih hrest]
    split_ifs with hkind
    · rw [hl.same rfl (hfirst hkind)]
    · rfl

theorem countP_eq (h : BlockNoSlower device block block') (p : Layer → Bool) :
    (block'.countP fun l => p l.layer) = block.countP fun l => p l.layer := by
  have hcount : ∀ ls : List SimLayer, (ls.countP fun l => p l.layer) =
      (ls.map SimLayer.layer).countP p := by
    intro ls
    rw [List.countP_map]
    rfl
  rw [hcount, hcount, h.map_layer]

/-- They take the same energy. -/
theorem accumulate_eq (h : BlockNoSlower device block block') (acc : GenEnergies) :
    block'.foldl GenEnergies.accumulate acc = block.foldl GenEnergies.accumulate acc := by
  induction h generalizing acc with
  | nil => rfl
  | cons hl _ ih =>
    rw [List.foldl_cons, List.foldl_cons, ← ih, GenEnergies.accumulate, GenEnergies.accumulate,
      hl.layer, hl.energy]

end BlockNoSlower

/-! ## The pipeline -/

section Pipeline

variable {device : RoutingDevice} {block block' : List SimLayer}

/-- The longest stage, and the exposed share of the others, are no more for stages that are no
longer. -/
theorem exposed_le {r longest longest' total total' : ℚ} (hr0 : 0 ≤ r) (hr1 : r ≤ 1)
    (hlongest : longest' ≤ longest) (htotal : total' ≤ total) :
    longest' + r * (total' - longest') ≤ longest + r * (total - longest) := by
  have hshare := mul_le_mul_of_nonneg_left htotal hr0
  have hrest := mul_le_mul_of_nonneg_left hlongest (sub_nonneg.mpr hr1)
  linarith

/-- What is left of the projections and transfers, together, is no more for projections that take
no longer. -/
theorem sum_pipelineTimes_le {r : ℚ} (hr0 : 0 ≤ r) (hr1 : r ≤ 1) (attn : ℚ) (level : Bool)
    {start start' : PipelineTimes} (hx2g : start'.x2gTime = start.x2gTime)
    (hfc : start'.qkvTime + start'.prjTime ≤ start.qkvTime + start.prjTime) :
    (pipelineTimes r attn level start').qkvTime + (pipelineTimes r attn level start').prjTime +
        (pipelineTimes r attn level start').x2gTime ≤
      (pipelineTimes r attn level start).qkvTime + (pipelineTimes r attn level start).prjTime +
        (pipelineTimes r attn level start).x2gTime := by
  cases level with
  | false =>
    have hsum := @sum_pipelineTimes_false r attn start
    have hsum' := @sum_pipelineTimes_false r attn start'
    rw [hx2g] at hsum'
    linarith
  | true =>
    have hsum := @sum_pipelineTimes_true r attn start
    have hsum' := @sum_pipelineTimes_true r attn start'
    rw [hx2g] at hsum'
    have hle := exposed_le hr0 hr1
      (max_le_max_left attn (max_le_max_right start.x2gTime hfc))
      (add_le_add_left (add_le_add_right hfc attn) start.x2gTime)
    linarith

/-- Unless stages hide behind each other, transfers hide behind attention, and nothing else does. -/
theorem x2gTime_pipelineTimes_false {r attn : ℚ} {start start' : PipelineTimes}
    (hx2g : start'.x2gTime = start.x2gTime) :
    (pipelineTimes r attn false start').x2gTime = (pipelineTimes r attn false start).x2gTime := by
  obtain ⟨qkvTime, prjTime, x2gTime⟩ := start
  obtain rfl : start'.x2gTime = x2gTime := hx2g
  rfl

/-- The layers that `_pipeline` leaves as they are. -/
def LayerName.isKept (n : LayerName) : Bool :=
  !(decide (n = .score) || decide (n = .context) || decide (n = .qkv) || decide (n = .proj) ||
    n.startsWithCommX2g || decide (n = .softmax))

/-- A block is its stages, the softmax and the layers that are kept. -/
theorem sum_execTime_stages (block : List SimLayer) : (block.map SimLayer.execTime).sum =
    stagesTime block + timeOf (· = .softmax) block + timeOf LayerName.isKept block := by
  induction block with
  | nil => simp [stagesTime, attentionTime, fcTime, x2gTime]
  | cons l block ih =>
    have hone : ∀ n : LayerName, ∀ time : ℚ,
        time = (if decide (n = .score) = true then time else 0) +
          (if decide (n = .context) = true then time else 0) +
          ((if decide (n = .qkv) = true then time else 0) +
          (if decide (n = .proj) = true then time else 0)) +
          (if n.startsWithCommX2g = true then time else 0) +
          (if decide (n = .softmax) = true then time else 0) +
          (if n.isKept = true then time else 0) := by
      intro n time
      cases n <;> simp [LayerName.startsWithCommX2g, LayerName.isKept]
    have hl := hone l.layer.name l.execTime
    rw [List.map_cons, List.sum_cons, ih, stagesTime, stagesTime, attentionTime, attentionTime,
      fcTime, fcTime, x2gTime, x2gTime]
    simp only [timeOf_cons]
    linarith

/-- The stages of a PIM in a decode block are timed on it. -/
theorem IsDecodeBlock.onAcc {t : Transformer} (h : IsDecodeBlock t true block) : ∀ l ∈ block,
    l.layer.name = .score ∨ l.layer.name = .context ∨ l.layer.name = .softmax ∨
      l.layer.name.startsWithCommX2g = true → OnAcc .pim l.layer.toLayerArgs := by
  obtain ⟨batch, lin, stage, hbuild⟩ := h
  obtain ⟨-, s, hargs⟩ := Transformer.buildGenStage_eq_ok.mp hbuild
  have hall : ∀ a ∈ Transformer.genBlock s batch lin stage true,
      a.name = .score ∨ a.name = .context ∨ a.name = .softmax ∨ a.name.startsWithCommX2g = true →
        OnAcc .pim a := by
    rcases hffn : t.ffnType with _ | _ <;> rcases hact : t.activation with _ | _ | _ | _ <;>
      simp [Transformer.genBlock, Transformer.genAttnArgs, Transformer.finishArgs,
        Transformer.projArgs, Transformer.ffnArgs, Transformer.closeArgs, hffn,
        Transformer.activationName, hact, LayerName.startsWithCommX2g, OnAcc]
  intro l hl
  have hmem : l.layer.toLayerArgs ∈ Transformer.genBlock s batch lin stage true := by
    rw [← hargs]
    exact List.mem_map_of_mem (List.mem_map_of_mem hl)
  exact hall _ hmem

/-- Two blocks after a pass: the one on the faster devices takes no more time, and neither do any
of its layers unless stages hide behind each other. -/
structure Hidden (level : Bool) (block block' : List SimLayer) : Prop where
  sum : (block'.map SimLayer.execTime).sum ≤ (block.map SimLayer.execTime).sum
  each : level = false → BlockNoLonger block block'

theorem BlockNoLonger.hidden (h : BlockNoLonger block block') (level : Bool) :
    Hidden level block block' := by
  refine ⟨?_, fun _ => h⟩
  rw [← timeWhere_true, ← timeWhere_true]
  exact h.timeWhere_le _

theorem BlockNoLonger.timeOf_le (h : BlockNoLonger block block') (kind : LayerName → Bool) :
    timeOf kind block' ≤ timeOf kind block :=
  h.timeWhere_le fun layer => kind layer.name

namespace BlockNoSlower

variable {t : Transformer}

theorem attentionTime_eq (h : BlockNoSlower .pim block block')
    (hdecode : IsDecodeBlock t true block) : attentionTime block' = attentionTime block := by
  rw [attentionTime, attentionTime,
    h.timeOf_eq fun l hl hname => hdecode.onAcc l hl (.inl (of_decide_eq_true hname)),
    h.timeOf_eq fun l hl hname => hdecode.onAcc l hl (.inr (.inl (of_decide_eq_true hname)))]

theorem attnTime_eq (h : BlockNoSlower .pim block block') (hdecode : IsDecodeBlock t true block) :
    attnTime block' = attnTime block := by
  rw [attnTime, attnTime, h.attentionTime_eq hdecode,
    h.timeOf_eq fun l hl hname => hdecode.onAcc l hl (.inr (.inr (.inl (of_decide_eq_true hname))))]

theorem x2gTime_eq (h : BlockNoSlower .pim block block') (hdecode : IsDecodeBlock t true block) :
    x2gTime block' = x2gTime block :=
  h.timeOf_eq fun l hl hname => hdecode.onAcc l hl (.inr (.inr (.inr hname)))

end BlockNoSlower

/-- A decode block after `_pipeline`: the softmax hides completely, and layers that are kept do not
hide at all. -/
theorem sum_withTimes_pipelineTime {t : Transformer} (numKvHeads numXpu : ℕ) (level : Bool)
    (hdecode : IsDecodeBlock t true block) (hnonneg : ∀ l ∈ block, 0 ≤ l.execTime) :
    ((withTimes (pipelineTime (endTimes numKvHeads numXpu level block)
      (block.countP fun l => l.layer.name.startsWithCommX2g)) block).map SimLayer.execTime).sum =
      attentionTime block + ((endTimes numKvHeads numXpu level block).qkvTime +
        (endTimes numKvHeads numXpu level block).prjTime) +
        (endTimes numKvHeads numXpu level block).x2gTime + timeOf LayerName.isKept block := by
  have hsoftmax : timeOf (· = .softmax) (withTimes (pipelineTime
      (endTimes numKvHeads numXpu level block)
      (block.countP fun l => l.layer.name.startsWithCommX2g)) block) = 0 := by
    refine timeOf_eq_zero ?_
    intro l' hl' hname
    obtain ⟨l, hl, rfl⟩ := List.mem_map.mp hl'
    have hname : l.layer.name = .softmax := of_decide_eq_true hname
    simp [pipelineTime, hname, LayerName.startsWithCommX2g]
  rw [sum_execTime_stages, stagesTime_withTimes numKvHeads numXpu level hdecode hnonneg, hsoftmax,
    timeOf_withTimes_of_same, add_zero]
  intro l _ hkept
  cases hname : l.layer.name <;> simp [pipelineTime, hname, LayerName.isKept,
    LayerName.startsWithCommX2g] at hkept ⊢

/-- **`_pipeline` keeps a faster block faster.** -/
theorem hidden_pipeline {t : Transformer} {numKvHeads numXpu : ℕ} {level : Bool}
    {out out' : List SimLayer} (hxpu : 0 < numXpu) (hdecode : IsDecodeBlock t true block)
    (h : BlockNoSlower .pim block block') (hout : pipeline numKvHeads numXpu level block = .ok out)
    (hout' : pipeline numKvHeads numXpu level block' = .ok out') : Hidden level out out' := by
  obtain rfl := Except.ok.inj ((pipeline_of_pos hxpu).symm.trans hout)
  obtain rfl := Except.ok.inj ((pipeline_of_pos hxpu).symm.trans hout')
  have hdecode' : IsDecodeBlock t true block' := by
    obtain ⟨batch, lin, stage, hbuild⟩ := hdecode
    exact ⟨batch, lin, stage, by rw [h.map_layer, hbuild]⟩
  have hkind := h.noLonger.timeOf_le
  have hx2g : (startTimes block').x2gTime = (startTimes block).x2gTime := h.x2gTime_eq hdecode
  refine ⟨?_, ?_⟩
  · rw [sum_withTimes_pipelineTime numKvHeads numXpu level hdecode' h.nonneg,
      sum_withTimes_pipelineTime numKvHeads numXpu level hdecode h.nonneg_left,
      h.attentionTime_eq hdecode, endTimes, endTimes, h.attnTime_eq hdecode]
    have hfc : (startTimes block').qkvTime + (startTimes block').prjTime ≤
        (startTimes block).qkvTime + (startTimes block).prjTime := add_le_add (hkind _) (hkind _)
    have hstages := sum_pipelineTimes_le (minimumRatio_pos numKvHeads numXpu).le
      (minimumRatio_le_one numKvHeads numXpu) (attnTime block) level hx2g hfc
    have hkept := hkind LayerName.isKept
    linarith
  · rintro rfl
    have hends : (endTimes numKvHeads numXpu false block').x2gTime =
        (endTimes numKvHeads numXpu false block).x2gTime := by
      rw [endTimes, endTimes, h.attnTime_eq hdecode]
      exact x2gTime_pipelineTimes_false hx2g
    have hcount := h.countP_eq fun layer => layer.name.startsWithCommX2g
    rw [hcount]
    refine List.forall₂_map_left_iff.mpr (List.forall₂_map_right_iff.mpr (h.imp ?_))
    intro l l' hl
    refine ⟨hl.layer, ?_⟩
    show pipelineTime _ _ l' ≤ pipelineTime _ _ l
    rw [pipelineTime, pipelineTime, hl.layer, hends]
    split_ifs
    · exact hkind _
    · exact hkind _
    · exact le_rfl
    · exact le_rfl
    · exact hl.le

/-! ## The passes -/

/-- Two devices of which the second takes no more time for a layer, and the same energy. -/
def TakesNoLonger (time time' : Layer → Except PyError Outcome) : Prop :=
  ∀ {l o o'}, time l = .ok o → time' l = .ok o' → o'.execTime ≤ o.execTime ∧ o'.energy = o.energy

/-- The same system with devices that take no longer. -/
structure Platform.Faster (sys sys' : Platform) : Prop where
  prefillChunkSize : sys'.prefillChunkSize = sys.prefillChunkSize
  prefillSampleCount : sys'.prefillSampleCount = sys.prefillSampleCount
  numXpu : sys'.gpu.numXpu = sys.gpu.numXpu
  numXpu_pos : 0 < sys.gpu.numXpu
  numHbm : sys'.acc.numHbm = sys.acc.numHbm
  numHbm_pos : 0 < sys.acc.numHbm
  gpu : TakesNoLonger sys.gpu.getTimeAndEnergy sys'.gpu.getTimeAndEnergy
  acc : TakesNoLonger sys.acc.getTimeAndEnergy sys'.acc.getTimeAndEnergy
  nonneg : sys.Nonneg
  nonneg' : sys'.Nonneg

namespace Platform

variable {sys sys' : Platform} {t : Transformer} {args : PassArgs} {bs : ℕ}
  {device : RoutingDevice}

/-- **The write port is never busy**: a transfer begins after the one before it has ended, so no
transfer waits. -/
theorem simulateSumLayers_eq_mapM (hsys : sys.Nonneg) {time wrtIoBusy : ℚ}
    (hbusy : wrtIoBusy ≤ time) (ls : List SimLayer) :
    sys.simulateSumLayers device time wrtIoBusy ls = ls.mapM fun l => do
      let outcome ← sys.timeSum device l.layer
      return l.assign outcome := by
  induction ls generalizing time wrtIoBusy with
  | nil => rfl
  | cons l ls ih =>
    rw [simulateSumLayers, List.mapM_cons]
    cases houtcome : sys.timeSum device l.layer with
    | error e => rfl
    | ok outcome =>
      have hnonneg := timeSum_nonneg hsys houtcome
      have hwait : max (wrtIoBusy - time) 0 = 0 := max_eq_right (sub_nonpos.mpr hbusy)
      have hlater : wrtIoBusy ≤ time + outcome.execTime :=
        hbusy.trans (le_add_of_nonneg_right hnonneg)
      by_cases htype : l.layer.type = .X2G
      · simp only [htype, if_true, hwait, add_zero, bind, Except.bind, ih le_rfl]
        rfl
      · simp only [htype, if_false, bind, Except.bind, ih hlater]
        rfl

/-- A layer that is sent to the same device, or to a faster one. -/
theorem timeOn_noSlower (h : sys.Faster sys') (hpim : device = .pim → sys'.acc = sys.acc)
    {l : SimLayer} {o o' : Outcome} (ho : sys.timeOn device l.layer = .ok o)
    (ho' : sys'.timeOn device l.layer = .ok o') :
    (l.assign o).NoSlower device (l.assign o') := by
  have hnonneg' := timeOn_nonneg h.nonneg' ho'
  by_cases hon : OnAcc device l.layer.toLayerArgs
  · have ho : sys.acc.getTimeAndEnergy l.layer = .ok o := (if_pos hon).symm.trans ho
    have ho' : sys'.acc.getTimeAndEnergy l.layer = .ok o' := (if_pos hon).symm.trans ho'
    obtain ⟨hle, henergy⟩ := h.acc ho ho'
    refine ⟨⟨rfl, hle⟩, henergy, hnonneg', ?_⟩
    intro hdevice _
    rw [hpim hdevice, ho] at ho'
    rw [Except.ok.inj ho']
  · have ho : sys.gpu.getTimeAndEnergy l.layer = .ok o := (if_neg hon).symm.trans ho
    have ho' : sys'.gpu.getTimeAndEnergy l.layer = .ok o' := (if_neg hon).symm.trans ho'
    obtain ⟨hle, henergy⟩ := h.gpu ho ho'
    exact ⟨⟨rfl, hle⟩, henergy, hnonneg', fun _ h => absurd h hon⟩

theorem timeSum_noSlower (h : sys.Faster sys') (hpim : device = .pim → sys'.acc = sys.acc)
    {l : SimLayer} {o o' : Outcome} (ho : sys.timeSum device l.layer = .ok o)
    (ho' : sys'.timeSum device l.layer = .ok o') :
    (l.assign o).NoSlower device (l.assign o') := by
  have hnonneg' := timeSum_nonneg h.nonneg' ho'
  rw [timeSum] at ho ho'
  by_cases hchunked : device = .pim ∧ l.layer.name = .score
  · rw [if_pos hchunked] at ho ho'
    rw [hpim hchunked.1, h.prefillChunkSize, h.prefillSampleCount, ho] at ho'
    obtain rfl := Except.ok.inj ho'
    exact ⟨⟨rfl, le_rfl⟩, rfl, hnonneg', fun _ _ => rfl⟩
  · rw [if_neg hchunked] at ho ho'
    exact timeOn_noSlower h hpim ho ho'

/-- Blocks that are timed layer by layer. -/
theorem blockNoSlower_mapM {time time' : SimLayer → Except PyError Outcome}
    (hassign : ∀ {l o o'}, time l = .ok o → time' l = .ok o' →
      (l.assign o).NoSlower device (l.assign o')) {ls timed timed' : List SimLayer}
    (htimed : (ls.mapM fun l => do
      let outcome ← time l
      return l.assign outcome) = .ok timed)
    (htimed' : (ls.mapM fun l => do
      let outcome ← time' l
      return l.assign outcome) = .ok timed') : BlockNoSlower device timed timed' := by
  have hboth := mapM_ok_iff.mp htimed
  clear htimed
  induction hboth generalizing timed' with
  | nil =>
    obtain rfl := Except.ok.inj htimed'
    exact .nil
  | cons hl _ ih =>
    obtain ⟨l', rest', hl', hrest', rfl⟩ :=
      List.forall₂_cons_left_iff.mp (mapM_ok_iff.mp htimed')
    obtain ⟨o, ho, hl⟩ := bind_ok_iff.mp hl
    obtain ⟨o', ho', hl'⟩ := bind_ok_iff.mp hl'
    obtain rfl := Except.ok.inj hl
    obtain rfl := Except.ok.inj hl'
    exact .cons (hassign ho ho') (ih (mapM_ok_iff.mpr hrest'))

theorem simulateSumLayers_noSlower (h : sys.Faster sys') (hpim : device = .pim → sys'.acc = sys.acc)
    {ls timed timed' : List SimLayer} (htimed : sys.simulateSumLayers device 0 0 ls = .ok timed)
    (htimed' : sys'.simulateSumLayers device 0 0 ls = .ok timed') :
    BlockNoSlower device timed timed' := by
  rw [simulateSumLayers_eq_mapM h.nonneg le_rfl] at htimed
  rw [simulateSumLayers_eq_mapM h.nonneg' le_rfl] at htimed'
  exact blockNoSlower_mapM (timeSum_noSlower h hpim) htimed htimed'

theorem timeGenBlock_noSlower (h : sys.Faster sys') (hpim : device = .pim → sys'.acc = sys.acc)
    {block timed timed' : List SimLayer} (htimed : sys.timeGenBlock device block = .ok timed)
    (htimed' : sys'.timeGenBlock device block = .ok timed') : BlockNoSlower device timed timed' :=
  blockNoSlower_mapM (timeOn_noSlower h hpim) htimed htimed'

/-- `_apply_eff_lat` takes its efficiency from the layers, whatever their times. -/
theorem exists_applyEffLat_map {numHbm : ℕ} (hhbm : 0 < numHbm) (batchSize : ℕ)
    (device : RoutingDevice) (layers : List Layer) : ∃ eff, 0 < eff ∧
      ∀ block : List SimLayer, block.map SimLayer.layer = layers →
        applyEffLat numHbm batchSize device block =
          .ok (block.map (SimLayer.slowedBy eff device)) := by
  by_cases hdevice : device = .pim
  · have hfind : ∀ block : List SimLayer, block.map SimLayer.layer = layers →
        (block.find? fun l => decide (l.layer.name = .score)).map SimLayer.layer =
          layers.find? fun l => decide (l.name = .score) := by
      rintro block rfl
      rw [List.find?_map]
      rfl
    cases hscore : layers.find? fun l => decide (l.name = .score) with
    | none =>
      refine ⟨1, one_pos, ?_⟩
      intro block hblock
      have hnone := Option.map_eq_none_iff.mp ((hfind block hblock).trans hscore)
      rw [applyEffLat, if_neg (not_not.mpr hdevice), hnone, map_slowedBy_one]
    | some score =>
      obtain ⟨eff, heff, hpos, -⟩ := exists_efficiency hhbm score.pimNumOp batchSize
        (by norm_num : (0 : ℚ) ≤ 2 / 5)
      refine ⟨eff, hpos, ?_⟩
      intro block hblock
      obtain ⟨scoreLayer, hsome, rfl⟩ :=
        Option.map_eq_some_iff.mp ((hfind block hblock).trans hscore)
      rw [applyEffLat, if_neg (not_not.mpr hdevice), hsome]
      refine bind_ok_iff.mpr ⟨eff, heff, mapM_ok_iff.mpr ?_⟩
      rw [List.forall₂_map_right_iff, List.forall₂_same]
      intro l _
      rw [SimLayer.slowedBy]
      simp only [hdevice, true_and]
      split_ifs
      · exact bind_ok_iff.mpr ⟨_, fdiv_of_pos _ hpos, rfl⟩
      · rfl
  · refine ⟨1, one_pos, ?_⟩
    intro block _
    rw [applyEffLat, if_pos hdevice, map_slowedBy_one]

/-- Slowing attention down keeps a faster block faster. -/
theorem applyEffLat_noSlower {numHbm batchSize : ℕ} (hhbm : 0 < numHbm)
    {block block' out out' : List SimLayer} (h : BlockNoSlower device block block')
    (hout : applyEffLat numHbm batchSize device block = .ok out)
    (hout' : applyEffLat numHbm batchSize device block' = .ok out') :
    BlockNoSlower device out out' := by
  obtain ⟨eff, hpos, hall⟩ :=
    exists_applyEffLat_map hhbm batchSize device (block.map SimLayer.layer)
  obtain rfl := Except.ok.inj ((hall block rfl).symm.trans hout)
  obtain rfl := Except.ok.inj ((hall block' h.map_layer).symm.trans hout')
  refine List.forall₂_map_left_iff.mpr (List.forall₂_map_right_iff.mpr (h.imp ?_))
  intro l l' hl
  rw [SimLayer.slowedBy, SimLayer.slowedBy, hl.layer]
  split_ifs
  · refine ⟨⟨rfl, div_le_div_of_nonneg_right hl.le hpos.le⟩, hl.energy,
      div_nonneg hl.nonneg hpos.le, ?_⟩
    intro hdevice hon
    exact congrArg (· / eff) (hl.same hdevice hon)
  · exact hl

theorem simulateSumGroup_noSlower (h : sys.Faster sys') (hpim : device = .pim → sys'.acc = sys.acc)
    {ls out out' : List SimLayer} {flops flops' : ℕ}
    (hout : sys.simulateSumGroup args device ls = .ok (out, flops))
    (hout' : sys'.simulateSumGroup args device ls = .ok (out', flops')) :
    BlockNoLonger out out' := by
  obtain ⟨timed, htimed, hout⟩ := bind_ok_iff.mp hout
  obtain ⟨timed', htimed', hout'⟩ := bind_ok_iff.mp hout'
  obtain ⟨adjusted, hadjusted, hout⟩ := bind_ok_iff.mp hout
  obtain ⟨adjusted', hadjusted', hout'⟩ := bind_ok_iff.mp hout'
  obtain ⟨rfl, -⟩ := Prod.mk.inj (Except.ok.inj hout)
  obtain ⟨rfl, -⟩ := Prod.mk.inj (Except.ok.inj hout')
  rw [h.numHbm] at hadjusted'
  exact (applyEffLat_noSlower h.numHbm_pos (simulateSumLayers_noSlower h hpim htimed htimed')
    hadjusted hadjusted').noLonger

/-- **The passes over a decode block keep a faster block faster**, if no layer runs on both
devices. -/
theorem hidden_adjustGenBlock (h : sys.Faster sys') (hff : args.parallelFf = false)
    {timed timed' out out' : List SimLayer} (hdecode : device = .pim → IsDecodeBlock t true timed)
    (htimed : BlockNoSlower device timed timed')
    (hout : sys.adjustGenBlock t args bs device timed = .ok out)
    (hout' : sys'.adjustGenBlock t args bs device timed' = .ok out') :
    Hidden args.pipe out out' := by
  rw [adjustGenBlock] at hout hout'
  by_cases hdevice : device = .pim
  · subst hdevice
    simp only [if_true, hff, Bool.false_eq_true, if_false] at hout hout'
    obtain ⟨slowed, hslowed, hout⟩ := bind_ok_iff.mp hout
    obtain ⟨slowed', hslowed', hout'⟩ := bind_ok_iff.mp hout'
    obtain ⟨piped, hpiped, hout⟩ := bind_ok_iff.mp hout
    obtain ⟨piped', hpiped', hout'⟩ := bind_ok_iff.mp hout'
    obtain rfl := Except.ok.inj hout
    obtain rfl := Except.ok.inj hout'
    rw [h.numHbm] at hslowed'
    rw [h.numXpu] at hpiped'
    have hslowedDecode : IsDecodeBlock t true slowed := by
      obtain ⟨batch, lin, stage, hbuild⟩ := hdecode rfl
      exact ⟨batch, lin, stage, by rw [(applyEffLat_sameButTime hslowed).map_layer, hbuild]⟩
    exact hidden_pipeline h.numXpu_pos hslowedDecode
      (applyEffLat_noSlower h.numHbm_pos htimed hslowed hslowed') hpiped hpiped'
  · rw [if_neg hdevice] at hout hout'
    obtain rfl := Except.ok.inj hout
    obtain rfl := Except.ok.inj hout'
    exact htimed.noLonger.hidden args.pipe

/-- The decode blocks of a group, one after the other, and what they take in energy. -/
theorem simulateGenBlocks_noSlower (h : sys.Faster sys')
    (hpim : device = .pim → sys'.acc = sys.acc) (hff : args.parallelFf = false)
    {blocks : List (List SimLayer)}
    (hdecode : device = .pim → ∀ block ∈ blocks, IsDecodeBlock t true block)
    {acc : GenEnergies} {out out' : List (List SimLayer)} {energies energies' : GenEnergies}
    (hout : sys.simulateGenBlocks t args bs device acc blocks = .ok (out, energies))
    (hout' : sys'.simulateGenBlocks t args bs device acc blocks = .ok (out', energies')) :
    List.Forall₂ (Hidden args.pipe) out out' ∧ energies' = energies := by
  induction blocks generalizing acc out out' with
  | nil =>
    obtain ⟨rfl, rfl⟩ := Prod.mk.inj (Except.ok.inj hout)
    obtain ⟨rfl, rfl⟩ := Prod.mk.inj (Except.ok.inj hout')
    exact ⟨.nil, rfl⟩
  | cons block blocks ih =>
    obtain ⟨⟨first, acc₁⟩, hfirst, hout⟩ := bind_ok_iff.mp hout
    obtain ⟨⟨first', acc₁'⟩, hfirst', hout'⟩ := bind_ok_iff.mp hout'
    obtain ⟨⟨rest, acc₂⟩, hrest, hout⟩ := bind_ok_iff.mp hout
    obtain ⟨⟨rest', acc₂'⟩, hrest', hout'⟩ := bind_ok_iff.mp hout'
    obtain ⟨rfl, rfl⟩ := Prod.mk.inj (Except.ok.inj hout)
    obtain ⟨rfl, rfl⟩ := Prod.mk.inj (Except.ok.inj hout')
    obtain ⟨timed, htimed, hfirst⟩ := bind_ok_iff.mp hfirst
    obtain ⟨timed', htimed', hfirst'⟩ := bind_ok_iff.mp hfirst'
    obtain ⟨adjusted, hadjusted, hfirst⟩ := bind_ok_iff.mp hfirst
    obtain ⟨adjusted', hadjusted', hfirst'⟩ := bind_ok_iff.mp hfirst'
    obtain ⟨rfl, rfl⟩ := Prod.mk.inj (Except.ok.inj hfirst)
    obtain ⟨rfl, rfl⟩ := Prod.mk.inj (Except.ok.inj hfirst')
    have hblock := timeGenBlock_noSlower h hpim htimed htimed'
    have htimedDecode : device = .pim → IsDecodeBlock t true timed := by
      intro hdevice
      obtain ⟨batch, lin, stage, hbuild⟩ := hdecode hdevice block List.mem_cons_self
      exact ⟨batch, lin, stage, by rw [map_layer_timeGenBlock htimed, hbuild]⟩
    rw [hblock.accumulate_eq] at hrest'
    obtain ⟨hblocks, henergies⟩ := ih
      (fun hdevice block hmem => hdecode hdevice block (List.mem_cons_of_mem _ hmem)) hrest hrest'
    exact ⟨.cons (hidden_adjustGenBlock h hff htimedDecode hblock hadjusted hadjusted') hblocks,
      henergies⟩

end Platform

end Pipeline

/-! ## What is reported -/

theorem collectGPerf_eq (gDecoder : List (List SimLayer)) (key : GPerfKey) :
    collectGPerf gDecoder key =
      (gDecoder.map (timeWhere fun l => decide (key ∈ gPerfKeys l))).sum := by
  induction gDecoder with
  | nil => rfl
  | cons block blocks ih =>
    rw [List.map_cons, List.sum_cons, ← ih]
    exact timeWhere_append (fun l => decide (key ∈ gPerfKeys l)) block blocks.flatten

/-- Two reports of which the second has no longer times: all of them where no stages hide behind
each other, and in any case those of prefill and that of a whole decode step. -/
structure Totals.NoLonger (level : Bool) (r r' : Totals) : Prop where
  sPerf : ∀ key, r'.sPerf key ≤ r.sPerf key
  gPerf_all : r'.gPerf .all ≤ r.gPerf .all
  gPerf : level = false → ∀ key, r'.gPerf key ≤ r.gPerf key
  energy : r'.energy = r.energy

namespace Totals.NoLonger

variable {level : Bool} {r r' s s' : Totals}

theorem refl (level : Bool) (r : Totals) : NoLonger level r r :=
  ⟨fun _ => le_rfl, le_rfl, fun _ _ => le_rfl, rfl⟩

theorem add (h : NoLonger level r r') (hs : NoLonger level s s') :
    NoLonger level (r + s) (r' + s') where
  sPerf key := add_le_add (h.sPerf key) (hs.sPerf key)
  gPerf_all := add_le_add h.gPerf_all hs.gPerf_all
  gPerf hlevel key := add_le_add (h.gPerf hlevel key) (hs.gPerf hlevel key)
  energy := congrArg₂ (· + ·) h.energy hs.energy

theorem nsmul (h : NoLonger level r r') (count : ℕ) :
    NoLonger level (count • r) (count • r') := by
  induction count with
  | zero =>
    rw [zero_nsmul, zero_nsmul]
    exact .refl level 0
  | succ count ih =>
    rw [succ_nsmul, succ_nsmul]
    exact ih.add h

theorem sum {α : Type} {as : List α} {f f' : α → Totals}
    (h : ∀ a ∈ as, NoLonger level (f a) (f' a)) :
    NoLonger level (as.map f).sum (as.map f').sum := by
  induction as with
  | nil => exact .refl level 0
  | cons a as ih =>
    obtain ⟨ha, has⟩ := List.forall_mem_cons.mp h
    rw [List.map_cons, List.map_cons, List.sum_cons, List.sum_cons]
    exact ha.add (ih has)

end Totals.NoLonger

/-- The decode times of blocks that are no longer. -/
theorem collectGPerf_le {level : Bool} {out out' : List (List SimLayer)}
    (h : List.Forall₂ (Hidden level) out out') :
    collectGPerf out' .all ≤ collectGPerf out .all ∧
      (level = false → ∀ key, collectGPerf out' key ≤ collectGPerf out key) := by
  refine ⟨?_, ?_⟩
  · rw [Platform.collectGPerf_all, Platform.collectGPerf_all]
    induction h with
    | nil => exact le_rfl
    | cons hblock _ ih => exact add_le_add hblock.sum ih
  · intro hlevel key
    rw [collectGPerf_eq, collectGPerf_eq]
    induction h with
    | nil => exact le_rfl
    | cons hblock _ ih => exact add_le_add ((hblock.each hlevel).timeWhere_le _) ih

namespace Platform

variable {sys sys' : Platform} {t : Transformer} {args : PassArgs} {bs : ℕ}

/-- The passes over a group. -/
theorem groupTotals_noLonger (h : sys.Faster sys') (hff : args.parallelFf = false) {g : SimGroup}
    (hpim : g.device = .pim → sys'.acc = sys.acc)
    (hdecode : g.device = .pim → ∀ block ∈ g.genDecoder, IsDecodeBlock t true block)
    {r r' : Totals} (hr : sys.groupTotals t args bs g = .ok r)
    (hr' : sys'.groupTotals t args bs g = .ok r') : r.NoLonger args.pipe r' := by
  obtain ⟨out, hr⟩ := groupTotals_eq_ok.mp hr
  obtain ⟨out', hr'⟩ := groupTotals_eq_ok.mp hr'
  obtain ⟨⟨sDecoder, sFlops⟩, hsum, hr⟩ := bind_ok_iff.mp hr
  obtain ⟨⟨sDecoder', sFlops'⟩, hsum', hr'⟩ := bind_ok_iff.mp hr'
  obtain ⟨⟨gDecoder, gFlops, energies⟩, hgen, hr⟩ := bind_ok_iff.mp hr
  obtain ⟨⟨gDecoder', gFlops', energies'⟩, hgen', hr'⟩ := bind_ok_iff.mp hr'
  obtain ⟨-, rfl⟩ := Prod.mk.inj (Except.ok.inj hr)
  obtain ⟨-, rfl⟩ := Prod.mk.inj (Except.ok.inj hr')
  obtain ⟨⟨blocks, acc⟩, hblocks, hgen⟩ := bind_ok_iff.mp hgen
  obtain ⟨⟨blocks', acc'⟩, hblocks', hgen'⟩ := bind_ok_iff.mp hgen'
  obtain ⟨rfl, hrest⟩ := Prod.mk.inj (Except.ok.inj hgen)
  obtain ⟨-, rfl⟩ := Prod.mk.inj hrest
  obtain ⟨rfl, hrest'⟩ := Prod.mk.inj (Except.ok.inj hgen')
  obtain ⟨-, rfl⟩ := Prod.mk.inj hrest'
  obtain ⟨hhidden, henergies⟩ := simulateGenBlocks_noSlower h hpim hff hdecode hblocks hblocks'
  have htimes := simulateSumGroup_noSlower h hpim hsum hsum'
  obtain ⟨hall, heach⟩ := collectGPerf_le hhidden
  have hsteps : (0 : ℚ) ≤ args.genSteps := Nat.cast_nonneg _
  exact {
    sPerf := fun key => htimes.timeWhere_le fun l => decide (key ∈ sPerfKeys l)
    gPerf_all := div_le_div_of_nonneg_right hall hsteps
    gPerf := fun hlevel key => div_le_div_of_nonneg_right (heach hlevel key) hsteps
    energy := by rw [henergies] }

/-- The vision pass runs on the GPU. -/
theorem visionTotals_noLonger (h : sys.Faster sys') {vision : List SimLayer} {r r' : Totals}
    (hr : sys.visionTotals t args vision = .ok r)
    (hr' : sys'.visionTotals t args vision = .ok r') : r.NoLonger args.pipe r' := by
  obtain ⟨out, hr⟩ := visionTotals_eq_ok.mp hr
  obtain ⟨out', hr'⟩ := visionTotals_eq_ok.mp hr'
  rw [simulateVision] at hr hr'
  split_ifs at hr hr' with hempty
  · obtain ⟨-, rfl⟩ := Prod.mk.inj (Except.ok.inj hr)
    obtain ⟨-, rfl⟩ := Prod.mk.inj (Except.ok.inj hr')
    exact .refl args.pipe 0
  · obtain ⟨⟨timed, flops⟩, hsum, hr⟩ := bind_ok_iff.mp hr
    obtain ⟨⟨timed', flops'⟩, hsum', hr'⟩ := bind_ok_iff.mp hr'
    obtain ⟨-, rfl⟩ := Prod.mk.inj (Except.ok.inj hr)
    obtain ⟨-, rfl⟩ := Prod.mk.inj (Except.ok.inj hr')
    have hgpu : RoutingDevice.gpu = .pim → sys'.acc = sys.acc := fun hdevice => by cases hdevice
    have htimes := simulateSumGroup_noSlower h hgpu hsum hsum'
    refine ⟨?_, le_rfl, fun _ _ => le_rfl, rfl⟩
    intro key
    exact add_le_add_left (htimes.timeWhere_le fun l => decide (key ∈ sPerfKeys l)) _

/-- An iteration. -/
theorem batchTotals_noLonger (h : sys.Faster sys') (hff : args.parallelFf = false)
    {graph : SimGraph} (hpim : ∀ g ∈ graph.groups, g.device = .pim → sys'.acc = sys.acc)
    (hdecode : ∀ g ∈ graph.groups, g.device = .pim →
      ∀ block ∈ g.genDecoder, IsDecodeBlock t true block) {r r' : Totals}
    (hr : sys.batchTotals t args bs graph = .ok r)
    (hr' : sys'.batchTotals t args bs graph = .ok r') : r.NoLonger args.pipe r' := by
  obtain ⟨vision, hvision, hgroups, rfl⟩ := batchTotals_eq_ok.mp hr
  obtain ⟨vision', hvision', hgroups', rfl⟩ := batchTotals_eq_ok.mp hr'
  refine (visionTotals_noLonger h hvision hvision').add (.sum ?_)
  intro g hg
  obtain ⟨total, htotal⟩ := hgroups g hg
  obtain ⟨total', htotal'⟩ := hgroups' g hg
  rw [htotal, htotal', valueOf_ok, valueOf_ok]
  exact (groupTotals_noLonger h hff (hpim g hg) (hdecode g hg) htotal htotal').nsmul g.count

end Platform

/-! ## Runs -/

/-- A faster accelerator: another `xPU`, which is the GPU itself where there is no accelerator, or
the same PIM. -/
inductive AccConfig.Faster : AccConfig → AccConfig → Prop where
  | xpu {c c' : XpuConfig} (h : c.Faster c') : AccConfig.Faster (.xpu c) (.xpu c')
  | pim (c : PimConfig) (output : PIMType → Layer → Bool → Except PyError (ℚ × PimTraffic)) :
    AccConfig.Faster (.pim c output) (.pim c output)

theorem AccConfig.Faster.times {acc acc' : AccConfig} (h : acc.Faster acc') {l : LayerArgs} :
    acc'.Times l ↔ acc.Times l := by
  cases h with
  | xpu h => exact h.times
  | pim c output => exact Iff.rfl

/-- Configured devices, and faster ones. -/
theorem Platform.Faster.ofConfigs {sys sys' : Platform} {gpu gpu' : XpuConfig}
    {acc acc' : AccConfig} {dhead : ℕ} (h : sys.Positive gpu acc dhead)
    (h' : sys'.Positive gpu' acc' dhead) (hnonneg : sys.Nonneg) (hgpu : gpu.Faster gpu')
    (hacc : acc.Faster acc') (hchunk : sys'.prefillChunkSize = sys.prefillChunkSize)
    (hsample : sys'.prefillSampleCount = sys.prefillSampleCount) : sys.Faster sys' where
  prefillChunkSize := hchunk
  prefillSampleCount := hsample
  numXpu := by
    rw [h.gpu_eq, h'.gpu_eq]
    exact hgpu.numXpu
  numXpu_pos := h.gpu_eq ▸ h.gpu.numXpu
  numHbm := by
    rw [h.acc_eq, h'.acc_eq]
    cases hacc <;> rfl
  numHbm_pos := h.acc_eq ▸ AccConfig.numHbm_pos h.acc
  gpu := by
    rw [h.gpu_eq, h'.gpu_eq]
    exact hgpu.getTimeAndEnergy h.gpu
  acc := by
    have hpos := h.acc
    rw [h.acc_eq, h'.acc_eq]
    cases hacc with
    | xpu hxpu =>
      intro l o o' ho ho'
      exact hxpu.getTimeAndEnergy hpos ho ho'
    | pim c output =>
      intro l o o' ho ho'
      obtain rfl := Except.ok.inj (ho.symm.trans ho')
      exact ⟨le_rfl, rfl⟩
  nonneg := hnonneg
  nonneg' := by
    refine ⟨?_, ?_⟩
    · intro l o ho
      rw [h'.gpu_eq] at ho
      exact XpuConfig.execTime_nonneg h'.gpu ho
    · intro l o ho
      have hpos' := h'.acc
      rw [h'.acc_eq] at ho
      cases hacc with
      | xpu hxpu => exact XpuConfig.execTime_nonneg hpos' ho
      | pim c output => exact hnonneg.acc l o (h.acc_eq ▸ ho)

/-- A report that is no longer. -/
structure Report.NoLonger (level : Bool) (r r' : Report) : Prop where
  sPerf : ∀ key, r'.sPerf key ≤ r.sPerf key
  gPerf_all : r'.gPerf .all ≤ r.gPerf .all
  gPerf : level = false → ∀ key, r'.gPerf key ≤ r.gPerf key
  energy : r'.energy = r.energy

namespace Report.NoLonger

variable {level : Bool}

theorem ofTotals {r r' : Totals} (h : r.NoLonger level r') :
    Report.NoLonger level (.ofTotals r) (.ofTotals r') where
  sPerf key := mul_le_mul_of_nonneg_right (h.sPerf key) (by norm_num)
  gPerf_all := mul_le_mul_of_nonneg_right h.gPerf_all (by norm_num)
  gPerf hlevel key := mul_le_mul_of_nonneg_right (h.gPerf hlevel key) (by norm_num)
  energy := funext fun column => congrArg (· / 1000) (congrFun h.energy column)

theorem add {r r' s s' : Report} (h : r.NoLonger level r') (hs : s.NoLonger level s') :
    (r + s).NoLonger level (r' + s') where
  sPerf key := add_le_add (h.sPerf key) (hs.sPerf key)
  gPerf_all := add_le_add h.gPerf_all hs.gPerf_all
  gPerf hlevel key := add_le_add (h.gPerf hlevel key) (hs.gPerf hlevel key)
  energy := congrArg₂ (· + ·) h.energy hs.energy

end Report.NoLonger

namespace System

/-- Systems that differ in their devices only, and have the same kind of accelerator. -/
structure Alike (sys sys' : System) : Prop where
  model : sys'.model = sys.model
  heteroName : sys'.heteroName = sys.heteroName
  routingMode : sys'.routingMode = sys.routingMode
  routingLayerList : sys'.routingLayerList = sys.routingLayerList
  prefillChunkSize : sys'.prefillChunkSize = sys.prefillChunkSize
  prefillSampleCount : sys'.prefillSampleCount = sys.prefillSampleCount
  imageSize : sys'.imageSize = sys.imageSize

variable {sys sys' : System} {t : Transformer} {args : SimArgs} {gpu gpu' : XpuConfig}
  {acc acc' : AccConfig}

theorem Alike.isHetero (h : sys.Alike sys') : sys'.isHetero = sys.isHetero := by
  rw [Platform.isHetero, Platform.isHetero, h.heteroName]

/-- They route alike. -/
theorem Alike.routing (h : sys.Alike sys') : sys'.routing t = sys.routing t := by
  have hname : sys'.acceleratorRoutingName = sys.acceleratorRoutingName := by
    rw [Platform.acceleratorRoutingName, Platform.acceleratorRoutingName, h.heteroName]
  rw [System.routing, System.routing, h.routingMode, h.routingLayerList, h.isHetero, hname]

/-- The decode blocks of a PIM group. -/
theorem isDecodeBlock_of_buildBlocks {batch lin lout : ℕ} {layerIdx : Option ℕ}
    {sumDecoder : List Layer} {genDecoder : List (List Layer)}
    (h : t.buildBlocks batch lin lout .pim layerIdx = .ok (sumDecoder, genDecoder)) :
    ∀ block ∈ genDecoder.map fun block => block.map SimLayer.fresh, IsDecodeBlock t true block := by
  obtain ⟨sum, -, h⟩ := bind_ok_iff.mp h
  obtain ⟨gen, hgen, h⟩ := bind_ok_iff.mp h
  obtain ⟨rfl, rfl⟩ := Prod.mk.inj (Except.ok.inj h)
  rw [List.forall_mem_map]
  intro block hblock
  obtain ⟨stage, -, hstage⟩ := exists_of_mem_mapM hgen block hblock
  exact ⟨batch, lin, stage, by rw [Transformer.map_layer_fresh]; exact hstage⟩

/-- The decode blocks of a graph. -/
theorem isDecodeBlock_fresh {batch lin lout : ℕ} {attnOnHetero : Bool}
    {routing : Option (List RoutingEntry)} {imageSize : Option ImageSize} {graph : Graph}
    (h : t.build batch lin lout attnOnHetero routing imageSize = .ok graph) :
    ∀ g ∈ (SimGraph.fresh graph).groups, g.device = .pim →
      ∀ block ∈ g.genDecoder, IsDecodeBlock t true block := by
  rw [SimGraph.fresh, List.forall_mem_map]
  intro g hg hdevice
  obtain ⟨layerIdx, hblocks⟩ := Transformer.buildBlocks_of_mem_build h g hg
  have hdevice : g.device = .pim := hdevice
  rw [hdevice] at hblocks
  exact isDecodeBlock_of_buildBlocks hblocks

/-- A run that completes does so on faster devices: whether a layer is timed does not depend on how
fast they are. -/
theorem exists_simulate_of_faster (h : sys.toPlatform.Positive gpu acc t.dhead)
    (h' : sys'.toPlatform.Positive gpu' acc' t.dhead) (hgpu : gpu.Faster gpu')
    (hacc : acc.Faster acc') (halike : sys.Alike sys') (hmodel : sys.model = some t)
    (hbatch : 1 ≤ args.batchSize) (hlin : 1 ≤ args.lin) {row : Row}
    (hrow : sys.simulate args = .ok row) : ∃ row', sys'.simulate args = .ok row' := by
  obtain ⟨groups, graph, totals, hrouting, hbuild, htotals, -, -⟩ :=
    exists_totals_of_simulate hmodel hrow
  have hbuild' : t.build args.batchSize args.lin args.lout sys'.isHetero groups sys'.imageSize =
      .ok graph := by
    rw [halike.isHetero, halike.imageSize, hbuild]
  have hgraph := builtFor_of_routing hrouting hbuild h hbatch hlin
  have htimed := (Platform.exists_batchTotals_iff h hbatch hgraph).mp ⟨totals, htotals⟩
  have htimed' : ∀ {device l}, Timed gpu acc device l → Timed gpu' acc' device l := by
    intro device l hl
    rw [Timed, hgpu.times, hacc.times]
    exact hl
  obtain ⟨hlout, hndec⟩ := two_le_lout_of_simulate hmodel hrow
  exact exists_simulate h' (halike.model.trans hmodel) (halike.routing.trans hrouting) hbuild'
    hbatch hlin hlout hndec
    ⟨fun l hl => htimed' (htimed.vision l hl), fun g hg l hl => htimed' (htimed.groups g hg l hl)⟩

/-- **Faster devices make no run longer**, whatever the model, the routing, the batches and the
accelerator, where a PIM answers every score, and they take the same energy. If head-level overlap
is off, no part of the breakdown gets longer either. -/
theorem simulate_faster (h : sys.toPlatform.Positive gpu acc t.dhead)
    (h' : sys'.toPlatform.Positive gpu' acc' t.dhead) (hnonneg : sys.toPlatform.Nonneg)
    (hgpu : gpu.Faster gpu') (hacc : acc.Faster acc') (halike : sys.Alike sys')
    (hmodel : sys.model = some t) (hbatch : 1 ≤ args.batchSize) (hlin : 1 ≤ args.lin)
    (hff : args.parallelFf = false) {row : Row} (hrow : sys.simulate args = .ok row) :
    ∃ row', sys'.simulate args = .ok row' ∧ row.report.NoLonger args.pipe row'.report := by
  obtain ⟨row', hrow'⟩ :=
    exists_simulate_of_faster h h' hgpu hacc halike hmodel hbatch hlin hrow
  refine ⟨row', hrow', ?_⟩
  obtain ⟨groups, graph, totals, hrouting, hbuild, htotals, -, hreport⟩ :=
    exists_totals_of_simulate hmodel hrow
  obtain ⟨groups', graph', totals', hrouting', hbuild', htotals', -, hreport'⟩ :=
    exists_totals_of_simulate (halike.model.trans hmodel) hrow'
  obtain rfl := Except.ok.inj ((halike.routing.trans hrouting).symm.trans hrouting')
  rw [halike.isHetero, halike.imageSize] at hbuild'
  obtain rfl := Except.ok.inj (hbuild.symm.trans hbuild')
  have hgraph := builtFor_of_routing hrouting hbuild h hbatch hlin
  have hfaster := Platform.Faster.ofConfigs h h' hnonneg hgpu hacc halike.prefillChunkSize
    halike.prefillSampleCount
  have hpim : ∀ g ∈ (SimGraph.fresh graph).groups, g.device = .pim → sys'.acc = sys.acc := by
    rw [SimGraph.fresh, List.forall_mem_map]
    intro g hg hdevice
    obtain ⟨c, output, rfl⟩ := hgraph.pim g hg hdevice
    cases hacc with
    | pim => exact h'.acc_eq.trans h.acc_eq.symm
  have hbatches : ∀ {bs : ℕ} {r r' : Totals},
      sys.batchTotals t args.toPassArgs bs (.fresh graph) = .ok r →
      sys'.batchTotals t args.toPassArgs bs (.fresh graph) = .ok r' →
        Report.NoLonger args.pipe (.ofTotals r) (.ofTotals r') := by
    intro bs r r' hr hr'
    exact .ofTotals
      (Platform.batchTotals_noLonger hfaster hff hpim (isDecodeBlock_fresh hbuild) hr hr')
  split_ifs at hreport hreport' with hrest
  · obtain ⟨rest, hrest, hreport⟩ := hreport
    obtain ⟨rest', hrest', hreport'⟩ := hreport'
    rw [hreport, hreport']
    exact (hbatches htotals htotals').add (hbatches hrest hrest')
  · rw [hreport, hreport']
    exact hbatches htotals htotals'

/-- An H100 with twice its memory bandwidth. -/
def doubledH100 : XpuConfig :=
  { makeGpuConfig .H100 8 with peakMemoryBandwidth := 2 * (3352 * 10 ^ 9) }

/-- A DGX with AttAcc, with such GPUs. -/
def doubledDgx (t : Transformer) : System :=
  { dgxAttacc t oneCycle with gpu := doubledH100.device }

theorem faster_doubledH100 : (makeGpuConfig .H100 8).Faster doubledH100 where
  name := rfl
  numXpu := rfl
  numCore := rfl
  l1CacheSize := rfl
  l2CacheSize := rfl
  energyTable := rfl
  float := rfl
  peakFlops := le_rfl
  peakMemoryBandwidth := by norm_num [makeGpuConfig, gpuConfig, doubledH100]
  peakL2Bandwidth bw' h := by cases h
  maxInterfaceBandwidth := le_rfl
  maxComputeUtil := le_rfl
  maxMemoryUtil := le_rfl

/-- `Qwen3-4B` on a DGX with AttAcc, and with the memory of its GPUs doubled in bandwidth. -/
theorem simulate_faster_qwen3 : ∃ (t : Transformer) (row row' : Row),
    (dgxAttacc t oneCycle).simulate (repliesOf 2) = .ok row ∧
      (doubledDgx t).simulate (repliesOf 2) = .ok row' ∧
      row.report.NoLonger false row'.report := by
  obtain ⟨t, -, hsizes, hndec, hdhead, hdeep, hsupp, hvision, ⟨s⟩⟩ := exists_qwen3_shards
  have hpos := positive_dgxAttacc hdhead
  obtain ⟨row, hrow⟩ : ∃ row, (dgxAttacc t oneCycle).simulate (repliesOf 2) = .ok row :=
    exists_simulate_dgxAttacc hsizes hdhead hdeep (by omega) hsupp s (hvision 2)
      (fun l hl => absurd hl List.not_mem_nil) (by decide) (by decide) le_rfl
  have hnonneg : (dgxAttacc t oneCycle).toPlatform.Nonneg := by
    refine .ofConfigs hpos.gpu_eq hpos.acc_eq hpos.gpu (fun c hc => by cases hc) ?_
    intro c output hc
    obtain ⟨rfl, rfl⟩ := AccConfig.pim.inj hc
    refine ⟨by norm_num [makePimConfig, InterfaceType.bandwidth], ?_⟩
    intro l powerConstraint result hresult
    obtain rfl := Except.ok.inj hresult
    exact RamulatorConfig.postProcess_nonneg _ _ _ _ _
  have hdoubled : doubledH100.Positive :=
    { hpos.gpu with peakMemoryBandwidth := by norm_num [doubledH100] }
  have hpos' : (doubledDgx t).toPlatform.Positive doubledH100
      (.pim (makePimConfig .BA .NVLINK4 8 5 false) oneCycle) t.dhead :=
    ⟨rfl, rfl, hdoubled, hpos.acc⟩
  have halike : (dgxAttacc t oneCycle).Alike (doubledDgx t) := ⟨rfl, rfl, rfl, rfl, rfl, rfl, rfl⟩
  obtain ⟨row', hrow', hno⟩ := simulate_faster hpos hpos' hnonneg faster_doubledH100 (.pim _ _)
    halike rfl (by decide) (by decide) rfl hrow
  exact ⟨t, row, row', hrow, hrow', hno⟩

end System

end AttAcc
