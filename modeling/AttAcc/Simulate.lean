import AttAcc.System

/-!
# A run of the simulator, in closed form

The passes overwrite what they assign and read the graph's layers only, so a pass over a
graph that earlier passes have mutated is a pass over the graph as it was built
(`simulateBatch_congr`, `sameLayers_of_simulateBatch`). From this the loop over the
batches is a loop over totals, each taken from the built graph (`simulateGraph_eq_ok`),
and the totals of an iteration are those of the vision graph plus `count` times those of
each group (`batchTotals_eq_ok`).
-/

namespace AttAcc

open Library

/-- Groups that differ in the attributes of their layers at most. -/
structure SimGroup.SameLayers (g g' : SimGroup) : Prop where
  sumDecoder : g.sumDecoder.map SimLayer.layer = g'.sumDecoder.map SimLayer.layer
  genDecoder : g.genDecoder.map (List.map SimLayer.layer) =
    g'.genDecoder.map (List.map SimLayer.layer)
  count : g.count = g'.count
  device : g.device = g'.device

/-- Graphs that differ in the attributes of their layers at most. -/
structure SimGraph.SameLayers (g g' : SimGraph) : Prop where
  visionDecoder : g.visionDecoder.map SimLayer.layer = g'.visionDecoder.map SimLayer.layer
  groups : List.Forall₂ SimGroup.SameLayers g.groups g'.groups

theorem SimGroup.SameLayers.refl (g : SimGroup) : g.SameLayers g := ⟨rfl, rfl, rfl, rfl⟩

theorem SimGroup.SameLayers.trans {g₁ g₂ g₃ : SimGroup} (h : g₁.SameLayers g₂)
    (h' : g₂.SameLayers g₃) : g₁.SameLayers g₃ :=
  ⟨h.1.trans h'.1, h.2.trans h'.2, h.3.trans h'.3, h.4.trans h'.4⟩

theorem SimGraph.SameLayers.trans {g₁ g₂ g₃ : SimGraph} (h : g₁.SameLayers g₂)
    (h' : g₂.SameLayers g₃) : g₁.SameLayers g₃ :=
  ⟨h.1.trans h'.1, forall₂_trans (R := SimGroup.SameLayers) SimGroup.SameLayers.trans h.2 h'.2⟩

theorem SimGraph.SameLayers.refl (g : SimGraph) : g.SameLayers g :=
  ⟨rfl, List.forall₂_same.mpr fun g _ => .refl g⟩

namespace Platform

variable {sys : Platform} {t : Transformer} {args : PassArgs} {bs : ℕ} {device : RoutingDevice}

/-! ### The passes read the layers, and keep them -/

theorem groupFlops_eq (ls : List SimLayer) :
    sys.groupFlops ls =
      ((ls.map SimLayer.layer).map fun l : Layer => l.getFlops * sys.gpu.numXpu).sum := by
  rw [groupFlops, List.map_map]
  rfl

theorem groupFlops_congr {ls ls' : List SimLayer}
    (h : ls.map SimLayer.layer = ls'.map SimLayer.layer) :
    sys.groupFlops ls = sys.groupFlops ls' := by
  rw [groupFlops_eq, groupFlops_eq, h]

theorem simulateSumLayers_congr {time wrtIoBusy : ℚ} {ls ls' : List SimLayer}
    (h : ls.map SimLayer.layer = ls'.map SimLayer.layer) :
    sys.simulateSumLayers device time wrtIoBusy ls =
      sys.simulateSumLayers device time wrtIoBusy ls' := by
  induction ls generalizing time wrtIoBusy ls' with
  | nil =>
    obtain rfl := List.map_eq_nil_iff.mp h.symm
    rfl
  | cons l ls ih =>
    obtain ⟨l', ls', rfl, hl, hls⟩ := List.map_eq_cons_iff.mp h.symm
    simp only [simulateSumLayers, hl, ih hls.symm, SimLayer.assign_eq_of_layer_eq hl.symm]

theorem map_layer_simulateSumLayers {time wrtIoBusy : ℚ} {ls out : List SimLayer}
    (h : sys.simulateSumLayers device time wrtIoBusy ls = .ok out) :
    out.map SimLayer.layer = ls.map SimLayer.layer := by
  induction ls generalizing time wrtIoBusy out with
  | nil =>
    obtain rfl := Except.ok.inj h
    rfl
  | cons l ls ih =>
    obtain ⟨outcome, -, h⟩ := bind_ok_iff.mp h
    obtain ⟨rest, hrest, h⟩ := bind_ok_iff.mp h
    obtain rfl := Except.ok.inj h
    rw [List.map_cons, List.map_cons, SimLayer.layer_assign, ih hrest]

theorem simulateSumGroup_congr {ls ls' : List SimLayer}
    (h : ls.map SimLayer.layer = ls'.map SimLayer.layer) :
    sys.simulateSumGroup args device ls = sys.simulateSumGroup args device ls' := by
  rw [simulateSumGroup, simulateSumGroup, simulateSumLayers_congr h, groupFlops_congr h]

theorem map_layer_simulateSumGroup {ls out : List SimLayer} {flops : ℕ}
    (h : sys.simulateSumGroup args device ls = .ok (out, flops)) :
    out.map SimLayer.layer = ls.map SimLayer.layer := by
  obtain ⟨timed, htimed, h⟩ := bind_ok_iff.mp h
  obtain ⟨adjusted, hadjusted, h⟩ := bind_ok_iff.mp h
  obtain ⟨rfl, -⟩ := Prod.mk.inj (Except.ok.inj h)
  rw [(applyEffLat_sameButTime hadjusted).map_layer, map_layer_simulateSumLayers htimed]

theorem timeGenBlock_congr {block block' : List SimLayer}
    (h : block.map SimLayer.layer = block'.map SimLayer.layer) :
    sys.timeGenBlock device block = sys.timeGenBlock device block' := by
  refine mapM_congr_of_map_eq ?_ h
  intro l l' hl
  rw [hl]
  refine congrArg (Bind.bind (sys.timeOn device l'.layer)) ?_
  funext outcome
  rw [SimLayer.assign_eq_of_layer_eq hl]

theorem map_layer_timeGenBlock {block timed : List SimLayer}
    (h : sys.timeGenBlock device block = .ok timed) :
    timed.map SimLayer.layer = block.map SimLayer.layer := by
  have hforall := mapM_ok_iff.mp h
  clear h
  induction hforall with
  | nil => rfl
  | cons hl _ ih =>
    obtain ⟨outcome, -, hl⟩ := bind_ok_iff.mp hl
    obtain rfl := Except.ok.inj hl
    rw [List.map_cons, List.map_cons, SimLayer.layer_assign, ih]

theorem adjustGenBlock_sameButTime {timed adjusted : List SimLayer}
    (h : sys.adjustGenBlock t args bs device timed = .ok adjusted) :
    BlockSameButTime timed adjusted := by
  unfold adjustGenBlock at h
  by_cases hdevice : device = .pim
  · rw [if_pos hdevice] at h
    obtain ⟨slowed, hslowed, h⟩ := bind_ok_iff.mp h
    obtain ⟨piped, hpiped, h⟩ := bind_ok_iff.mp h
    have hsame := (applyEffLat_sameButTime hslowed).trans (pipeline_sameButTime hpiped)
    split_ifs at h with hff
    · exact hsame.trans (ffParallel_sameButTime h)
    · obtain rfl := Except.ok.inj h
      exact hsame
  · rw [if_neg hdevice] at h
    obtain rfl := Except.ok.inj h
    exact .refl timed

theorem simulateGenBlock_congr {acc : GenEnergies} {block block' : List SimLayer}
    (h : block.map SimLayer.layer = block'.map SimLayer.layer) :
    sys.simulateGenBlock t args bs device acc block =
      sys.simulateGenBlock t args bs device acc block' := by
  rw [simulateGenBlock, simulateGenBlock, timeGenBlock_congr h]

theorem map_layer_simulateGenBlock {acc acc' : GenEnergies} {block out : List SimLayer}
    (h : sys.simulateGenBlock t args bs device acc block = .ok (out, acc')) :
    out.map SimLayer.layer = block.map SimLayer.layer := by
  obtain ⟨timed, htimed, h⟩ := bind_ok_iff.mp h
  obtain ⟨adjusted, hadjusted, h⟩ := bind_ok_iff.mp h
  obtain ⟨rfl, -⟩ := Prod.mk.inj (Except.ok.inj h)
  rw [(adjustGenBlock_sameButTime hadjusted).map_layer, map_layer_timeGenBlock htimed]

theorem simulateGenBlocks_congr {acc : GenEnergies} {blocks blocks' : List (List SimLayer)}
    (h : blocks.map (List.map SimLayer.layer) = blocks'.map (List.map SimLayer.layer)) :
    sys.simulateGenBlocks t args bs device acc blocks =
      sys.simulateGenBlocks t args bs device acc blocks' := by
  induction blocks generalizing acc blocks' with
  | nil =>
    obtain rfl := List.map_eq_nil_iff.mp h.symm
    rfl
  | cons block blocks ih =>
    obtain ⟨block', blocks', rfl, hblock, hblocks⟩ := List.map_eq_cons_iff.mp h.symm
    simp only [simulateGenBlocks, simulateGenBlock_congr hblock.symm, ih hblocks.symm]

theorem map_layer_simulateGenBlocks {acc acc' : GenEnergies}
    {blocks out : List (List SimLayer)}
    (h : sys.simulateGenBlocks t args bs device acc blocks = .ok (out, acc')) :
    out.map (List.map SimLayer.layer) = blocks.map (List.map SimLayer.layer) := by
  induction blocks generalizing acc acc' out with
  | nil =>
    obtain ⟨rfl, -⟩ := Prod.mk.inj (Except.ok.inj h)
    rfl
  | cons block blocks ih =>
    obtain ⟨⟨block', acc₁⟩, hblock, h⟩ := bind_ok_iff.mp h
    obtain ⟨⟨blocks', acc₂⟩, hblocks, h⟩ := bind_ok_iff.mp h
    obtain ⟨rfl, -⟩ := Prod.mk.inj (Except.ok.inj h)
    rw [List.map_cons, List.map_cons, map_layer_simulateGenBlock hblock, ih hblocks]

theorem map_groupFlops_congr {blocks blocks' : List (List SimLayer)}
    (h : blocks.map (List.map SimLayer.layer) = blocks'.map (List.map SimLayer.layer)) :
    blocks.map sys.groupFlops = blocks'.map sys.groupFlops := by
  induction blocks generalizing blocks' with
  | nil =>
    obtain rfl := List.map_eq_nil_iff.mp h.symm
    rfl
  | cons block blocks ih =>
    obtain ⟨block', blocks', rfl, hblock, hblocks⟩ := List.map_eq_cons_iff.mp h.symm
    rw [List.map_cons, List.map_cons, groupFlops_congr hblock.symm, ih hblocks.symm]

/-- What the passes over a group report for one layer. -/
def groupTotals (sys : Platform) (t : Transformer) (args : PassArgs) (bs : ℕ) (g : SimGroup) :
    Except PyError Totals :=
  (sys.simulateGroup t args bs g).map Prod.snd

/-- The passes over a group read its layers only. -/
theorem groupTotals_congr {g g' : SimGroup} (h : g.SameLayers g') :
    sys.groupTotals t args bs g = sys.groupTotals t args bs g' := by
  simp only [groupTotals, simulateGroup, simulateGenGroup, simulateSumGroup_congr h.sumDecoder,
    simulateGenBlocks_congr h.genDecoder, h.device, map_groupFlops_congr h.genDecoder]
  rcases sys.simulateSumGroup args g'.device g'.sumDecoder with e | ⟨sDecoder, sFlops⟩
  · rfl
  · rcases hblocks : sys.simulateGenBlocks t args bs g'.device .zero g'.genDecoder with
      e | ⟨gDecoder, energies⟩
    · simp only [bind, Except.bind, Except.map]
    · simp only [bind, Except.bind, Except.map, pure, Except.pure]

theorem groupTotals_eq_ok {g : SimGroup} {totals : Totals} :
    sys.groupTotals t args bs g = .ok totals ↔
      ∃ g', sys.simulateGroup t args bs g = .ok (g', totals) := by
  rw [groupTotals]
  rcases sys.simulateGroup t args bs g with e | ⟨g', totals'⟩
  · simp [Except.map]
  · simp [Except.map]

/-- The passes over a group keep its layers. -/
theorem sameLayers_of_simulateGroup {g g' : SimGroup} {totals : Totals}
    (h : sys.simulateGroup t args bs g = .ok (g', totals)) : g'.SameLayers g := by
  obtain ⟨⟨sDecoder, sFlops⟩, hsum, h⟩ := bind_ok_iff.mp h
  obtain ⟨⟨gDecoder, gFlops, energies⟩, hgen, h⟩ := bind_ok_iff.mp h
  obtain ⟨rfl, -⟩ := Prod.mk.inj (Except.ok.inj h)
  obtain ⟨⟨gDecoder', energies'⟩, hblocks, hgen⟩ := bind_ok_iff.mp hgen
  obtain ⟨rfl, -⟩ := Prod.mk.inj (Except.ok.inj hgen)
  exact ⟨map_layer_simulateSumGroup hsum, map_layer_simulateGenBlocks hblocks, rfl, rfl⟩

theorem simulateVision_congr {vision vision' : List SimLayer}
    (h : vision.map SimLayer.layer = vision'.map SimLayer.layer) :
    (sys.simulateVision t args vision).map Prod.snd =
      (sys.simulateVision t args vision').map Prod.snd := by
  have hempty : vision.isEmpty = vision'.isEmpty := by
    rw [← List.isEmpty_map, h, List.isEmpty_map]
  rw [simulateVision, simulateVision, hempty, simulateSumGroup_congr h]
  cases hvision' : vision'.isEmpty with
  | true => rfl
  | false => rfl

theorem map_layer_simulateVision {vision vision' : List SimLayer} {totals : Totals}
    (h : sys.simulateVision t args vision = .ok (vision', totals)) :
    vision'.map SimLayer.layer = vision.map SimLayer.layer := by
  unfold simulateVision at h
  split_ifs at h with hempty
  · obtain ⟨rfl, -⟩ := Prod.mk.inj (Except.ok.inj h)
    rfl
  · obtain ⟨⟨out, flops⟩, hout, h⟩ := bind_ok_iff.mp h
    obtain ⟨rfl, -⟩ := Prod.mk.inj (Except.ok.inj h)
    exact map_layer_simulateSumGroup hout

/-- The loop over the groups adds their totals up, `count` times each. -/
theorem simulateGroups_eq_ok {start totals : Totals} {gs : List SimGroup} :
    (∃ gs', sys.simulateGroups t args bs start gs = .ok (gs', totals)) ↔
      (∀ g ∈ gs, ∃ r, sys.groupTotals t args bs g = .ok r) ∧
        totals = start +
          (gs.map fun g => g.count • valueOf (sys.groupTotals t args bs g)).sum := by
  induction gs generalizing start with
  | nil =>
    simp only [simulateGroups, Except.ok.injEq, Prod.mk.injEq, List.map_nil, List.sum_nil,
      add_zero, List.not_mem_nil, false_implies, implies_true, true_and]
    refine ⟨?_, ?_⟩
    · rintro ⟨gs', -, rfl⟩
      rfl
    · rintro rfl
      exact ⟨[], rfl, rfl⟩
  | cons g gs ih =>
    simp only [List.forall_mem_cons, List.map_cons, List.sum_cons]
    refine ⟨?_, ?_⟩
    · rintro ⟨gs', h⟩
      obtain ⟨⟨g', r⟩, hg, h⟩ := bind_ok_iff.mp h
      obtain ⟨⟨gs'', totals'⟩, hgs, h⟩ := bind_ok_iff.mp h
      obtain ⟨-, rfl⟩ := Prod.mk.inj (Except.ok.inj h)
      have hr := groupTotals_eq_ok.mpr ⟨g', hg⟩
      obtain ⟨hrest, rfl⟩ := ih.mp ⟨gs'', hgs⟩
      refine ⟨⟨⟨r, hr⟩, hrest⟩, ?_⟩
      rw [hr, valueOf_ok, Totals.scale_eq_nsmul, add_assoc]
    · rintro ⟨⟨⟨r, hr⟩, hrest⟩, htotals⟩
      obtain ⟨g', hg⟩ := groupTotals_eq_ok.mp hr
      rw [hr, valueOf_ok, ← Totals.scale_eq_nsmul, ← add_assoc] at htotals
      obtain ⟨gs', hgs⟩ := ih.mpr ⟨hrest, htotals⟩
      exact ⟨g' :: gs', bind_ok_iff.mpr ⟨(g', r), hg, bind_ok_iff.mpr ⟨_, hgs, rfl⟩⟩⟩

theorem sameLayers_of_simulateGroups {start totals : Totals} {gs gs' : List SimGroup}
    (h : sys.simulateGroups t args bs start gs = .ok (gs', totals)) :
    List.Forall₂ SimGroup.SameLayers gs' gs := by
  induction gs generalizing start gs' with
  | nil =>
    obtain ⟨rfl, -⟩ := Prod.mk.inj (Except.ok.inj h)
    exact .nil
  | cons g gs ih =>
    obtain ⟨⟨g', r⟩, hg, h⟩ := bind_ok_iff.mp h
    obtain ⟨⟨gs'', totals'⟩, hgs, h⟩ := bind_ok_iff.mp h
    obtain ⟨rfl, rfl⟩ := Prod.mk.inj (Except.ok.inj h)
    exact .cons (sameLayers_of_simulateGroup hg) (ih hgs)

/-! ### One iteration over the batches -/

/-- What the vision pass reports. -/
def visionTotals (sys : Platform) (t : Transformer) (args : PassArgs) (vision : List SimLayer) :
    Except PyError Totals :=
  (sys.simulateVision t args vision).map Prod.snd

/-- What one iteration reports. -/
def batchTotals (sys : Platform) (t : Transformer) (args : PassArgs) (bs : ℕ) (graph : SimGraph) :
    Except PyError Totals :=
  (sys.simulateBatch t args bs graph).map Prod.snd

theorem visionTotals_eq_ok {vision : List SimLayer} {totals : Totals} :
    sys.visionTotals t args vision = .ok totals ↔
      ∃ vision', sys.simulateVision t args vision = .ok (vision', totals) := by
  rw [visionTotals]
  rcases sys.simulateVision t args vision with e | ⟨vision', totals'⟩
  · simp [Except.map]
  · simp [Except.map]

theorem exists_simulateBatch {graph : SimGraph} {totals : Totals} :
    sys.batchTotals t args bs graph = .ok totals ↔
      ∃ graph', sys.simulateBatch t args bs graph = .ok (graph', totals) := by
  rw [batchTotals]
  rcases sys.simulateBatch t args bs graph with e | ⟨graph', totals'⟩
  · simp [Except.map]
  · simp [Except.map]

/-- The totals of an iteration are those of the vision graph and, `count` times each,
those of the groups. -/
theorem batchTotals_eq_ok {graph : SimGraph} {totals : Totals} :
    sys.batchTotals t args bs graph = .ok totals ↔
      ∃ vision, sys.visionTotals t args graph.visionDecoder = .ok vision ∧
        (∀ g ∈ graph.groups, ∃ r, sys.groupTotals t args bs g = .ok r) ∧
        totals = vision +
          (graph.groups.map fun g => g.count • valueOf (sys.groupTotals t args bs g)).sum := by
  rw [exists_simulateBatch]
  refine ⟨?_, ?_⟩
  · rintro ⟨graph', h⟩
    obtain ⟨⟨vision', start⟩, hvision, h⟩ := bind_ok_iff.mp h
    obtain ⟨⟨groups', totals'⟩, hgroups, h⟩ := bind_ok_iff.mp h
    obtain ⟨-, rfl⟩ := Prod.mk.inj (Except.ok.inj h)
    exact ⟨start, visionTotals_eq_ok.mpr ⟨vision', hvision⟩,
      simulateGroups_eq_ok.mp ⟨groups', hgroups⟩⟩
  · rintro ⟨start, hvision, hgroups⟩
    obtain ⟨vision', hvision⟩ := visionTotals_eq_ok.mp hvision
    obtain ⟨groups', hgroups⟩ := simulateGroups_eq_ok.mpr hgroups
    exact ⟨⟨vision', groups'⟩,
      bind_ok_iff.mpr ⟨_, hvision, bind_ok_iff.mpr ⟨_, hgroups, rfl⟩⟩⟩

theorem forall_groupTotals_congr {gs gs' : List SimGroup}
    (h : List.Forall₂ SimGroup.SameLayers gs gs') :
    (∀ g ∈ gs, ∃ r, sys.groupTotals t args bs g = .ok r) ↔
      ∀ g ∈ gs', ∃ r, sys.groupTotals t args bs g = .ok r := by
  induction h with
  | nil => exact Iff.rfl
  | cons hg _ ih => rw [List.forall_mem_cons, List.forall_mem_cons, groupTotals_congr hg, ih]

theorem map_groupTotals_congr {gs gs' : List SimGroup}
    (h : List.Forall₂ SimGroup.SameLayers gs gs') :
    (gs.map fun g => g.count • valueOf (sys.groupTotals t args bs g)) =
      gs'.map fun g => g.count • valueOf (sys.groupTotals t args bs g) := by
  induction h with
  | nil => rfl
  | cons hg _ ih => rw [List.map_cons, List.map_cons, groupTotals_congr hg, hg.count, ih]

/-- **An iteration reads the layers of the graph only**: what an earlier iteration left
on them is not seen. -/
theorem batchTotals_congr {graph graph' : SimGraph} (h : graph.SameLayers graph')
    (totals : Totals) :
    sys.batchTotals t args bs graph = .ok totals ↔
      sys.batchTotals t args bs graph' = .ok totals := by
  have hvision : sys.visionTotals t args graph.visionDecoder =
      sys.visionTotals t args graph'.visionDecoder := simulateVision_congr h.visionDecoder
  rw [batchTotals_eq_ok, batchTotals_eq_ok, hvision, forall_groupTotals_congr h.groups,
    map_groupTotals_congr h.groups]

theorem sameLayers_of_simulateBatch {graph graph' : SimGraph} {totals : Totals}
    (h : sys.simulateBatch t args bs graph = .ok (graph', totals)) :
    graph'.SameLayers graph := by
  obtain ⟨⟨vision', start⟩, hvision, h⟩ := bind_ok_iff.mp h
  obtain ⟨⟨groups', totals'⟩, hgroups, h⟩ := bind_ok_iff.mp h
  obtain ⟨rfl, -⟩ := Prod.mk.inj (Except.ok.inj h)
  exact ⟨map_layer_simulateVision hvision, sameLayers_of_simulateGroups hgroups⟩

/-! ### The loop over the batches -/

section Loop

variable {args : SimArgs}

/-- One iteration of the loop, with the totals taken from the built graph. -/
def resultsStep (sys : Platform) (t : Transformer) (args : SimArgs) (graph : SimGraph)
    (results : Results) (step : ℕ × ℕ) : Except PyError Results :=
  sys.batchTotals t args.toPassArgs step.1 graph >>= fun totals =>
    .ok (sys.endBatch t args results step totals)

/-- The graph the loop mutates has the layers of the built one throughout, so the loop is
a loop over results. -/
theorem foldlM_simulateStep_eq_ok {graph : SimGraph} {steps : List (ℕ × ℕ)} {s : LoopState}
    (hs : s.graph.SameLayers graph) {results : Results} :
    (∃ s', steps.foldlM (sys.simulateStep t args) s = .ok s' ∧ s'.results = results) ↔
      steps.foldlM (sys.resultsStep t args graph) s.results = .ok results := by
  induction steps generalizing s with
  | nil =>
    refine ⟨?_, ?_⟩
    · rintro ⟨s', hs', rfl⟩
      obtain rfl := Except.ok.inj hs'
      rfl
    · intro h
      exact ⟨s, rfl, Except.ok.inj h⟩
  | cons step steps ih =>
    simp only [List.foldlM_cons, bind_ok_iff]
    refine ⟨?_, ?_⟩
    · rintro ⟨s', ⟨s₁, hstep, hrest⟩, hresults⟩
      obtain ⟨⟨graph', totals⟩, hbatch, hstep⟩ := bind_ok_iff.mp hstep
      obtain rfl := Except.ok.inj hstep
      have htotals := (batchTotals_congr hs totals).mp (exists_simulateBatch.mpr ⟨graph', hbatch⟩)
      have hsame := (sameLayers_of_simulateBatch hbatch).trans hs
      exact ⟨_, bind_ok_iff.mpr ⟨totals, htotals, rfl⟩, (ih hsame).mp ⟨s', hrest, hresults⟩⟩
    · rintro ⟨results₁, hstep, hrest⟩
      obtain ⟨totals, htotals, hstep⟩ := bind_ok_iff.mp hstep
      obtain rfl := Except.ok.inj hstep
      obtain ⟨graph', hbatch⟩ :=
        exists_simulateBatch.mp ((batchTotals_congr hs totals).mpr htotals)
      have hsame := (sameLayers_of_simulateBatch hbatch).trans hs
      obtain ⟨s', hs', hresults⟩ := (ih (s := ⟨graph', _⟩) hsame).mpr hrest
      exact ⟨s', ⟨_, bind_ok_iff.mpr ⟨(graph', totals), hbatch, rfl⟩, hs'⟩, hresults⟩

/-- **A run returns the row of a loop over the built graph**: every iteration reports
what it would report on the graph as `build` left it. -/
theorem simulateGraph_eq_ok {graph : Graph} {row : Row} :
    sys.simulateGraph t args graph = .ok row ↔
      args.batchSize ≠ 0 ∧ ∃ results,
        (targetBs args).zipIdx.foldlM (sys.resultsStep t args (.fresh graph)) .initial =
          .ok results ∧
        sys.finishRow t args results = .ok row := by
  have hloop : ∀ results, (∃ s', (targetBs args).zipIdx.foldlM (sys.simulateStep t args)
      ⟨.fresh graph, .initial⟩ = .ok s' ∧ s'.results = results) ↔ _ := fun results =>
    foldlM_simulateStep_eq_ok (SimGraph.SameLayers.refl (.fresh graph))
  unfold simulateGraph
  by_cases hzero : args.batchSize = 0
  · rw [if_pos hzero]
    refine ⟨?_, ?_⟩
    · intro h
      cases h
    · rintro ⟨h, -⟩
      exact absurd hzero h
  · rw [if_neg hzero]
    refine ⟨?_, ?_⟩
    · intro h
      obtain ⟨s, hs, h⟩ := bind_ok_iff.mp h
      exact ⟨hzero, s.results, (hloop s.results).mp ⟨s, hs, rfl⟩, h⟩
    · rintro ⟨-, results, hresults, h⟩
      obtain ⟨s, hs, rfl⟩ := (hloop results).mpr hresults
      exact bind_ok_iff.mpr ⟨s, hs, h⟩

/-- Graphs whose iterations report the same totals give the same row. -/
theorem simulateGraph_congr {graph graph' : Graph}
    (h : ∀ bs totals, sys.batchTotals t args.toPassArgs bs (.fresh graph) = .ok totals ↔
      sys.batchTotals t args.toPassArgs bs (.fresh graph') = .ok totals) (row : Row) :
    sys.simulateGraph t args graph = .ok row ↔ sys.simulateGraph t args graph' = .ok row := by
  rw [simulateGraph_eq_ok, simulateGraph_eq_ok]
  have hstep : ∀ results, ∀ step ∈ (targetBs args).zipIdx, ∀ r,
      sys.resultsStep t args (.fresh graph) results step = .ok r ↔
        sys.resultsStep t args (.fresh graph') results step = .ok r := by
    intro results step _ r
    simp only [resultsStep, bind_ok_iff, h]
  simp only [foldlM_ok_congr hstep]

end Loop

end Platform

end AttAcc
