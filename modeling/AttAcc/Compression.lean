import AttAcc.Simulate

/-!
# Group compression

Without DeepStack the layers of a group are built alike whatever their index, so what a
group reports for a layer depends on the group's device only. A run then depends on the
routing only through the devices of the decoder layers, and not on their order or on how
they are grouped (`simulateRouting_congr`). The `optimistic` and `conservative` modes
compress the groups of `list` mode: they assign the same devices, in another order.
-/

namespace AttAcc

open Library

/-- The devices of the layers, summed over: each entry counts `count` times. -/
theorem sum_map_assignment {M : Type*} [AddCommMonoid M] (f : RoutingDevice → M)
    (entries : List RoutingEntry) :
    ((assignment entries).map f).sum =
      ((entries.filter fun e => decide (0 < e.count)).map fun e => e.count • f e.device).sum := by
  induction entries with
  | nil => rfl
  | cons e es ih =>
    rw [assignment_cons, List.map_append, List.sum_append, List.map_replicate, List.sum_replicate,
      ih]
    rcases Nat.eq_zero_or_pos e.count with hcount | hcount
    · rw [List.filter_cons_of_neg (by simp [hcount]), hcount, zero_nsmul, zero_add]
    · rw [List.filter_cons_of_pos (by simp [hcount]), List.map_cons, List.sum_cons]

/-- The devices that have a layer are those of the entries that have one. -/
theorem forall_mem_assignment {P : RoutingDevice → Prop} {entries : List RoutingEntry} :
    (∀ d ∈ assignment entries, P d) ↔
      ∀ e ∈ entries.filter fun e => decide (0 < e.count), P e.device := by
  simp only [assignment, List.mem_flatMap, List.mem_replicate, List.mem_filter, decide_eq_true_eq]
  refine ⟨?_, ?_⟩
  · rintro h e ⟨he, hcount⟩
    exact h e.device ⟨e, he, hcount.ne', rfl⟩
  · rintro h d ⟨e, he, hcount, rfl⟩
    exact h e ⟨he, Nat.pos_of_ne_zero hcount⟩

namespace Transformer

/-- A model without DeepStack: it does not ask for list routing, and no decoder layer
takes an injection. -/
structure NoDeepStack (t : Transformer) : Prop where
  hasDeepstack : t.hasDeepstack = false
  deepstackLayers : t.deepstackLayers = []

variable {t : Transformer} {batch lin lout : ℕ}

/-- Without DeepStack a block does not depend on the index of its layer. -/
theorem NoDeepStack.buildBlocks_eq (h : t.NoDeepStack) (device : RoutingDevice)
    (layerIdx : Option ℕ) :
    t.buildBlocks batch lin lout device layerIdx = t.buildBlocks batch lin lout device none := by
  rcases layerIdx with _ | idx
  · rfl
  · simp only [buildBlocks, buildSum, sumAttnArgs, h.deepstackLayers, List.not_mem_nil, if_false]

end Transformer

namespace Platform

variable {sys : Platform} {t : Transformer} {args : PassArgs} {bs : ℕ}

/-- A group with given blocks, all its layers fresh. -/
def freshGroup (blocks : List Layer × List (List Layer)) (count : ℕ) (device : RoutingDevice) :
    SimGroup where
  sumDecoder := blocks.1.map .fresh
  genDecoder := blocks.2.map fun block => block.map .fresh
  count := count
  device := device

/-- What one decoder layer on a device reports. -/
def layerTotals (sys : Platform) (t : Transformer) (args : PassArgs) (bs : ℕ)
    (device : RoutingDevice) : Except PyError Totals := do
  let blocks ← t.buildBlocks args.batchSize args.lin args.lout device none
  sys.groupTotals t args bs (freshGroup blocks 1 device)

/-- The report of a group is for one layer: the count does not enter. -/
theorem groupTotals_freshGroup (blocks : List Layer × List (List Layer)) (count : ℕ)
    (device : RoutingDevice) :
    sys.groupTotals t args bs (freshGroup blocks count device) =
      sys.groupTotals t args bs (freshGroup blocks 1 device) := by
  simp only [groupTotals, simulateGroup, freshGroup]
  rcases sys.simulateSumGroup args device (blocks.1.map .fresh) with e | ⟨sDecoder, sFlops⟩
  · rfl
  · rcases hgen : sys.simulateGenGroup t args bs device
      (blocks.2.map fun block => block.map .fresh) with e | ⟨gDecoder, gFlops, energies⟩
    · simp only [bind, Except.bind, Except.map, hgen]
    · simp only [bind, Except.bind, Except.map, pure, Except.pure, hgen]

/-- A built group reports what a layer on its device reports. -/
theorem groupTotals_of_builtFrom (hdeep : t.NoDeepStack) {e : RoutingEntry} {g : Group}
    (hg : t.BuiltFrom args.batchSize args.lin args.lout e g) :
    sys.groupTotals t args bs (.fresh g) = sys.layerTotals t args bs e.device := by
  have hblocks := hg.blocks
  rw [hdeep.buildBlocks_eq] at hblocks
  rw [layerTotals, hblocks, ← hg.device]
  exact groupTotals_freshGroup (g.sumDecoder, g.genDecoder) g.count g.device

theorem forall_groupTotals_of_builtFrom (hdeep : t.NoDeepStack) {es : List RoutingEntry}
    {gs : List Group}
    (h : List.Forall₂ (t.BuiltFrom args.batchSize args.lin args.lout) es gs) :
    (∀ g ∈ gs.map SimGroup.fresh, ∃ r, sys.groupTotals t args bs g = .ok r) ↔
      ∀ e ∈ es, ∃ r, sys.layerTotals t args bs e.device = .ok r := by
  induction h with
  | nil =>
    exact ⟨fun _ e he => absurd he List.not_mem_nil, fun _ g hg => absurd hg List.not_mem_nil⟩
  | cons hg _ ih =>
    rw [List.map_cons, List.forall_mem_cons, List.forall_mem_cons, ih,
      groupTotals_of_builtFrom hdeep hg]

theorem map_groupTotals_of_builtFrom (hdeep : t.NoDeepStack) {es : List RoutingEntry}
    {gs : List Group}
    (h : List.Forall₂ (t.BuiltFrom args.batchSize args.lin args.lout) es gs) :
    ((gs.map SimGroup.fresh).map fun g => g.count • valueOf (sys.groupTotals t args bs g)) =
      es.map fun e => e.count • valueOf (sys.layerTotals t args bs e.device) := by
  induction h with
  | nil => rfl
  | cons hg _ ih =>
    rw [List.map_cons, List.map_cons, List.map_cons, ih, groupTotals_of_builtFrom hdeep hg,
      ← hg.count]
    rfl

/-- **The totals of an iteration, layer by layer**: those of the vision graph, and those
of every decoder layer on its device. -/
theorem batchTotals_of_build (hdeep : t.NoDeepStack) {entries : List RoutingEntry}
    {graph : Graph}
    (hgroups : List.Forall₂ (t.BuiltFrom args.batchSize args.lin args.lout)
      (entries.filter fun e => decide (0 < e.count)) graph.groups) (totals : Totals) :
    sys.batchTotals t args bs (.fresh graph) = .ok totals ↔
      ∃ vision, sys.visionTotals t args (graph.visionDecoder.map .fresh) = .ok vision ∧
        (∀ d ∈ assignment entries, ∃ r, sys.layerTotals t args bs d = .ok r) ∧
        totals = vision +
          ((assignment entries).map fun d => valueOf (sys.layerTotals t args bs d)).sum := by
  rw [batchTotals_eq_ok, sum_map_assignment, forall_mem_assignment]
  simp only [SimGraph.fresh, forall_groupTotals_of_builtFrom hdeep hgroups,
    map_groupTotals_of_builtFrom hdeep hgroups]

/-- Groups are built exactly when every device that has a layer gets its blocks. -/
theorem exists_builtFrom_iff (hdeep : t.NoDeepStack) {entries : List RoutingEntry} :
    (∃ gs, List.Forall₂ (t.BuiltFrom args.batchSize args.lin args.lout)
        (entries.filter fun e => decide (0 < e.count)) gs) ↔
      ∀ d ∈ assignment entries,
        ∃ blocks, t.buildBlocks args.batchSize args.lin args.lout d none = .ok blocks := by
  rw [forall_mem_assignment, exists_forall₂_iff]
  refine forall₂_congr fun e he => ⟨?_, ?_⟩
  · rintro ⟨g, hg⟩
    exact ⟨_, hdeep.buildBlocks_eq e.device _ ▸ hg.blocks⟩
  · rintro ⟨blocks, hblocks⟩
    have hcount : 0 < e.count := of_decide_eq_true (List.mem_filter.mp he).2
    refine ⟨⟨e.groupName, blocks.1, blocks.2, e.count, e.device, e.indices, hcount⟩,
      rfl, rfl, rfl, rfl, ?_⟩
    rw [hdeep.buildBlocks_eq, hblocks]

section Run

variable {args : SimArgs}

/-- One half of `simulateRouting_congr`: what one routing returns, the other does. -/
theorem simulateRouting_of_perm (hdeep : t.NoDeepStack)
    {routing routing' : Option (List RoutingEntry)}
    (hnames : ((sys.entriesOf t routing).map RoutingEntry.groupName).Nodup)
    (hnames' : ((sys.entriesOf t routing').map RoutingEntry.groupName).Nodup)
    (hperm : (assignment (sys.entriesOf t routing)).Perm (assignment (sys.entriesOf t routing')))
    {row : Row} (h : sys.simulateRouting t args routing = .ok row) :
    sys.simulateRouting t args routing' = .ok row := by
  obtain ⟨graph, hbuild, hrow⟩ := bind_ok_iff.mp h
  obtain ⟨hvision, hbuilt⟩ := (Transformer.build_eq_ok hnames).mp hbuild
  have hgroups : List.Forall₂ (t.BuiltFrom args.batchSize args.lin args.lout)
      ((sys.entriesOf t routing).filter fun e => decide (0 < e.count)) graph.groups := hbuilt
  -- the other routing builds its groups from the same blocks
  have hblocks := (exists_builtFrom_iff hdeep).mp ⟨_, hgroups⟩
  obtain ⟨groups', hgroups'⟩ := (exists_builtFrom_iff hdeep).mpr fun d hd =>
    hblocks d (hperm.mem_iff.mpr hd)
  have hbuild' : t.build args.batchSize args.lin args.lout sys.isHetero routing' sys.imageSize =
      .ok ⟨graph.visionDecoder, groups'⟩ :=
    (Transformer.build_eq_ok hnames').mpr ⟨hvision, hgroups'⟩
  refine bind_ok_iff.mpr ⟨_, hbuild', (simulateGraph_congr ?_ row).mp hrow⟩
  -- and every iteration over them adds up the same totals
  intro bs totals
  rw [batchTotals_of_build hdeep hgroups, batchTotals_of_build hdeep hgroups',
    (hperm.map _).sum_eq]
  simp only [hperm.mem_iff]

/-- **Without DeepStack, a run depends on the devices of the layers only**: two routings
that assign the same devices, in whatever order and grouping, give the same row. -/
theorem simulateRouting_congr (hdeep : t.NoDeepStack)
    {routing routing' : Option (List RoutingEntry)}
    (hnames : ((sys.entriesOf t routing).map RoutingEntry.groupName).Nodup)
    (hnames' : ((sys.entriesOf t routing').map RoutingEntry.groupName).Nodup)
    (hperm : (assignment (sys.entriesOf t routing)).Perm
      (assignment (sys.entriesOf t routing'))) :
    (sys.simulateRouting t args routing).toOption =
      (sys.simulateRouting t args routing').toOption :=
  toOption_eq_of_ok_iff fun _ => ⟨simulateRouting_of_perm hdeep hnames hnames' hperm,
    simulateRouting_of_perm hdeep hnames' hnames hperm.symm⟩

end Run

end Platform

end AttAcc
