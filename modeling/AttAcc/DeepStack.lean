import AttAcc.LayerLists
import AttAcc.Completion

/-!
# DeepStack injections

A DeepStack model adds visual features to the hidden states of some of its layers, and a
prefill block knows its layer only by the index its group carries. Every routing of such a
model keeps one group for each layer, with its index: the constructor of `Routing` forces the
`list` mode, `simulate` does so where no mode is set, and `build` does so on its own. So each
listed layer is injected into once, and no other is (`System.deepStack_of_routing`).
-/

namespace AttAcc

open Library

namespace Transformer

variable {t : Transformer}

/-- Is it a DeepStack injection? -/
def isDeepstackAdd (a : LayerArgs) : Bool := decide (a.name = .deepstackAdd)

/-- The number of DeepStack injections in a block. -/
def injections (block : List Layer) : ℕ := block.countP fun l => isDeepstackAdd l.toLayerArgs

/-- The groups of a graph whose DeepStack injections are where the model wants them. -/
structure InjectsDeepStack (t : Transformer) (graph : Graph) : Prop where
  /-- one group for each layer, in order -/
  groups : graph.groups.map (fun g => (g.name, g.count, g.indices)) =
    (List.range t.ndec).map fun idx => (.l idx, 1, some [idx])
  /-- the prefill block of a listed layer injects once, that of any other not at all -/
  prefill : ∀ g ∈ graph.groups, ∀ idx, g.name = .l idx →
    injections g.sumDecoder = if (idx : ℤ) ∈ t.deepstackLayers then 1 else 0
  /-- no decode block injects -/
  decode : ∀ g ∈ graph.groups, ∀ block ∈ g.genDecoder, injections block = 0
  /-- the graph injects once for each listed layer -/
  counted : (graph.groups.map fun g => g.count * injections g.sumDecoder).sum =
    (Routing.listed t.deepstackLayers t.ndec).card

/-! ## The blocks -/

/-- Blocks without injections, by their layers. -/
theorem countP_eq_zero_of_names {as : List LayerArgs} (h : ∀ a ∈ as, a.name ≠ .deepstackAdd) :
    as.countP isDeepstackAdd = 0 := by
  refine List.countP_eq_zero.mpr ?_
  intro a ha
  simpa [isDeepstackAdd] using h a ha

theorem countP_ffnArgs (stage : Stage) (tokens ffPerTp : ℕ) :
    (t.ffnArgs stage tokens ffPerTp).countP isDeepstackAdd = 0 := by
  have hactivation : t.activationName ≠ .deepstackAdd := by
    rw [activationName]
    split <;> decide
  refine countP_eq_zero_of_names ?_
  intro a ha
  rw [ffnArgs] at ha
  split at ha
  · simp only [List.mem_cons, List.not_mem_nil, or_false] at ha
    rcases ha with rfl | rfl | rfl | rfl
    · simp
    · simp
    · simp
    · simp
  · simp only [List.mem_cons, List.not_mem_nil, or_false] at ha
    rcases ha with rfl | rfl | rfl
    · simp
    · exact hactivation
    · simp

/-- After attention nothing is injected. -/
theorem countP_finishArgs (stage : Stage) (tokens hdimPerTp ffPerTp : ℕ) :
    (t.finishArgs stage tokens hdimPerTp ffPerTp).countP isDeepstackAdd = 0 := by
  rw [finishArgs, List.countP_append, List.countP_append, countP_ffnArgs]
  rfl

/-- A prefill block injects once if its layer is listed. -/
theorem countP_sumBlock (s : Shards t) (batch lin : ℕ) (attnOnHetero : Bool) (idx : ℕ) :
    (sumBlock s batch lin attnOnHetero (some idx)).countP isDeepstackAdd =
      if (idx : ℤ) ∈ t.deepstackLayers then 1 else 0 := by
  rw [sumBlock, List.countP_append, countP_finishArgs, Nat.add_zero, sumAttnArgs]
  by_cases hidx : (idx : ℤ) ∈ t.deepstackLayers
  · cases attnOnHetero <;> simp [hidx, isDeepstackAdd]
  · cases attnOnHetero <;> simp [hidx, isDeepstackAdd]

/-- A decode block does not inject. -/
theorem countP_genBlock (s : GenShards t) (batch lin stage : ℕ) (attnOnHetero : Bool) :
    (genBlock s batch lin stage attnOnHetero).countP isDeepstackAdd = 0 := by
  rw [genBlock, List.countP_append, countP_finishArgs, Nat.add_zero, genAttnArgs]
  cases attnOnHetero <;> simp [isDeepstackAdd]

theorem injections_eq_countP (block : List Layer) :
    injections block = (block.map Layer.toLayerArgs).countP isDeepstackAdd := by
  rw [List.countP_map]
  rfl

/-- What a group injects that is built for a layer index. -/
theorem injections_of_builtFrom {batch lin lout idx : ℕ} {e : RoutingEntry} {g : Group}
    (hg : BuiltFrom t batch lin lout e g) (hindices : e.indices = some [idx]) :
    injections g.sumDecoder = (if (idx : ℤ) ∈ t.deepstackLayers then 1 else 0) ∧
      ∀ block ∈ g.genDecoder, injections block = 0 := by
  have hblocks := hg.blocks
  rw [hindices] at hblocks
  obtain ⟨-, s, hsum, hgen⟩ := buildBlocks_eq_ok.mp hblocks
  refine ⟨?_, ?_⟩
  · rw [injections_eq_countP, hsum]
    exact countP_sumBlock s _ _ _ idx
  · intro block hblock
    obtain ⟨stage, -, hargs⟩ := exists_of_forall₂_right hgen hblock
    rw [injections_eq_countP, hargs]
    exact countP_genBlock s.toGenShards _ _ _ _

/-! ## The groups -/

/-- A routing with one entry for each layer, which carries its index. -/
def KeepsIndices (entries : List RoutingEntry) (ndec : ℕ) : Prop :=
  entries.map (fun e => (e.groupName, e.count, e.indices)) =
    (List.range ndec).map fun idx => (.l idx, 1, some [idx])

theorem KeepsIndices.exists_index {entries : List RoutingEntry} {ndec : ℕ}
    (h : KeepsIndices entries ndec) {e : RoutingEntry} (he : e ∈ entries) :
    ∃ idx, e.groupName = .l idx ∧ e.count = 1 ∧ e.indices = some [idx] := by
  have hmem : (e.groupName, e.count, e.indices) ∈
      entries.map fun e => (e.groupName, e.count, e.indices) :=
    List.mem_map_of_mem (f := fun e : RoutingEntry => (e.groupName, e.count, e.indices)) he
  rw [h] at hmem
  obtain ⟨idx, -, hidx⟩ := List.mem_map.mp hmem
  simp only [Prod.mk.injEq] at hidx
  exact ⟨idx, hidx.1.symm, hidx.2.1.symm, hidx.2.2.symm⟩

/-- Such a routing skips no entry. -/
theorem KeepsIndices.filter_eq {entries : List RoutingEntry} {ndec : ℕ}
    (h : KeepsIndices entries ndec) : (entries.filter fun e => decide (0 < e.count)) = entries := by
  refine List.filter_eq_self.mpr ?_
  intro e he
  obtain ⟨idx, -, hcount, -⟩ := h.exists_index he
  exact decide_eq_true (by omega)

/-- Groups keep what their entries say of them. -/
theorem map_key_of_builtFrom {batch lin lout : ℕ} {entries : List RoutingEntry}
    {groups : List Group} (hbuilt : List.Forall₂ (BuiltFrom t batch lin lout) entries groups) :
    groups.map (fun g => (g.name, g.count, g.indices)) =
      entries.map fun e => (e.groupName, e.count, e.indices) := by
  refine map_eq_map_of_forall₂ hbuilt ?_
  intro e g hg
  rw [hg.name, hg.count, hg.indices]

/-- The listed layers, counted over all of them. -/
theorem countP_mem_layers (layers : List ℤ) (ndec : ℕ) :
    (List.range ndec).countP (fun idx : ℕ => decide ((idx : ℤ) ∈ layers)) =
      (Routing.listed layers ndec).card := by
  have hmem : ∀ {idx : ℤ}, idx ∈ Routing.listed layers ndec ↔
      idx ∈ layers ∧ 0 ≤ idx ∧ idx < ndec := by
    intro idx
    rw [Routing.listed, Finset.mem_filter, List.mem_toFinset]
  rw [← Routing.countP_mem_of_subset fun _ hidx => (hmem.mp hidx).2]
  refine List.countP_congr ?_
  intro idx hidx
  have hlt : idx < ndec := List.mem_range.mp hidx
  rw [decide_eq_true_eq, decide_eq_true_eq, hmem]
  exact (and_iff_left ⟨Int.natCast_nonneg idx, Int.ofNat_lt.mpr hlt⟩).symm

/-- **Groups that are built for every layer index inject where they should.** -/
theorem injectsDeepStack_of_builtFrom {batch lin lout : ℕ} {entries : List RoutingEntry}
    {graph : Graph} (hentries : KeepsIndices entries t.ndec)
    (hbuilt : List.Forall₂ (BuiltFrom t batch lin lout) entries graph.groups) :
    InjectsDeepStack t graph := by
  have hkeys : graph.groups.map (fun g => (g.name, g.count, g.indices)) =
      (List.range t.ndec).map fun idx => (.l idx, 1, some [idx]) :=
    (map_key_of_builtFrom hbuilt).trans hentries
  have hgroup : ∀ g ∈ graph.groups, ∃ idx, g.name = .l idx ∧ g.count = 1 ∧
      injections g.sumDecoder = (if (idx : ℤ) ∈ t.deepstackLayers then 1 else 0) ∧
        ∀ block ∈ g.genDecoder, injections block = 0 := by
    intro g hg
    obtain ⟨e, he, hfrom⟩ := exists_of_forall₂_right hbuilt hg
    obtain ⟨idx, hname, hcount, hindices⟩ := hentries.exists_index he
    exact ⟨idx, hfrom.name.trans hname, hfrom.count.trans hcount,
      injections_of_builtFrom hfrom hindices⟩
  have hprefill : ∀ g ∈ graph.groups, ∀ idx, g.name = .l idx →
      injections g.sumDecoder = if (idx : ℤ) ∈ t.deepstackLayers then 1 else 0 := by
    intro g hg idx hname
    obtain ⟨idx', hname', -, hsum, -⟩ := hgroup g hg
    obtain rfl := GroupName.l.inj (hname'.symm.trans hname)
    exact hsum
  refine ⟨hkeys, hprefill, ?_, ?_⟩
  · intro g hg
    obtain ⟨_, -, -, -, hgen⟩ := hgroup g hg
    exact hgen
  · -- a group's injections are a function of its name
    let perName : GroupName × ℕ × Option (List ℕ) → ℕ := fun key =>
      match key.1 with
      | .l idx => if (idx : ℤ) ∈ t.deepstackLayers then 1 else 0
      | _ => 0
    have hperName : graph.groups.map (fun g => g.count * injections g.sumDecoder) =
        (graph.groups.map fun g => (g.name, g.count, g.indices)).map perName := by
      rw [List.map_map]
      refine List.map_congr_left ?_
      intro g hg
      obtain ⟨idx, hname, hcount, hsum, -⟩ := hgroup g hg
      show g.count * injections g.sumDecoder = perName (g.name, g.count, g.indices)
      rw [hcount, Nat.one_mul, hsum, hname]
    rw [hperName, hkeys, List.map_map, ← countP_mem_layers, ← sum_map_ite_one]
    refine congrArg List.sum (List.map_congr_left ?_)
    intro idx _
    show (if (idx : ℤ) ∈ t.deepstackLayers then 1 else 0) = _
    simp only [decide_eq_true_eq]

end Transformer

namespace System

variable {sys : System} {t : Transformer} {groups : Option (List RoutingEntry)} {graph : Graph}

/-- `list` mode keeps the indices. -/
theorem keepsIndices_of_toGroups {r : Routing} (hmode : r.mode = .list) {ndec : ℕ}
    {entries : List RoutingEntry} (h : r.toGroups ndec = .ok entries) :
    Transformer.KeepsIndices entries ndec := by
  rw [Routing.toGroups, hmode] at h
  obtain rfl := Except.ok.inj h
  rw [Transformer.KeepsIndices, List.map_map]
  rfl

/-- **Whatever routing a DeepStack model gets, it keeps the indices of its layers.** -/
theorem keepsIndices_of_routing (hdeep : t.hasDeepstack = true)
    (hrouting : sys.routing t = .ok groups) :
    Transformer.KeepsIndices (sys.entriesOf t groups) t.ndec := by
  have hforced : ∀ mode layerList device,
      (Routing.new t.hasDeepstack mode layerList device).mode = .list :=
    fun mode layerList device => (Routing.new _ mode layerList device).deepstack_mode hdeep
  unfold routing at hrouting
  split at hrouting
  · obtain ⟨entries, hentries, hrouting⟩ := bind_ok_iff.mp hrouting
    obtain rfl := Except.ok.inj hrouting
    exact keepsIndices_of_toGroups (hforced _ _ _) hentries
  · split_ifs at hrouting with hhetero
    · obtain ⟨entries, hentries, hrouting⟩ := bind_ok_iff.mp hrouting
      obtain rfl := Except.ok.inj hrouting
      exact keepsIndices_of_toGroups (hforced _ _ _) hentries
    · -- no routing is passed, and build puts in its own
      obtain rfl := Except.ok.inj hrouting
      rw [Platform.entriesOf, Option.getD_none, Transformer.defaultRouting, if_pos hdeep,
        Transformer.KeepsIndices, List.map_map]
      rfl

/-- **DeepStack injections survive every routing**: whatever the accelerator, the mode and the
layer list, the graph that `simulate` builds injects into each listed layer once. -/
theorem deepStack_of_routing (args : SimArgs) (hdeep : t.hasDeepstack = true)
    (hrouting : sys.routing t = .ok groups)
    (hbuild : t.build args.batchSize args.lin args.lout sys.isHetero groups sys.imageSize =
      .ok graph) : t.InjectsDeepStack graph := by
  have hentries := keepsIndices_of_routing hdeep hrouting
  have hbuilt := builtFrom_of_routing hrouting hbuild
  rw [hentries.filter_eq] at hbuilt
  exact Transformer.injectsDeepStack_of_builtFrom hentries hbuilt

/-- Qwen3-VL on a DGX with AttAcc, which is set to route conservatively. -/
theorem deepStack_of_routing_qwen3VL : ∃ t groups graph,
    Transformer.new (makeModelConfig .qwen3VL4B .W16A16) 8 = .ok t ∧ t.hasDeepstack = true ∧
      ((dgxAttacc t oneCycle).setRouting .conservative none).routing t = .ok groups ∧
      t.build 2 16 4 true groups none = .ok graph ∧ t.InjectsDeepStack graph := by
  obtain ⟨t, ht, hdeep, hsupp, ⟨vision, hvision⟩, ⟨shards⟩⟩ : ∃ t,
      Transformer.new (makeModelConfig .qwen3VL4B .W16A16) 8 = .ok t ∧ t.hasDeepstack = true ∧
        t.dtype.Supported ∧ (∃ vision, t.buildVision 2 none = .ok vision) ∧
          Nonempty (Shards t) :=
    ⟨_, rfl, rfl, .inl rfl, ⟨_, rfl⟩, ⟨⟨⟨4, 1, 768, 512, 320, 1216, by decide, by decide, rfl, rfl,
      rfl, rfl, rfl, rfl⟩, 512, 128, rfl, rfl⟩⟩⟩
  have hforced : (Routing.new t.hasDeepstack .conservative none .pim).mode = .list :=
    (Routing.new _ _ _ _).deepstack_mode hdeep
  obtain ⟨entries, hentries, -⟩ := Routing.toGroups_list hforced t.ndec
  have hrouting : ((dgxAttacc t oneCycle).setRouting .conservative none).routing t =
      .ok (some entries) := bind_ok_iff.mpr ⟨entries, hentries, rfl⟩
  have hvision : t.buildVision shortArgs.batchSize
      ((dgxAttacc t oneCycle).setRouting .conservative none).imageSize = .ok vision := hvision
  obtain ⟨graph, hbuild, -⟩ := exists_build shortArgs hsupp shards hvision hrouting
  exact ⟨t, some entries, graph, ht, hdeep, hrouting, hbuild,
    deepStack_of_routing shortArgs hdeep hrouting hbuild⟩

end System

end AttAcc
