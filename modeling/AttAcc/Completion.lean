import AttAcc.RoutingModes
import AttAcc.TimedBlocks

/-!
# When a run completes

The divisors of `simulate`: those of the devices, and those of the passes over the timed
layers, which positive parameters keep from zero, and at last the decode time, which the
printed throughput divides by. The number of steps is kept from zero by `max(1, lout - 1)`,
but with `lout = 1` there is no decode block to take any time, and a run raises
(`simulate_completes_iff`).
-/

namespace AttAcc

open Library

/-! ## A built group -/

theorem GenShards.kvHeads_pos {t : Transformer} (s : GenShards t) : 0 < s.kvHeads := by
  have hkv := t.numKvHeads_pos
  rw [s.numKvHeads_eq] at hkv
  exact Nat.pos_of_mul_pos_right hkv

namespace Transformer

variable {t : Transformer} {batch lin lout : ℕ}

theorem not_isScore_finishArgs {stage : Stage} {tokens hdimPerTp ffPerTp : ℕ} :
    ∀ a ∈ t.finishArgs stage tokens hdimPerTp ffPerTp, ¬a.name.IsScore := by
  rcases hffn : t.ffnType with _ | _ <;> rcases hact : t.activation with _ | _ | _ | _ <;>
    simp [finishArgs, projArgs, ffnArgs, closeArgs, activationName, hffn, hact, LayerName.IsScore]

/-- The score of a prefill block is one that a PIM can be asked for. -/
theorem asked_sumBlock (hbatch : 0 < batch) (hlin : 0 < lin) (s : Shards t) (onHetero : Bool)
    (layerIdx : Option ℕ) :
    ∀ a ∈ sumBlock s batch lin onHetero layerIdx, a.name.IsScore → a.Asked t.dhead := by
  have hkv := s.toGenShards.kvHeads_pos
  have hattn : ∀ a ∈ t.sumAttnArgs batch lin onHetero layerIdx (s.qHeads * batch)
      (s.kvHeads * batch) s.qkvPerTp s.qPerFcTp s.kvPerFcTp s.qPerAttnTp,
        a.name.IsScore → a.type = .MATMUL ∧ a.k = t.dhead ∧ 0 < a.n ∧ 0 < a.pimNumOp := by
    rcases layerIdx with _ | idx
    · rcases onHetero with _ | _ <;> simp [sumAttnArgs, LayerName.IsScore, hkv, hbatch, hlin]
    · by_cases hdeep : (idx : ℤ) ∈ t.deepstackLayers <;> rcases onHetero with _ | _ <;>
        simp [sumAttnArgs, LayerName.IsScore, hdeep, hkv, hbatch, hlin]
  intro a ha hname
  rcases List.mem_append.mp ha with ha | ha
  · obtain ⟨htype, hk, hn, hnumOp⟩ := hattn a ha hname
    exact ⟨htype, hk, hn, hnumOp⟩
  · exact absurd hname (not_isScore_finishArgs a ha)

/-- So is that of a decode block. -/
theorem asked_genBlock (hbatch : 0 < batch) {stage : ℕ} (hstage : 0 < stage) (s : GenShards t)
    (onHetero : Bool) :
    ∀ a ∈ genBlock s batch lin stage onHetero, a.name.IsScore → a.Asked t.dhead := by
  have hkv := s.kvHeads_pos
  have hattn : ∀ a ∈ t.genAttnArgs batch (lin + stage) onHetero (s.qHeads * batch)
      (s.kvHeads * batch) s.qkvPerTp s.qPerAttnTp,
        a.name.IsScore → a.type = .MATMUL ∧ a.k = t.dhead ∧ 0 < a.n ∧ 0 < a.pimNumOp := by
    rcases onHetero with _ | _ <;>
      simp [genAttnArgs, LayerName.IsScore, hkv, hbatch, hstage]
  intro a ha hname
  rcases List.mem_append.mp ha with ha | ha
  · obtain ⟨htype, hk, hn, hnumOp⟩ := hattn a ha hname
    exact ⟨htype, hk, hn, hnumOp⟩
  · exact absurd hname (not_isScore_finishArgs a ha)

/-- The layers of the blocks of a group: those of prefill, and those of every decode step. -/
structure BuiltBlocks (t : Transformer) (sumDecoder : List Layer)
    (genDecoder : List (List Layer)) : Prop where
  asked : ∀ l ∈ sumDecoder, l.name.IsScore → l.toLayerArgs.Asked t.dhead
  gen : ∀ block ∈ genDecoder, Platform.FreshDecodeBlock t (block.map .fresh)

theorem map_layer_fresh (ls : List Layer) : (ls.map SimLayer.fresh).map SimLayer.layer = ls := by
  rw [List.map_map]
  exact List.map_id ls

theorem freshDecodeBlock_of_buildGenStage (hbatch : 0 < batch) {stage : ℕ} (hstage : 0 < stage)
    {onHetero : Bool} {block : List Layer}
    (h : t.buildGenStage batch lin stage onHetero = .ok block) :
    Platform.FreshDecodeBlock t (block.map .fresh) := by
  obtain ⟨-, s, hargs⟩ := buildGenStage_eq_ok.mp h
  refine ⟨⟨onHetero, batch, lin, stage, by rw [map_layer_fresh]; exact h⟩, ?_, ?_⟩
  · have hmem : (⟨.gen, .norm1, .NORM, false, t.dtype, batch, t.hdim, 1, 1, 1⟩ : LayerArgs) ∈
        block.map Layer.toLayerArgs := by
      rw [hargs]
      simp [genBlock, finishArgs, projArgs]
    obtain ⟨l, hl, hnorm⟩ := List.mem_map.mp hmem
    exact ⟨.fresh l, List.mem_map_of_mem hl, congrArg LayerArgs.name hnorm,
      congrArg LayerArgs.type hnorm⟩
  · rw [List.forall_mem_map]
    intro l hl
    have hmem : l.toLayerArgs ∈ genBlock s batch lin stage onHetero :=
      hargs ▸ List.mem_map_of_mem hl
    exact asked_genBlock hbatch hstage s onHetero l.toLayerArgs hmem

theorem builtBlocks_of_buildBlocks (hbatch : 0 < batch) (hlin : 0 < lin) {device : RoutingDevice}
    {layerIdx : Option ℕ} {sumDecoder : List Layer} {genDecoder : List (List Layer)}
    (h : t.buildBlocks batch lin lout device layerIdx = .ok (sumDecoder, genDecoder)) :
    BuiltBlocks t sumDecoder genDecoder := by
  obtain ⟨sum, hsum, h⟩ := bind_ok_iff.mp h
  obtain ⟨gen, hgen, h⟩ := bind_ok_iff.mp h
  obtain ⟨rfl, rfl⟩ := Prod.mk.inj (Except.ok.inj h)
  refine ⟨?_, ?_⟩
  · obtain ⟨-, s, hargs⟩ := buildSum_eq_ok.mp hsum
    intro l hl
    have hmem : l.toLayerArgs ∈ sumBlock s batch lin (decide (device ≠ .gpu)) layerIdx :=
      hargs ▸ List.mem_map_of_mem hl
    exact asked_sumBlock hbatch hlin s _ layerIdx l.toLayerArgs hmem
  · intro block hblock
    obtain ⟨stage, hstage, hgenStage⟩ := exists_of_mem_mapM hgen block hblock
    exact freshDecodeBlock_of_buildGenStage hbatch (List.mem_range'_1.mp hstage).1 hgenStage

/-- There is a decode block for every token but the first. -/
theorem length_of_buildBlocks {device : RoutingDevice} {layerIdx : Option ℕ}
    {sumDecoder : List Layer} {genDecoder : List (List Layer)}
    (h : t.buildBlocks batch lin lout device layerIdx = .ok (sumDecoder, genDecoder)) :
    genDecoder.length = lout - 1 := by
  obtain ⟨-, s, -, hgen⟩ := buildBlocks_eq_ok.mp h
  rw [← hgen.length_eq, List.length_range']

end Transformer

/-- The layers of a group: those of prefill, and those of every decode step. -/
def Group.layers (g : Group) : List Layer := g.sumDecoder ++ g.genDecoder.flatten

namespace Platform

variable {sys : Platform} {gpu : XpuConfig} {acc : AccConfig} {device : RoutingDevice}
  {t : Transformer} {args : PassArgs} {bs : ℕ}

/-- `_simulate_sum_group` returns exactly where every layer is timed. -/
theorem exists_simulateSumGroup_iff (h : sys.Positive gpu acc t.dhead)
    (hpim : device = .pim → ∃ c output, acc = .pim c output) {ls : List SimLayer}
    (hasked : device ≠ .gpu →
      ∀ l ∈ ls, l.layer.name.IsScore → l.layer.toLayerArgs.Asked t.dhead) :
    (∃ out, sys.simulateSumGroup args device ls = .ok out) ↔
      ∀ l ∈ ls, Timed gpu acc device l.layer.toLayerArgs := by
  refine ⟨?_, ?_⟩
  · rintro ⟨out, hout⟩ l hl
    obtain ⟨timed, htimed, -⟩ := bind_ok_iff.mp hout
    obtain ⟨o, ho⟩ := exists_simulateSumLayers_iff.mp ⟨timed, htimed⟩ l hl
    exact timed_of_timeSum h hpim (fun hdevice => hasked hdevice l hl) ho
  · intro hls
    obtain ⟨timed, htimed⟩ : ∃ timed, sys.simulateSumLayers device 0 0 ls = .ok timed := by
      apply exists_simulateSumLayers_iff.mpr
      intro l hl
      exact exists_timeSum h hpim (fun hdevice => hasked hdevice l hl) (hls l hl)
    have hhbm : 0 < sys.acc.numHbm := h.acc_eq ▸ AccConfig.numHbm_pos h.acc
    obtain ⟨adjusted, hadjusted, -⟩ := exists_applyEffLat hhbm args.batchSize device timed
    exact ⟨_, bind_ok_iff.mpr ⟨timed, htimed, bind_ok_iff.mpr ⟨adjusted, hadjusted, rfl⟩⟩⟩

/-- `_simulate_gen_group` does, too. -/
theorem exists_simulateGenBlocks_iff (h : sys.Positive gpu acc t.dhead) (hbs : 0 < bs)
    {blocks : List (List SimLayer)} (hfresh : ∀ block ∈ blocks, FreshDecodeBlock t block)
    {energies : GenEnergies} :
    (∃ out, sys.simulateGenBlocks t args bs device energies blocks = .ok out) ↔
      ∀ block ∈ blocks, ∀ l ∈ block, Timed gpu acc device l.layer.toLayerArgs := by
  refine ⟨?_, ?_⟩
  · rintro ⟨⟨out, energies'⟩, hout⟩
    exact timed_of_simulateGenBlocks h hout
  · intro hblocks
    obtain ⟨out, energies', hout, -⟩ := exists_simulateGenBlocks h args hbs hfresh hblocks energies
    exact ⟨(out, energies'), hout⟩

/-- A built group reports totals exactly where every layer is timed. -/
theorem exists_groupTotals_iff (h : sys.Positive gpu acc t.dhead) (hbs : 0 < bs) {g : Group}
    (hpim : g.device = .pim → ∃ c output, acc = .pim c output)
    (hg : t.BuiltBlocks g.sumDecoder g.genDecoder) :
    (∃ totals, sys.groupTotals t args bs (.fresh g) = .ok totals) ↔
      ∀ l ∈ g.layers, Timed gpu acc g.device l.toLayerArgs := by
  have hsum : (∃ out, sys.simulateSumGroup args g.device (g.sumDecoder.map .fresh) = .ok out) ↔
      ∀ l ∈ g.sumDecoder, Timed gpu acc g.device l.toLayerArgs := by
    rw [exists_simulateSumGroup_iff h hpim ?_, List.forall_mem_map]
    · rfl
    · rw [List.forall_mem_map]
      exact fun _ => hg.asked
  have hgen : (∃ out, sys.simulateGenBlocks t args bs g.device .zero
      (g.genDecoder.map fun block => block.map .fresh) = .ok out) ↔
      ∀ l ∈ g.genDecoder.flatten, Timed gpu acc g.device l.toLayerArgs := by
    rw [exists_simulateGenBlocks_iff h hbs (List.forall_mem_map.mpr hg.gen)]
    simp only [List.forall_mem_map, List.forall_mem_flatten]
    rfl
  rw [Group.layers, List.forall_mem_append, ← hsum, ← hgen]
  refine ⟨?_, ?_⟩
  · rintro ⟨totals, htotals⟩
    obtain ⟨g', htotals⟩ := groupTotals_eq_ok.mp htotals
    obtain ⟨sDecoder, hsum, htotals⟩ := bind_ok_iff.mp htotals
    obtain ⟨gDecoder, hgen, -⟩ := bind_ok_iff.mp htotals
    obtain ⟨blocks, hblocks, -⟩ := bind_ok_iff.mp hgen
    exact ⟨⟨sDecoder, hsum⟩, ⟨blocks, hblocks⟩⟩
  · rintro ⟨⟨⟨sDecoder, sFlops⟩, hsum⟩, ⟨⟨gDecoder, energies⟩, hgen⟩⟩
    exact ⟨_, groupTotals_eq_ok.mpr ⟨_, bind_ok_iff.mpr ⟨_, hsum,
      bind_ok_iff.mpr ⟨_, bind_ok_iff.mpr ⟨_, hgen, rfl⟩, rfl⟩⟩⟩⟩

/-- With a decode step there is decode time. -/
theorem groupTotals_gPerf_pos (h : sys.Positive gpu acc t.dhead) (hbs : 0 < bs) {g : Group}
    (hg : t.BuiltBlocks g.sumDecoder g.genDecoder) (hne : g.genDecoder ≠ []) {totals : Totals}
    (htotals : sys.groupTotals t args bs (.fresh g) = .ok totals) : 0 < totals.gPerf .all := by
  obtain ⟨g', htotals⟩ := groupTotals_eq_ok.mp htotals
  obtain ⟨⟨sDecoder, sFlops⟩, -, htotals⟩ := bind_ok_iff.mp htotals
  obtain ⟨⟨gDecoder, gFlops, energies⟩, hgen, htotals⟩ := bind_ok_iff.mp htotals
  obtain ⟨-, rfl⟩ := Prod.mk.inj (Except.ok.inj htotals)
  obtain ⟨⟨blocks, energies'⟩, hblocks, hgen⟩ := bind_ok_iff.mp hgen
  obtain ⟨rfl, -⟩ := Prod.mk.inj (Except.ok.inj hgen)
  obtain ⟨out, energies'', hout, hlength, hruns⟩ := exists_simulateGenBlocks h args hbs
    (List.forall_mem_map.mpr hg.gen) (timed_of_simulateGenBlocks h hblocks) .zero
  obtain ⟨rfl, -⟩ := Prod.mk.inj (Except.ok.inj (hblocks.symm.trans hout))
  have hblocksNe : blocks ≠ [] := by
    intro hnil
    rw [hnil, List.length_map] at hlength
    exact hne (List.length_eq_zero_iff.mp hlength.symm)
  have hsteps : (0 : ℚ) < args.genSteps := Nat.cast_pos.mpr (lt_max_of_lt_left Nat.one_pos)
  exact div_pos (collectGPerf_all_pos hblocksNe hruns) hsteps

/-! ## An iteration -/

end Platform

/-- A built graph, for an accelerator: only a PIM is sent the layers of a PIM group. -/
structure Graph.BuiltFor (graph : Graph) (t : Transformer) (acc : AccConfig) : Prop where
  blocks : ∀ g ∈ graph.groups, t.BuiltBlocks g.sumDecoder g.genDecoder
  pim : ∀ g ∈ graph.groups, g.device = .pim → ∃ c output, acc = .pim c output

/-- A graph of which every layer is timed where it is sent, the vision graph on the GPU. -/
structure Graph.AllTimed (graph : Graph) (gpu : XpuConfig) (acc : AccConfig) : Prop where
  vision : ∀ l ∈ graph.visionDecoder, Timed gpu acc .gpu l.toLayerArgs
  groups : ∀ g ∈ graph.groups, ∀ l ∈ g.layers, Timed gpu acc g.device l.toLayerArgs

theorem Totals.gPerf_sum (rs : List Totals) (key : GPerfKey) :
    rs.sum.gPerf key = (rs.map fun r => r.gPerf key).sum := by
  induction rs with
  | nil => rfl
  | cons r rs ih =>
    rw [List.sum_cons, Totals.gPerf_add, Pi.add_apply, ih, List.map_cons, List.sum_cons]

namespace Platform

variable {sys : Platform} {gpu : XpuConfig} {acc : AccConfig} {t : Transformer} {args : PassArgs}
  {bs : ℕ} {graph : Graph}

theorem exists_visionTotals_iff (h : sys.Positive gpu acc t.dhead) {vision : List Layer} :
    (∃ totals, sys.visionTotals t args (vision.map .fresh) = .ok totals) ↔
      ∀ l ∈ vision, Timed gpu acc .gpu l.toLayerArgs := by
  have hsum : (∃ out, sys.simulateSumGroup args .gpu (vision.map .fresh) = .ok out) ↔
      ∀ l ∈ vision, Timed gpu acc .gpu l.toLayerArgs := by
    have hgpu : RoutingDevice.gpu ≠ .pim := by decide
    rw [exists_simulateSumGroup_iff h (fun hpim => absurd hpim hgpu) fun hne => absurd rfl hne,
      List.forall_mem_map]
    rfl
  rcases vision with _ | ⟨l, ls⟩
  · exact ⟨fun _ l hl => absurd hl List.not_mem_nil, fun _ => ⟨0, rfl⟩⟩
  · rw [← hsum]
    refine ⟨?_, ?_⟩
    · rintro ⟨totals, htotals⟩
      obtain ⟨vision', htotals⟩ := visionTotals_eq_ok.mp htotals
      obtain ⟨out, hout, -⟩ := bind_ok_iff.mp htotals
      exact ⟨out, hout⟩
    · rintro ⟨⟨vision', flops⟩, hout⟩
      exact ⟨_, visionTotals_eq_ok.mpr ⟨vision', bind_ok_iff.mpr ⟨_, hout, rfl⟩⟩⟩

/-- An iteration returns exactly where every layer of the graph is timed. -/
theorem exists_batchTotals_iff (h : sys.Positive gpu acc t.dhead) (hbs : 0 < bs)
    (hgraph : graph.BuiltFor t acc) :
    (∃ totals, sys.batchTotals t args bs (.fresh graph) = .ok totals) ↔
      graph.AllTimed gpu acc := by
  have hgroups : (∀ g ∈ (SimGraph.fresh graph).groups, ∃ r, sys.groupTotals t args bs g = .ok r) ↔
      ∀ g ∈ graph.groups, ∀ l ∈ g.layers, Timed gpu acc g.device l.toLayerArgs := by
    rw [SimGraph.fresh, List.forall_mem_map]
    refine forall₂_congr fun g hg => ?_
    exact exists_groupTotals_iff h hbs (hgraph.pim g hg) (hgraph.blocks g hg)
  refine ⟨?_, ?_⟩
  · rintro ⟨totals, htotals⟩
    obtain ⟨vision, hvision, htimed, -⟩ := batchTotals_eq_ok.mp htotals
    exact ⟨(exists_visionTotals_iff h).mp ⟨vision, hvision⟩, hgroups.mp htimed⟩
  · rintro ⟨hvision, htimed⟩
    obtain ⟨vision, hvision⟩ := (exists_visionTotals_iff h).mpr hvision
    exact ⟨_, batchTotals_eq_ok.mpr ⟨vision, hvision, hgroups.mpr htimed, rfl⟩⟩

/-- Groups with decode steps take decode time. -/
theorem batchTotals_gPerf_pos (h : sys.Positive gpu acc t.dhead) (hbs : 0 < bs)
    (hgraph : graph.BuiltFor t acc) (hne : graph.groups ≠ [])
    (hgen : ∀ g ∈ graph.groups, g.genDecoder ≠ []) {totals : Totals}
    (htotals : sys.batchTotals t args bs (.fresh graph) = .ok totals) :
    0 < totals.gPerf .all := by
  obtain ⟨vision, hvision, hgroups, rfl⟩ := batchTotals_eq_ok.mp htotals
  rw [Totals.gPerf_add, visionTotals_gPerf hvision, zero_add, Totals.gPerf_sum, List.map_map]
  refine List.sum_pos _ ?_ ?_
  · intro time htime
    obtain ⟨fresh, hfresh, rfl⟩ := List.mem_map.mp htime
    obtain ⟨r, hr⟩ := hgroups fresh hfresh
    obtain ⟨g, hg, rfl⟩ := List.mem_map.mp hfresh
    have hpos := groupTotals_gPerf_pos h hbs (hgraph.blocks g hg) (hgen g hg) hr
    have hcount : (0 : ℚ) < g.count := Nat.cast_pos.mpr g.count_pos
    rw [Function.comp_apply, hr, valueOf_ok, ← Totals.scale_eq_nsmul]
    exact mul_pos hpos hcount
  · intro hnil
    exact hne (List.map_eq_nil_iff.mp (List.map_eq_nil_iff.mp hnil))

/-! ## A run -/

section Run

variable {args : SimArgs}

/-- The row is made where the report has decode time. -/
theorem exists_finishRow (h : sys.Positive gpu acc t.dhead) (t : Transformer) (args : SimArgs)
    {results : Results} {report : Report} (hreport : results.all = some report)
    (hpos : 0 < report.gPerf .all) : ∃ row, sys.finishRow t args results = .ok row := by
  have hbw : 0 < sys.gpu.peakMemoryBandwidth := h.gpu_eq ▸ h.gpu.peakMemoryBandwidth
  have hall : results.report = .ok report := by rw [Results.report, hreport]
  have htime : 0 < report.gPerf .all / 1000 := div_pos hpos (by norm_num)
  exact ⟨_, bind_ok_iff.mpr ⟨_, fdiv_of_pos _ hbw, bind_ok_iff.mpr ⟨_, fdiv_of_pos _ hbw,
    bind_ok_iff.mpr ⟨report, hall, bind_ok_iff.mpr ⟨_, fdiv_of_pos _ htime, rfl⟩⟩⟩⟩⟩

/-- The loop returns where every iteration does, and reports decode time where they do. -/
theorem exists_foldlM_resultsStep (hbatch : 1 ≤ args.batchSize)
    (hbatches : ∀ bs, 0 < bs → ∃ totals,
      sys.batchTotals t args.toPassArgs bs (.fresh graph) = .ok totals ∧ 0 < totals.gPerf .all) :
    ∃ results report, (targetBs args).zipIdx.foldlM (sys.resultsStep t args (.fresh graph))
        .initial = .ok results ∧
      results.all = some report ∧ 0 < report.gPerf .all := by
  have hstep : ∀ {bs : ℕ} {totals : Totals},
      sys.batchTotals t args.toPassArgs bs (.fresh graph) = .ok totals → ∀ results itr,
        sys.resultsStep t args (.fresh graph) results (bs, itr) =
          .ok (sys.endBatch t args results (bs, itr) totals) :=
    fun htotals _ _ => bind_ok_iff.mpr ⟨_, htotals, rfl⟩
  have hms : ∀ {totals : Totals}, 0 < totals.gPerf .all →
      0 < (Report.ofTotals totals).gPerf .all := fun hpos => mul_pos hpos (by norm_num)
  obtain ⟨totals, htotals, hpos⟩ := hbatches args.batchSize hbatch
  -- the second iteration, if there is one, adds to what the first one leaves
  let first := sys.endBatch t args .initial (args.batchSize, 0) totals
  by_cases hrest : 0 < args.numReqs ∧ 0 < args.numReqs % args.batchSize
  · obtain ⟨totals', htotals', hpos'⟩ := hbatches _ hrest.2
    refine ⟨sys.endBatch t args first (args.numReqs % args.batchSize, 1) totals',
      .ofTotals totals + .ofTotals totals', ?_, rfl, add_pos (hms hpos) (hms hpos')⟩
    rw [targetBs, if_pos hrest]
    exact bind_ok_iff.mpr ⟨first, hstep htotals .initial 0,
      bind_ok_iff.mpr ⟨_, hstep htotals' first 1, rfl⟩⟩
  · refine ⟨first, .ofTotals totals, ?_, rfl, hms hpos⟩
    rw [targetBs, if_neg hrest]
    exact bind_ok_iff.mpr ⟨first, hstep htotals .initial 0, rfl⟩

/-- A run returns a row where every iteration returns and reports decode time. -/
theorem exists_simulateGraph (h : sys.Positive gpu acc t.dhead) (hbatch : 1 ≤ args.batchSize)
    (hbatches : ∀ bs, 0 < bs → ∃ totals,
      sys.batchTotals t args.toPassArgs bs (.fresh graph) = .ok totals ∧ 0 < totals.gPerf .all) :
    ∃ row, sys.simulateGraph t args graph = .ok row := by
  obtain ⟨results, report, hloop, hreport, hpos⟩ := exists_foldlM_resultsStep hbatch hbatches
  obtain ⟨row, hrow⟩ := exists_finishRow h t args hreport hpos
  exact ⟨row, simulateGraph_eq_ok.mpr ⟨by omega, results, hloop, hrow⟩⟩

end Run

end Platform

/-- A routing names the accelerator and the GPU only. -/
theorem Routing.device_of_toGroups {r : Routing} {ndec : ℕ} {groups : List RoutingEntry}
    (h : r.toGroups ndec = .ok groups) :
    ∀ e ∈ groups, e.device = .gpu ∨ e.device = r.accDevice := by
  -- one case for each mode, the last one for the names that are none
  rcases hmode : r.mode with _ | _ | _ | text
  · rw [toGroups, hmode] at h
    obtain rfl := Except.ok.inj h
    rintro e he
    rw [List.mem_singleton.mp he]
    exact .inr rfl
  · rw [toGroups, hmode] at h
    obtain rfl := Except.ok.inj h
    rintro e he
    rcases List.mem_append.mp he with he | he
    · split_ifs at he
      · rw [List.mem_singleton.mp he]
        exact .inr rfl
      · exact absurd he List.not_mem_nil
    · split_ifs at he
      · rw [List.mem_singleton.mp he]
        exact .inl rfl
      · exact absurd he List.not_mem_nil
  · rw [toGroups, hmode] at h
    obtain rfl := Except.ok.inj h
    rintro e he
    obtain ⟨idx, -, rfl⟩ := List.mem_map.mp he
    show r.layerDevice ndec idx = .gpu ∨ r.layerDevice ndec idx = r.accDevice
    rw [layerDevice]
    split_ifs
    · exact .inr rfl
    · exact .inl rfl
  · rw [toGroups, hmode] at h
    cases h

namespace System

variable {sys : System} {gpu : XpuConfig} {acc : AccConfig} {t : Transformer} {args : SimArgs}
  {groups : Option (List RoutingEntry)} {graph : Graph}

/-- So does the routing of a run. -/
theorem device_of_routing (h : sys.routing t = .ok groups) :
    ∀ e ∈ sys.entriesOf t groups, e.device = .gpu ∨ e.device = sys.acceleratorRoutingName := by
  unfold routing at h
  split at h
  · obtain ⟨groups', hgroups', h⟩ := bind_ok_iff.mp h
    obtain rfl := Except.ok.inj h
    exact Routing.device_of_toGroups hgroups'
  · split_ifs at h with hhetero hdeep
    · obtain ⟨groups', hgroups', h⟩ := bind_ok_iff.mp h
      obtain rfl := Except.ok.inj h
      exact Routing.device_of_toGroups hgroups'
    · obtain rfl := Except.ok.inj h
      intro e he
      rw [List.mem_singleton.mp he]
      exact .inr rfl
    · obtain rfl := Except.ok.inj h
      have hfalse : sys.isHetero = false := Bool.eq_false_iff.mpr hhetero
      intro e he
      rw [Platform.entriesOf, Option.getD_none, Transformer.defaultRouting, hfalse] at he
      simp only [Bool.false_eq_true, if_false] at he
      split_ifs at he
      · obtain ⟨idx, -, rfl⟩ := List.mem_map.mp he
        exact .inl rfl
      · rw [List.mem_singleton.mp he]
        exact .inl rfl

/-- A PIM group is there only with a PIM. -/
theorem acc_eq_pim (h : sys.toPlatform.Positive gpu acc t.dhead)
    (hname : sys.acceleratorRoutingName = .pim) : ∃ c output, acc = .pim c output := by
  have hhetero : sys.heteroName = .PIM := by
    revert hname
    rw [Platform.acceleratorRoutingName]
    cases sys.heteroName <;> simp
  have hpim := sys.acc_pim hhetero
  rw [h.acc_eq] at hpim
  cases acc with
  | xpu c => exact absurd hpim Bool.false_ne_true
  | pim c output => exact ⟨c, output, rfl⟩

section Built

variable (hrouting : sys.routing t = .ok groups)
  (hbuild : t.build args.batchSize args.lin args.lout sys.isHetero groups sys.imageSize =
    .ok graph)

include hrouting hbuild

/-- The groups a run builds, one for every entry of its routing that stands for a layer. -/
theorem builtFrom_of_routing : List.Forall₂ (t.BuiltFrom args.batchSize args.lin args.lout)
    ((sys.entriesOf t groups).filter fun e => decide (0 < e.count)) graph.groups := by
  obtain ⟨devices, hassigns, -⟩ := exists_assigns_of_routing hrouting
  exact ((Transformer.build_eq_ok hassigns.names_nodup).mp hbuild).2

/-- A run builds a graph for its accelerator. -/
theorem builtFor_of_routing (h : sys.toPlatform.Positive gpu acc t.dhead)
    (hbatch : 1 ≤ args.batchSize) (hlin : 1 ≤ args.lin) : graph.BuiltFor t acc := by
  refine ⟨?_, ?_⟩
  · intro g hg
    obtain ⟨layerIdx, hblocks⟩ := Transformer.buildBlocks_of_mem_build hbuild g hg
    exact Transformer.builtBlocks_of_buildBlocks hbatch hlin hblocks
  · intro g hg hdevice
    obtain ⟨e, he, hbuilt⟩ := exists_of_forall₂_right (builtFrom_of_routing hrouting hbuild) hg
    rcases device_of_routing hrouting e (List.mem_of_mem_filter he) with hgpu | hacc
    · rw [hbuilt.device, hgpu] at hdevice
      cases hdevice
    · rw [hbuilt.device, hacc] at hdevice
      exact acc_eq_pim h hdevice

/-- It builds a group exactly where the model has a layer. -/
theorem groups_ne_nil_iff : graph.groups ≠ [] ↔ 0 < t.ndec := by
  obtain ⟨devices, hassigns, hlength⟩ := exists_assigns_of_routing hrouting
  have hgroups := builtFrom_of_routing hrouting hbuild
  have hassign := assignment_filter (sys.entriesOf t groups)
  rw [hassigns.assignment_eq] at hassign
  rw [← hlength]
  rcases hentries : (sys.entriesOf t groups).filter fun e => decide (0 < e.count) with _ | ⟨e, es⟩
  · rw [hentries] at hgroups hassign
    rw [List.forall₂_nil_left_iff.mp hgroups, ← hassign]
    simp
  · have he : 0 < e.count := by
      have hmem : e ∈ (sys.entriesOf t groups).filter fun e => decide (0 < e.count) :=
        hentries ▸ List.mem_cons_self
      exact of_decide_eq_true (List.mem_filter.mp hmem).2
    rw [hentries] at hgroups hassign
    obtain ⟨g, gs, -, -, hcons⟩ := List.forall₂_cons_left_iff.mp hgroups
    rw [hcons, ← hassign, assignment_cons, List.length_append, List.length_replicate]
    exact ⟨fun _ => Nat.add_pos_left he _, fun _ => List.cons_ne_nil g gs⟩

omit hrouting in
theorem length_genDecoder : ∀ g ∈ graph.groups, g.genDecoder.length = args.lout - 1 := by
  intro g hg
  obtain ⟨layerIdx, hblocks⟩ := Transformer.buildBlocks_of_mem_build hbuild g hg
  exact Transformer.length_of_buildBlocks hblocks

end Built

/-- A run that returns has reported decode time, in one of its iterations. -/
theorem exists_batchTotals_of_simulate (hmodel : sys.model = some t) {row : Row}
    (hrow : sys.simulate args = .ok row) :
    ∃ groups graph bs totals, sys.routing t = .ok groups ∧
      t.build args.batchSize args.lin args.lout sys.isHetero groups sys.imageSize = .ok graph ∧
      sys.batchTotals t args.toPassArgs bs (.fresh graph) = .ok totals ∧
      totals.gPerf .all ≠ 0 := by
  obtain ⟨groups, graph, totals, hrouting, hbuild, htotals, hne, hreport⟩ :=
    exists_totals_of_simulate hmodel hrow
  have hms : ∀ {totals : Totals}, totals.gPerf .all = 0 →
      (Report.ofTotals totals).gPerf .all = 0 := by
    intro totals hzero
    show totals.gPerf .all * 1000 = 0
    rw [hzero, zero_mul]
  -- of two iterations one may report no decode time, but not both
  by_cases hzero : totals.gPerf .all = 0
  · split_ifs at hreport with hrest
    · obtain ⟨totals', htotals', hreport⟩ := hreport
      refine ⟨groups, graph, _, totals', hrouting, hbuild, htotals', ?_⟩
      intro hzero'
      apply hne
      rw [hreport, Report.gPerf_add, Pi.add_apply, hms hzero, hms hzero', add_zero]
    · rw [hreport] at hne
      exact absurd (hms hzero) hne
  · exact ⟨groups, graph, _, totals, hrouting, hbuild, htotals, hzero⟩

/-- **A run without a decode step raises**, and so does one without a layer: the throughput
divides by the time they take. -/
theorem two_le_lout_of_simulate (hmodel : sys.model = some t) {row : Row}
    (hrow : sys.simulate args = .ok row) : 2 ≤ args.lout ∧ 0 < t.ndec := by
  obtain ⟨groups, graph, bs, totals, hrouting, hbuild, htotals, hne⟩ :=
    exists_batchTotals_of_simulate hmodel hrow
  obtain ⟨fresh, hfresh, hgen⟩ := Platform.exists_genDecoder_ne_nil htotals hne
  obtain ⟨g, hg, rfl⟩ := List.mem_map.mp hfresh
  have hlength := length_genDecoder hbuild g hg
  have hpos : 0 < g.genDecoder.length := by
    apply List.length_pos_iff.mpr
    intro hnil
    apply hgen
    rw [SimGroup.fresh, hnil, List.map_nil]
  exact ⟨by omega, (groups_ne_nil_iff hrouting hbuild).mp (List.ne_nil_of_mem hg)⟩

/-- A run over timed layers, with a decode step, returns a row. -/
theorem exists_simulate (h : sys.toPlatform.Positive gpu acc t.dhead) (hmodel : sys.model = some t)
    (hrouting : sys.routing t = .ok groups)
    (hbuild : t.build args.batchSize args.lin args.lout sys.isHetero groups sys.imageSize =
      .ok graph) (hbatch : 1 ≤ args.batchSize) (hlin : 1 ≤ args.lin) (hlout : 2 ≤ args.lout)
    (hndec : 0 < t.ndec)
    (htimed : graph.AllTimed gpu acc) : ∃ row, sys.simulate args = .ok row := by
  have hgraph := builtFor_of_routing hrouting hbuild h hbatch hlin
  have hne := (groups_ne_nil_iff hrouting hbuild).mpr hndec
  have hgen : ∀ g ∈ graph.groups, g.genDecoder ≠ [] := by
    intro g hg
    have hlength := length_genDecoder hbuild g hg
    exact List.ne_nil_of_length_pos (by omega)
  obtain ⟨row, hrow⟩ : ∃ row, sys.simulateGraph t args graph = .ok row := by
    apply Platform.exists_simulateGraph h hbatch
    intro bs hbs
    obtain ⟨totals, htotals⟩ := (Platform.exists_batchTotals_iff h hbs hgraph).mpr htimed
    exact ⟨totals, htotals, Platform.batchTotals_gPerf_pos h hbs hgraph hne hgen htotals⟩
  exact ⟨row, simulate_eq_ok.mpr ⟨t, groups, graph, hmodel, hrouting, hbuild, hrow⟩⟩

/-- **When a run completes**: exactly when there is a decode step and a decoder layer, and every
layer of the graph is timed where it is sent. -/
theorem simulate_completes_iff (h : sys.toPlatform.Positive gpu acc t.dhead)
    (hmodel : sys.model = some t) (hrouting : sys.routing t = .ok groups)
    (hbuild : t.build args.batchSize args.lin args.lout sys.isHetero groups sys.imageSize =
      .ok graph) (hbatch : 1 ≤ args.batchSize) (hlin : 1 ≤ args.lin) :
    (∃ row, sys.simulate args = .ok row) ↔
      2 ≤ args.lout ∧ 0 < t.ndec ∧ graph.AllTimed gpu acc := by
  refine ⟨?_, ?_⟩
  · rintro ⟨row, hrow⟩
    obtain ⟨hlout, hndec⟩ := two_le_lout_of_simulate hmodel hrow
    obtain ⟨groups', graph', totals, hrouting', hbuild', htotals, -⟩ :=
      exists_totals_of_simulate hmodel hrow
    obtain rfl := Except.ok.inj (hrouting.symm.trans hrouting')
    obtain rfl := Except.ok.inj (hbuild.symm.trans hbuild')
    have hgraph := builtFor_of_routing hrouting hbuild h hbatch hlin
    exact ⟨hlout, hndec, (Platform.exists_batchTotals_iff h hbatch hgraph).mp ⟨totals, htotals⟩⟩
  · rintro ⟨hlout, hndec, htimed⟩
    exact exists_simulate h hmodel hrouting hbuild hbatch hlin hlout hndec htimed

end System

/-! ## Models with sizes

For a model without an empty size, and devices that have room for a tile, all layers of a block
are timed. -/

/-- A layer that is a transfer or has a size. -/
def LayerArgs.Proper (l : LayerArgs) : Prop := (l.type = .X2G ∨ l.type = .G2G) ∨ l.Sized

theorem LayerArgs.proper_of_sides {l : LayerArgs}
    (h : l.type = .X2G ∨ 0 < l.m ∧ 0 < l.n ∧ 0 < l.numOp) : l.Proper := by
  rcases h with hcomm | ⟨hm, hn, hnumOp⟩
  · exact .inl (.inl hcomm)
  · exact .inr ⟨hm, hn, hnumOp⟩

/-- The smallest tile takes 1152 bytes at most. -/
theorem LayerArgs.requiredCapacity_eight_le (l : LayerArgs) : l.requiredCapacity (8, 8) ≤ 1152 := by
  have hm : min 8 l.m ≤ 8 := min_le_left _ _
  have hn : min 8 l.n ≤ 8 := min_le_left _ _
  have hdbyte : l.dbyte ≤ 2 := by
    rw [LayerArgs.dbyte]
    cases l.dtype <;> decide
  calc l.requiredCapacity (8, 8) ≤ (8 + 8) * 32 * 2 + 8 * 8 * 2 := by
        rw [LayerArgs.requiredCapacity]
        gcongr
    _ = 1152 := rfl

theorem timed_of_proper {gpu : XpuConfig} {acc : AccConfig} (hgpu : 1152 ≤ gpu.l1CacheSize)
    (hacc : ∀ c, acc = .xpu c → 1152 ≤ c.l1CacheSize) {l : LayerArgs} (hl : l.Proper)
    (device : RoutingDevice) : Timed gpu acc device l := by
  have htimes : ∀ {c : XpuConfig}, 1152 ≤ c.l1CacheSize → c.Times l := by
    intro c hc
    have hle : (l.requiredCapacity (8, 8) : ℚ) ≤ 1152 := by
      exact_mod_cast l.requiredCapacity_eight_le
    exact hl.imp id fun hsized => ⟨hsized, hle.trans hc⟩
  rw [Timed]
  split_ifs
  · cases acc with
    | xpu c => exact htimes (hacc c rfl)
    | pim c output => trivial
  · exact htimes hgpu

namespace Transformer

variable {t : Transformer} {batch lin lout : ℕ}

/-- A model without an empty size. -/
structure HasSizes (t : Transformer) : Prop where
  hdim : 0 < t.hdim
  dhead : 0 < t.dhead
  qkvProjOutTotal : 0 < t.qkvProjOutTotal
  ffIntermediate : 0 < t.ffIntermediate

theorem proper_finishArgs {stage : Stage} {tokens hdimPerTp ffPerTp : ℕ} (htokens : 0 < tokens)
    (hhdim : 0 < t.hdim) (hff : 0 < ffPerTp) :
    ∀ a ∈ t.finishArgs stage tokens hdimPerTp ffPerTp, a.Proper := by
  have hsized : ∀ a ∈ t.finishArgs stage tokens hdimPerTp ffPerTp,
      0 < a.m ∧ 0 < a.n ∧ 0 < a.numOp := by
    rcases hffn : t.ffnType with _ | _ <;>
      simp [finishArgs, projArgs, ffnArgs, closeArgs, hffn, htokens, hhdim, hff]
  intro a ha
  exact LayerArgs.proper_of_sides (.inr (hsized a ha))

/-- The shards of a model with sizes have sizes. -/
theorem HasSizes.shards (ht : t.HasSizes) (s : GenShards t) :
    0 < s.qHeads ∧ 0 < s.qkvPerTp ∧ 0 < s.ffPerTp := by
  have hq := t.numQHeads_pos
  have hqkv := ht.qkvProjOutTotal
  have hff := ht.ffIntermediate
  rw [s.numQHeads_eq] at hq
  rw [s.qkvProjOutTotal_eq] at hqkv
  rw [s.ffIntermediate_eq] at hff
  exact ⟨Nat.pos_of_mul_pos_right hq, Nat.pos_of_mul_pos_right hqkv, Nat.pos_of_mul_pos_right hff⟩

theorem proper_genBlock (ht : t.HasSizes) (s : GenShards t) (hbatch : 0 < batch) (hlin : 0 < lin)
    (stage : ℕ) (onHetero : Bool) : ∀ a ∈ genBlock s batch lin stage onHetero, a.Proper := by
  obtain ⟨hq, hqkv, hff⟩ := ht.shards s
  have hattn : ∀ a ∈ t.genAttnArgs batch (lin + stage) onHetero (s.qHeads * batch)
      (s.kvHeads * batch) s.qkvPerTp s.qPerAttnTp,
        a.type = .X2G ∨ 0 < a.m ∧ 0 < a.n ∧ 0 < a.numOp := by
    rcases onHetero with _ | _ <;> simp [genAttnArgs, hq, hqkv, hbatch, hlin, ht.dhead]
  intro a ha
  rcases List.mem_append.mp ha with ha | ha
  · exact LayerArgs.proper_of_sides (hattn a ha)
  · exact proper_finishArgs hbatch ht.hdim hff a ha

theorem proper_sumBlock (ht : t.HasSizes) (s : Shards t) (hbatch : 0 < batch) (hlin : 0 < lin)
    (onHetero : Bool) (layerIdx : Option ℕ) :
    ∀ a ∈ sumBlock s batch lin onHetero layerIdx, a.Proper := by
  obtain ⟨hq, hqkv, hff⟩ := ht.shards s.toGenShards
  have hattn : ∀ a ∈ t.sumAttnArgs batch lin onHetero layerIdx (s.qHeads * batch)
      (s.kvHeads * batch) s.qkvPerTp s.qPerFcTp s.kvPerFcTp s.qPerAttnTp,
        a.type = .X2G ∨ 0 < a.m ∧ 0 < a.n ∧ 0 < a.numOp := by
    rcases layerIdx with _ | idx
    · rcases onHetero with _ | _ <;> simp [sumAttnArgs, hq, hqkv, hbatch, hlin, ht.dhead]
    · by_cases hdeep : (idx : ℤ) ∈ t.deepstackLayers <;> rcases onHetero with _ | _ <;>
        simp [sumAttnArgs, hdeep, hq, hqkv, hbatch, hlin, ht.dhead, ht.hdim]
  intro a ha
  rcases List.mem_append.mp ha with ha | ha
  · exact LayerArgs.proper_of_sides (hattn a ha)
  · exact proper_finishArgs (Nat.mul_pos hbatch hlin) ht.hdim hff a ha

/-- The layers of the groups of a model with sizes are transfers or have sizes. -/
theorem proper_of_mem_build (ht : t.HasSizes) (hbatch : 0 < batch) (hlin : 0 < lin)
    {attnOnHetero : Bool} {routing : Option (List RoutingEntry)} {imageSize : Option ImageSize}
    {graph : Graph}
    (hbuild : t.build batch lin lout attnOnHetero routing imageSize = .ok graph) :
    ∀ g ∈ graph.groups, ∀ l ∈ g.layers, l.toLayerArgs.Proper := by
  intro g hg l hl
  obtain ⟨layerIdx, hblocks⟩ := buildBlocks_of_mem_build hbuild g hg
  obtain ⟨-, s, hsum, hgen⟩ := buildBlocks_eq_ok.mp hblocks
  rcases List.mem_append.mp hl with hl | hl
  · have hmem : l.toLayerArgs ∈ sumBlock s batch lin (decide (g.device ≠ .gpu)) layerIdx :=
      hsum ▸ List.mem_map_of_mem hl
    exact proper_sumBlock ht s hbatch hlin _ _ _ hmem
  · obtain ⟨block, hblock, hl⟩ := List.mem_flatten.mp hl
    obtain ⟨stage, -, hstage⟩ := exists_of_forall₂_right hgen hblock
    have hmem : l.toLayerArgs ∈
        genBlock s.toGenShards batch lin stage (decide (g.device ≠ .gpu)) :=
      hstage ▸ List.mem_map_of_mem hl
    exact proper_genBlock ht s.toGenShards hbatch hlin stage _ _ hmem

/-- Then all layers are timed, where those of the vision graph are transfers or have sizes, too. -/
theorem allTimed_of_hasSizes {gpu : XpuConfig} {acc : AccConfig} (hgpu : 1152 ≤ gpu.l1CacheSize)
    (hacc : ∀ c, acc = .xpu c → 1152 ≤ c.l1CacheSize) (ht : t.HasSizes) (hbatch : 0 < batch)
    (hlin : 0 < lin) {attnOnHetero : Bool} {routing : Option (List RoutingEntry)}
    {imageSize : Option ImageSize} {graph : Graph}
    (hbuild : t.build batch lin lout attnOnHetero routing imageSize = .ok graph)
    (hvision : ∀ l ∈ graph.visionDecoder, l.toLayerArgs.Proper) : graph.AllTimed gpu acc := by
  refine ⟨?_, ?_⟩
  · intro l hl
    exact timed_of_proper hgpu hacc (hvision l hl) .gpu
  · intro g hg l hl
    exact timed_of_proper hgpu hacc (proper_of_mem_build ht hbatch hlin hbuild g hg l hl) g.device

end Transformer

/-- The PIMs of the tables have positive parameters. -/
theorem makePimConfig_positive (pimType : PIMType) (interface : InterfaceType) (numAttacc : ℕ)
    {numHbm : ℕ} (hnum : 0 < numHbm) (powerConstraint : Bool) :
    (makePimConfig pimType interface numAttacc numHbm powerConstraint).Positive := by
  refine ⟨hnum, ?_, ?_⟩
  · cases pimType <;> cases powerConstraint <;> norm_num [makePimConfig, bwScaleTable]
  · cases interface <;> norm_num [makePimConfig, InterfaceType.bandwidth]

namespace System

variable {sys : System} {gpu : XpuConfig} {acc : AccConfig} {t : Transformer} {args : SimArgs}
  {groups : Option (List RoutingEntry)} {graph : Graph}

/-- **With sizes, only the decode steps matter**: on devices with room for a tile, a run of a
model without an empty size completes exactly when it decodes. -/
theorem exists_simulate_iff_of_hasSizes (h : sys.toPlatform.Positive gpu acc t.dhead)
    (hgpu : 1152 ≤ gpu.l1CacheSize) (hacc : ∀ c, acc = .xpu c → 1152 ≤ c.l1CacheSize)
    (hmodel : sys.model = some t) (hrouting : sys.routing t = .ok groups)
    (hbuild : t.build args.batchSize args.lin args.lout sys.isHetero groups sys.imageSize =
      .ok graph) (ht : t.HasSizes) (hvision : ∀ l ∈ graph.visionDecoder, l.toLayerArgs.Proper)
    (hbatch : 1 ≤ args.batchSize) (hlin : 1 ≤ args.lin) :
    (∃ row, sys.simulate args = .ok row) ↔ 2 ≤ args.lout ∧ 0 < t.ndec := by
  refine ⟨?_, ?_⟩
  · rintro ⟨row, hrow⟩
    exact two_le_lout_of_simulate hmodel hrow
  · rintro ⟨hlout, hndec⟩
    exact exists_simulate h hmodel hrouting hbuild hbatch hlin hlout hndec
      (Transformer.allTimed_of_hasSizes hgpu hacc ht hbatch hlin hbuild hvision)

/-- The answers of a simulator that takes one cycle for everything. -/
def oneCycle (pimType : PIMType) (l : Layer) (powerConstraint : Bool) :
    Except PyError (ℚ × PimTraffic) :=
  .ok ((⟨2048, 5, 128, false⟩ : RamulatorConfig).freshResult ⟨pimType, l, powerConstraint⟩
    ⟨1, 1, 1, 1, 1, 1⟩)

/-- Sixteen tokens in, for two requests, and the given number out. -/
def repliesOf (lout : ℕ) : SimArgs := { batchSize := 2, lin := 16, lout := lout }

/-- A model whose sizes split is built with every routing, once its vision graph is. -/
theorem exists_build (args : SimArgs) (hsupp : t.dtype.Supported) (shards : Shards t)
    {vision : List Layer} (hvision : t.buildVision args.batchSize sys.imageSize = .ok vision)
    (hrouting : sys.routing t = .ok groups) :
    ∃ graph, t.build args.batchSize args.lin args.lout sys.isHetero groups sys.imageSize =
      .ok graph ∧ graph.visionDecoder = vision := by
  obtain ⟨devices, hassigns, -⟩ := exists_assigns_of_routing hrouting
  have hgroup : ∀ e ∈ (sys.entriesOf t groups).filter fun e => decide (0 < e.count),
      ∃ g, t.BuiltFrom args.batchSize args.lin args.lout e g := by
    intro e he
    obtain ⟨⟨sumDecoder, genDecoder⟩, hblocks⟩ := Transformer.exists_buildBlocks hsupp shards
      e.device (e.indices.bind List.head?)
    exact ⟨⟨e.groupName, sumDecoder, genDecoder, e.count, e.device, e.indices,
      of_decide_eq_true (List.mem_filter.mp he).2⟩, rfl, rfl, rfl, rfl, hblocks⟩
  obtain ⟨built, hbuilt⟩ := exists_forall₂_iff.mpr hgroup
  exact ⟨⟨vision, built⟩, (Transformer.build_eq_ok hassigns.names_nodup).mpr ⟨hvision, hbuilt⟩, rfl⟩

/-- A DGX with AttAcc sends all layers of a model without DeepStack to its PIMs. -/
theorem routing_dgxAttacc (hdeep : t.hasDeepstack = false) :
    (dgxAttacc t oneCycle).routing t = .ok (some [⟨.all, .pim, t.ndec, none⟩]) := by
  simp only [routing, hdeep]
  rfl

/-- `Qwen3-4B`, with its sizes split over eight devices. -/
theorem exists_qwen3_shards : ∃ t, Transformer.new (makeModelConfig .qwen3_4B .W16A16) 8 = .ok t ∧
    t.HasSizes ∧ t.ndec = 36 ∧ t.dhead = 128 ∧ t.hasDeepstack = false ∧ t.dtype.Supported ∧
      (∀ batch, t.buildVision batch none = .ok []) ∧ Nonempty (Shards t) :=
  ⟨_, rfl, ⟨by decide, by decide, by decide, by decide⟩, rfl, rfl, rfl, .inl rfl, fun _ => rfl,
    ⟨⟨⟨4, 1, 768, 512, 320, 1216, by decide, by decide, rfl, rfl, rfl, rfl, rfl, rfl⟩, 512, 128,
      rfl, rfl⟩⟩⟩

/-- What a run of it on a DGX with AttAcc builds. -/
theorem exists_qwen3_graph (lout : ℕ) : ∃ t groups graph,
    Transformer.new (makeModelConfig .qwen3_4B .W16A16) 8 = .ok t ∧ t.HasSizes ∧ t.ndec = 36 ∧
      t.dhead = 128 ∧ (dgxAttacc t oneCycle).routing t = .ok groups ∧
      t.build 2 16 lout true groups none = .ok graph ∧ graph.visionDecoder = [] := by
  obtain ⟨t, ht, hsizes, hndec, hdhead, hdeep, hsupp, hvision, ⟨s⟩⟩ := exists_qwen3_shards
  have hrouting := routing_dgxAttacc hdeep
  have hvision : t.buildVision (repliesOf lout).batchSize (dgxAttacc t oneCycle).imageSize =
      .ok [] := hvision 2
  obtain ⟨graph, hbuild, hempty⟩ := exists_build (repliesOf lout) hsupp s hvision hrouting
  exact ⟨t, _, graph, ht, hsizes, hndec, hdhead, hrouting, hbuild, hempty⟩

/-- The devices of the tables have positive parameters, and the simulator answers. -/
theorem positive_dgxAttacc {t : Transformer} (ht : t.dhead = 128) :
    (dgxAttacc t oneCycle).toPlatform.Positive (makeGpuConfig .H100 8)
      (.pim (makePimConfig .BA .NVLINK4 8 5 false) oneCycle) t.dhead where
  gpu_eq := rfl
  acc_eq := rfl
  gpu := makeGpuConfig_positive .H100 (by decide)
  acc := ⟨makePimConfig_positive .BA .NVLINK4 8 (by decide) false, _, ht.symm,
    fun _ _ _ => ⟨_, .inl rfl⟩⟩

/-- **A DGX with AttAcc serves** every run of a model with sizes that decodes. -/
theorem exists_simulate_dgxAttacc {t : Transformer} (ht : t.HasSizes) (hdhead : t.dhead = 128)
    (hdeep : t.hasDeepstack = false) (hndec : 0 < t.ndec) (hsupp : t.dtype.Supported)
    (s : Shards t) {args : SimArgs} {vision : List Layer}
    (hvision : t.buildVision args.batchSize none = .ok vision)
    (hproper : ∀ l ∈ vision, l.toLayerArgs.Proper) (hbatch : 1 ≤ args.batchSize)
    (hlin : 1 ≤ args.lin) (hlout : 2 ≤ args.lout) :
    ∃ row, (dgxAttacc t oneCycle).simulate args = .ok row := by
  obtain ⟨graph, hbuild, hgraph⟩ := exists_build args hsupp s hvision (routing_dgxAttacc hdeep)
  have hgpu : 1152 ≤ (makeGpuConfig .H100 8).l1CacheSize := by norm_num [makeGpuConfig, gpuConfig]
  exact (exists_simulate_iff_of_hasSizes (positive_dgxAttacc hdhead) hgpu
    (fun c hc => by cases hc) rfl (routing_dgxAttacc hdeep) hbuild ht (hgraph ▸ hproper) hbatch
      hlin).mpr ⟨hlout, hndec⟩

/-- With two tokens out, `Qwen3-4B` is simulated on a DGX with AttAcc. -/
theorem simulate_completes_qwen3 : ∃ (t : Transformer) (graph : Graph) (row : Row),
    Transformer.new (makeModelConfig .qwen3_4B .W16A16) 8 = .ok t ∧
      graph.AllTimed (makeGpuConfig .H100 8)
        (.pim (makePimConfig .BA .NVLINK4 8 5 false) oneCycle) ∧
      (dgxAttacc t oneCycle).simulate (repliesOf 2) = .ok row := by
  obtain ⟨t, groups, graph, ht, hsizes, hndec, hdhead, hrouting, hbuild, hvision⟩ :=
    exists_qwen3_graph 2
  have hgpu : 1152 ≤ (makeGpuConfig .H100 8).l1CacheSize := by norm_num [makeGpuConfig, gpuConfig]
  have htimed : graph.AllTimed (makeGpuConfig .H100 8)
      (.pim (makePimConfig .BA .NVLINK4 8 5 false) oneCycle) :=
    Transformer.allTimed_of_hasSizes hgpu (fun c hc => by cases hc) hsizes (by decide)
      (by decide) hbuild (hvision ▸ fun l hl => absurd hl List.not_mem_nil)
  have hbuild : t.build (repliesOf 2).batchSize (repliesOf 2).lin (repliesOf 2).lout
      (dgxAttacc t oneCycle).isHetero groups (dgxAttacc t oneCycle).imageSize = .ok graph := hbuild
  obtain ⟨row, hrow⟩ := (simulate_completes_iff (positive_dgxAttacc hdhead) rfl hrouting hbuild
    (by decide) (by decide)).mpr ⟨le_rfl, by omega, htimed⟩
  exact ⟨t, graph, row, ht, htimed, hrow⟩

/-- With one token out, it is not: there is no decode step to take any time. -/
theorem not_simulate_completes_qwen3 : ∃ t groups graph,
    Transformer.new (makeModelConfig .qwen3_4B .W16A16) 8 = .ok t ∧
      (dgxAttacc t oneCycle).toPlatform.Positive (makeGpuConfig .H100 8)
        (.pim (makePimConfig .BA .NVLINK4 8 5 false) oneCycle) t.dhead ∧
      (dgxAttacc t oneCycle).routing t = .ok groups ∧
      t.build 2 16 1 true groups none = .ok graph ∧
      ¬∃ row, (dgxAttacc t oneCycle).simulate (repliesOf 1) = .ok row := by
  obtain ⟨t, groups, graph, ht, hsizes, hndec, hdhead, hrouting, hbuild, hvision⟩ :=
    exists_qwen3_graph 1
  refine ⟨t, groups, graph, ht, positive_dgxAttacc hdhead, hrouting, hbuild, ?_⟩
  rintro ⟨row, hrow⟩
  have hlout : 2 ≤ 1 := (two_le_lout_of_simulate rfl hrow).1
  exact absurd hlout (by decide)

end System

end AttAcc
