import AttAcc.Simulate

/-!
# What a run reports

A run of `simulate` builds one graph, and its loop over the batch sizes adds up the reports of
the iterations over that graph (`System.exists_totals_of_simulate`). The row it prints has a
throughput, so its decode time is not zero, and decode time comes from a group with a decode
step (`Platform.exists_genDecoder_ne_nil`).
-/

namespace AttAcc

open Library

theorem Totals.gPerf_eq_zero_of_sum {rs : List Totals} (h : ∀ r ∈ rs, r.gPerf = 0) :
    rs.sum.gPerf = 0 := by
  induction rs with
  | nil => rfl
  | cons r rs ih =>
    obtain ⟨hr, hrs⟩ := List.forall_mem_cons.mp h
    rw [List.sum_cons, Totals.gPerf_add, hr, ih hrs, add_zero]

namespace Platform

variable {sys : Platform} {t : Transformer} {args : SimArgs} {graph : Graph}

/-- A row holds the report of the loop, and its decode time is not zero: the throughput
divides by it. -/
theorem finishRow_report {results : Results} {row : Row}
    (h : sys.finishRow t args results = .ok row) :
    results.all = some row.report ∧ row.report.gPerf .all ≠ 0 := by
  obtain ⟨bwScale, -, h⟩ := bind_ok_iff.mp h
  obtain ⟨opb, -, h⟩ := bind_ok_iff.mp h
  obtain ⟨report, hreport, h⟩ := bind_ok_iff.mp h
  obtain ⟨throughput, hthroughput, h⟩ := bind_ok_iff.mp h
  obtain rfl := Except.ok.inj h
  rcases hall : results.all with _ | report'
  · rw [Results.report, hall] at hreport
    cases hreport
  · rw [Results.report, hall] at hreport
    obtain rfl := Except.ok.inj hreport
    refine ⟨rfl, ?_⟩
    intro hzero
    exact (fdiv_eq_ok.mp hthroughput).1 (by rw [hzero, zero_div])

/-- The vision pass reports no decode time. -/
theorem visionTotals_gPerf {args : PassArgs} {vision : List SimLayer} {totals : Totals}
    (h : sys.visionTotals t args vision = .ok totals) : totals.gPerf = 0 := by
  obtain ⟨vision', h⟩ := visionTotals_eq_ok.mp h
  unfold simulateVision at h
  split_ifs at h with hempty
  · obtain ⟨-, rfl⟩ := Prod.mk.inj (Except.ok.inj h)
    rfl
  · obtain ⟨⟨out, flops⟩, -, h⟩ := bind_ok_iff.mp h
    obtain ⟨-, rfl⟩ := Prod.mk.inj (Except.ok.inj h)
    rfl

/-- A group without decode steps reports no decode time. -/
theorem groupTotals_gPerf {args : PassArgs} {bs : ℕ} {g : SimGroup} {totals : Totals}
    (hg : g.genDecoder = []) (h : sys.groupTotals t args bs g = .ok totals) :
    totals.gPerf = 0 := by
  obtain ⟨g', h⟩ := groupTotals_eq_ok.mp h
  obtain ⟨⟨sDecoder, sFlops⟩, -, h⟩ := bind_ok_iff.mp h
  obtain ⟨⟨gDecoder, gFlops, energies⟩, hgen, h⟩ := bind_ok_iff.mp h
  obtain ⟨-, rfl⟩ := Prod.mk.inj (Except.ok.inj h)
  rw [hg] at hgen
  obtain ⟨rfl, -⟩ := Prod.mk.inj (Except.ok.inj hgen)
  funext key
  exact zero_div _

/-- Decode time comes from a group with a decode step. -/
theorem exists_genDecoder_ne_nil {args : PassArgs} {bs : ℕ} {graph : SimGraph} {totals : Totals}
    (h : sys.batchTotals t args bs graph = .ok totals) (hne : totals.gPerf .all ≠ 0) :
    ∃ g ∈ graph.groups, g.genDecoder ≠ [] := by
  by_contra hnone
  obtain ⟨vision, hvision, hgroups, rfl⟩ := batchTotals_eq_ok.mp h
  apply hne
  have hsum : (graph.groups.map fun g =>
      g.count • valueOf (sys.groupTotals t args bs g)).sum.gPerf = 0 := by
    apply Totals.gPerf_eq_zero_of_sum
    intro r hr
    obtain ⟨g, hg, rfl⟩ := List.mem_map.mp hr
    have hempty : g.genDecoder = [] := by
      by_contra hgen
      exact hnone ⟨g, hg, hgen⟩
    obtain ⟨r, hr⟩ := hgroups g hg
    rw [hr, valueOf_ok, ← Totals.scale_eq_nsmul]
    funext key
    show r.gPerf key * (g.count : ℚ) = 0
    rw [groupTotals_gPerf hempty hr, Pi.zero_apply, zero_mul]
  rw [Totals.gPerf_add, visionTotals_gPerf hvision, hsum, add_zero, Pi.zero_apply]

/-- **What a run reports**: the full batch and, where there is a remainder, an iteration
for the remainder on the same graph. The number of batches does not enter. -/
theorem report_of_simulateGraph {row : Row} (h : sys.simulateGraph t args graph = .ok row) :
    row.report.gPerf .all ≠ 0 ∧
      ∃ totals, sys.batchTotals t args.toPassArgs args.batchSize (.fresh graph) = .ok totals ∧
        if 0 < args.numReqs ∧ 0 < args.numReqs % args.batchSize then
          ∃ totals', sys.batchTotals t args.toPassArgs (args.numReqs % args.batchSize)
              (.fresh graph) = .ok totals' ∧
            row.report = .ofTotals totals + .ofTotals totals'
        else row.report = .ofTotals totals := by
  obtain ⟨-, results, hloop, hrow⟩ := simulateGraph_eq_ok.mp h
  obtain ⟨hall, hne⟩ := finishRow_report hrow
  refine ⟨hne, ?_⟩
  unfold targetBs at hloop
  split_ifs at hloop ⊢ with hrest
  · obtain ⟨results₁, hfirst, hloop⟩ := bind_ok_iff.mp hloop
    obtain ⟨totals, htotals, hfirst⟩ := bind_ok_iff.mp hfirst
    obtain rfl := Except.ok.inj hfirst
    obtain ⟨results₂, hsecond, hloop⟩ := bind_ok_iff.mp hloop
    obtain ⟨totals', htotals', hsecond⟩ := bind_ok_iff.mp hsecond
    obtain rfl := Except.ok.inj hsecond
    obtain rfl := Except.ok.inj hloop
    exact ⟨totals, htotals, totals', htotals', (Option.some.inj hall).symm⟩
  · obtain ⟨results₁, hfirst, hloop⟩ := bind_ok_iff.mp hloop
    obtain ⟨totals, htotals, hfirst⟩ := bind_ok_iff.mp hfirst
    obtain rfl := Except.ok.inj hfirst
    obtain rfl := Except.ok.inj hloop
    exact ⟨totals, htotals, (Option.some.inj hall).symm⟩

end Platform

namespace System

variable {sys : System} {t : Transformer} {args : SimArgs}

/-- What a run of `simulate` consists of. -/
theorem simulate_eq_ok {row : Row} :
    sys.simulate args = .ok row ↔
      ∃ t groups graph, sys.model = some t ∧ sys.routing t = .ok groups ∧
        t.build args.batchSize args.lin args.lout sys.isHetero groups sys.imageSize = .ok graph ∧
        sys.simulateGraph t args graph = .ok row := by
  have hmodel : ∀ t, sys.requireModel = .ok t ↔ sys.model = some t := by
    intro t
    unfold requireModel
    rcases sys.model with _ | t'
    · simp
    · simp
  unfold simulate
  simp only [bind_ok_iff, hmodel, Platform.simulateRouting]
  refine ⟨?_, ?_⟩
  · rintro ⟨t, ht, groups, hgroups, graph, hgraph, hrow⟩
    exact ⟨t, groups, graph, ht, hgroups, hgraph, hrow⟩
  · rintro ⟨t, groups, graph, ht, hgroups, hgraph, hrow⟩
    exact ⟨t, ht, groups, hgroups, graph, hgraph, hrow⟩

/-- What a run reports, and from which graph. -/
theorem exists_totals_of_simulate (hmodel : sys.model = some t) {row : Row}
    (h : sys.simulate args = .ok row) :
    ∃ groups graph totals, sys.routing t = .ok groups ∧
      t.build args.batchSize args.lin args.lout sys.isHetero groups sys.imageSize = .ok graph ∧
      sys.batchTotals t args.toPassArgs args.batchSize (.fresh graph) = .ok totals ∧
      row.report.gPerf .all ≠ 0 ∧
      if 0 < args.numReqs ∧ 0 < args.numReqs % args.batchSize then
        ∃ totals', sys.batchTotals t args.toPassArgs (args.numReqs % args.batchSize)
            (.fresh graph) = .ok totals' ∧
          row.report = .ofTotals totals + .ofTotals totals'
      else row.report = .ofTotals totals := by
  obtain ⟨t', groups, graph, ht', hrouting, hbuild, hrow⟩ := simulate_eq_ok.mp h
  obtain rfl := Option.some.inj (hmodel.symm.trans ht')
  obtain ⟨hne, totals, htotals, hreport⟩ := Platform.report_of_simulateGraph hrow
  exact ⟨groups, graph, totals, hrouting, hbuild, htotals, hne, hreport⟩

end System

end AttAcc
