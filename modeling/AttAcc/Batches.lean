import AttAcc.AluEnergy
import AttAcc.Completion
import Mathlib.Tactic.LinearCombination

/-!
# Aggregating batches

`simulate` serves `num_reqs` requests in batches of `batch_size`. It loops over the two
batch sizes that occur, but builds one graph, for the full batch, and multiplies by
`num_batches` only where the first iteration finds earlier results, which it never does.
So it reports one full batch, and another one on the same graph for the remainder: that
is the sum over the batches only when there is exactly one (`simulate_batches_iff`).
-/

namespace AttAcc

open Library

/-- The arguments of a run for one batch of `b` requests. -/
def SimArgs.oneBatch (args : SimArgs) (b : ℕ) : SimArgs :=
  { args with batchSize := b, numReqs := 0 }

/-- What `num_reqs` requests should report in batches of `batch_size`, from what one batch
of each size reports. -/
def batchSum (one : ℕ → Report) (batchSize numReqs : ℕ) : Report :=
  if numReqs % batchSize = 0 then (numReqs / batchSize) • one batchSize
  else (numReqs / batchSize) • one batchSize + one (numReqs % batchSize)

namespace Platform

variable {sys : Platform} {t : Transformer} {args : SimArgs} {graph : Graph}

/-- Without a remainder a run is the run for one full batch: the number of requests is not
seen. -/
theorem simulateGraph_oneBatch (h : ¬(0 < args.numReqs ∧ 0 < args.numReqs % args.batchSize)) :
    sys.simulateGraph t (args.oneBatch args.batchSize) graph = sys.simulateGraph t args graph := by
  have htarget : targetBs args = [args.batchSize] := if_neg h
  have hone : targetBs (args.oneBatch args.batchSize) = [args.batchSize] :=
    if_neg fun hreqs => absurd hreqs.1 (lt_irrefl 0)
  unfold simulateGraph
  rw [htarget, hone]
  rfl

end Platform

namespace System

variable {sys : System} {t : Transformer} {args : SimArgs}

theorem simulate_oneBatch (h : ¬(0 < args.numReqs ∧ 0 < args.numReqs % args.batchSize)) :
    sys.simulate (args.oneBatch args.batchSize) = sys.simulate args := by
  simp only [simulate, Platform.simulateRouting, Platform.simulateGraph_oneBatch h]
  rfl

/-- A run for one batch reports the totals of its iteration. -/
theorem report_oneBatch (hmodel : sys.model = some t) {b : ℕ} {row : Row}
    (h : sys.simulate (args.oneBatch b) = .ok row) :
    ∃ groups graph totals, sys.routing t = .ok groups ∧
      t.build b args.lin args.lout sys.isHetero groups sys.imageSize = .ok graph ∧
      sys.batchTotals t (args.oneBatch b).toPassArgs b (.fresh graph) = .ok totals ∧
      row.report.gPerf .all ≠ 0 ∧ row.report = .ofTotals totals := by
  obtain ⟨groups, graph, totals, hrouting, hbuild, htotals, hne, hreport⟩ :=
    exists_totals_of_simulate hmodel h
  rw [if_neg (fun hreqs => absurd hreqs.1 (lt_irrefl 0))] at hreport
  exact ⟨groups, graph, totals, hrouting, hbuild, htotals, hne, hreport⟩

/-! ### The remainder -/

/-- A built graph with decode time has a decode step, shards and a layer. -/
theorem exists_decode_step {args : PassArgs} {bs : ℕ} {entries : List RoutingEntry}
    {graph : Graph} {totals : Totals}
    (hgroups : List.Forall₂ (t.BuiltFrom args.batchSize args.lin args.lout) entries graph.groups)
    (htotals : sys.batchTotals t args bs (.fresh graph) = .ok totals)
    (hne : totals.gPerf .all ≠ 0) :
    2 ≤ args.lout ∧ Nonempty (GenShards t) ∧ ∃ e ∈ entries, 0 < e.count := by
  obtain ⟨fresh, hfresh, hgen⟩ := Platform.exists_genDecoder_ne_nil htotals hne
  obtain ⟨g, hg, rfl⟩ := List.mem_map.mp hfresh
  obtain ⟨e, he, hbuilt⟩ := exists_of_forall₂_right hgroups hg
  have hcount : 0 < e.count := hbuilt.count ▸ g.count_pos
  obtain ⟨sumDecoder, -, hblocks⟩ := bind_ok_iff.mp hbuilt.blocks
  obtain ⟨genDecoder, hstages, hblocks⟩ := bind_ok_iff.mp hblocks
  obtain ⟨-, rfl⟩ := Prod.mk.inj (Except.ok.inj hblocks)
  rcases hdecoder : g.genDecoder with _ | ⟨block, blocks⟩
  · refine absurd ?_ hgen
    show g.genDecoder.map _ = []
    rw [hdecoder]
    rfl
  · obtain ⟨stage, hstage, hblock⟩ := exists_of_mem_mapM hstages block
      (hdecoder ▸ List.mem_cons_self)
    obtain ⟨-, s, -⟩ := Transformer.buildGenStage_eq_ok.mp hblock
    rw [List.mem_range'_1] at hstage
    exact ⟨by omega, ⟨s⟩, e, he, hcount⟩

/-- A report with decode time is not a multiple of itself. -/
theorem report_eq_smul_iff {r : Report} (hne : r.gPerf .all ≠ 0) {q : ℕ} :
    r = q • r ↔ q = 1 := by
  refine ⟨?_, ?_⟩
  · intro h
    have hall : r.gPerf .all = q * r.gPerf .all := by
      calc r.gPerf .all = (q • r).gPerf .all := congrArg (fun r => r.gPerf .all) h
        _ = q * r.gPerf .all := by rw [Report.gPerf_smul, Pi.smul_apply, nsmul_eq_mul]
    have hq : (q : ℚ) = 1 := (mul_eq_right₀ hne).mp hall.symm
    exact_mod_cast hq
  · rintro rfl
    ext key
    · rw [Report.sPerf_smul, one_nsmul]
    · rw [Report.gPerf_smul, one_nsmul]
    · rw [Report.energy_smul, one_nsmul]

/-- The ALU energy an iteration reports, in nJ. -/
theorem alu_ofTotals (p : AluPricing sys.toPlatform) (s : GenShards t) {args : PassArgs} {bs : ℕ}
    {entries : List RoutingEntry} {graph : Graph} {totals : Totals}
    (h : sys.batchTotals t args bs (.fresh graph) = .ok totals)
    (hgroups : List.Forall₂ (t.BuiltFrom args.batchSize args.lin args.lout) entries
      graph.groups) :
    (Report.ofTotals totals).energy .alu =
      args.batchSize * (Platform.routedAlu p s args entries / 1000) := by
  show totals.energy .alu / 1000 = _
  rw [Platform.batchTotals_alu_of_build p s hgroups h, mul_div_assoc]

/-- Two full batches cost what `q` full batches and a rest cost only if they hold as many
requests. -/
theorem two_batches_of_energy_eq {batchSize q rest : ℕ} {k : ℚ} (hk : 0 < k)
    (h : (batchSize : ℚ) * k + batchSize * k = q * (batchSize * k) + rest * k) :
    batchSize + batchSize = batchSize * q + rest := by
  have hcast : ((batchSize + batchSize : ℕ) : ℚ) = (batchSize * q + rest : ℕ) := by
    apply mul_right_cancel₀ hk.ne'
    push_cast
    linear_combination h
  exact_mod_cast hcast

/-- **Serving `num_reqs` requests reports the sum over their batches exactly when they
are one full batch**, on any platform whose ALUs charge for FLOPs. -/
theorem report_eq_batchSum_iff (hmodel : sys.model = some t) (p : AluPricing sys.toPlatform)
    (hhdim : 0 < t.hdim) (hreqs : 0 < args.numReqs) {row : Row}
    (hrow : sys.simulate args = .ok row) {one : ℕ → Row}
    (hfull : sys.simulate (args.oneBatch args.batchSize) = .ok (one args.batchSize))
    (hrest : 0 < args.numReqs % args.batchSize →
      sys.simulate (args.oneBatch (args.numReqs % args.batchSize)) =
        .ok (one (args.numReqs % args.batchSize))) :
    row.report = batchSum (fun b => (one b).report) args.batchSize args.numReqs ↔
      args.numReqs = args.batchSize := by
  obtain ⟨groups, graph, totals, hrouting, hbuild, htotals, -, hreport⟩ :=
    exists_totals_of_simulate hmodel hrow
  obtain ⟨groups', graph', totals', hrouting', hbuild', htotals', hne, hone⟩ :=
    report_oneBatch hmodel hfull
  -- the run and the run for one full batch build the same graph
  obtain rfl := Except.ok.inj (hrouting.symm.trans hrouting')
  obtain rfl := Except.ok.inj (hbuild.symm.trans hbuild')
  obtain rfl := Except.ok.inj (htotals.symm.trans htotals')
  rw [hone] at hne
  have hdiv := Nat.div_add_mod args.numReqs args.batchSize
  rcases Nat.eq_zero_or_pos (args.numReqs % args.batchSize) with hmod | hmod
  · -- no remainder: one batch stands for all of them
    rw [if_neg (by omega)] at hreport
    rw [batchSum, if_pos hmod, hreport, hone, report_eq_smul_iff hne]
    rw [hmod, add_zero] at hdiv
    refine ⟨?_, ?_⟩
    · intro hq
      rw [← hdiv, hq, mul_one]
    · intro heq
      rw [heq]
      exact Nat.div_self (by omega)
  · -- a remainder: its iteration costs what a full batch does
    rw [if_pos ⟨hreqs, hmod⟩] at hreport
    obtain ⟨totals', htotals', hreport⟩ := hreport
    obtain ⟨groups'', graph'', totals'', hrouting'', hbuild'', htotals'', -, hone'⟩ :=
      report_oneBatch hmodel (hrest hmod)
    obtain rfl := Except.ok.inj (hrouting.symm.trans hrouting'')
    obtain ⟨devices, hassigns, -⟩ := exists_assigns_of_routing hrouting
    have hnames := hassigns.names_nodup
    have hgroups := ((Transformer.build_eq_ok hnames).mp hbuild).2
    have hgroups'' := ((Transformer.build_eq_ok hnames).mp hbuild'').2
    have hdecode : totals.gPerf .all ≠ 0 := by
      intro hzero
      exact hne (show totals.gPerf .all * 1000 = 0 by rw [hzero, zero_mul])
    obtain ⟨hlout, ⟨s⟩, e, he, hcount⟩ := exists_decode_step hgroups htotals hdecode
    have hpos := Platform.routedAlu_pos p s hhdim hlout he hcount
    have halu := alu_ofTotals p s htotals hgroups
    have halu' := alu_ofTotals p s htotals' hgroups
    have halu'' : (Report.ofTotals totals'').energy .alu =
        ((args.numReqs % args.batchSize : ℕ) : ℚ) *
          (Platform.routedAlu p s args.toPassArgs _ / 1000) :=
      alu_ofTotals p s htotals'' hgroups''
    refine ⟨?_, ?_⟩
    · intro h
      exfalso
      rw [batchSum, if_neg (by omega), hreport, hone, hone'] at h
      have h := congrArg (fun r => r.energy .alu) h
      simp only [Report.energy_add, Report.energy_smul, Pi.add_apply, Pi.smul_apply, halu, halu',
        halu''] at h
      rw [nsmul_eq_mul] at h
      have hk := div_pos hpos (by norm_num : (0 : ℚ) < 1000)
      have hdouble := two_batches_of_energy_eq hk h
      rw [hdiv] at hdouble
      rw [← hdouble, Nat.add_mod_left, Nat.mod_self] at hmod
      exact absurd hmod (lt_irrefl 0)
    · intro heq
      rw [heq, Nat.mod_self] at hmod
      exact absurd hmod (lt_irrefl 0)

/-- **Serving `num_reqs` requests reports the sum over their batches exactly when they
are one full batch**: on every configured system, for every model with a hidden width and
every run, the vectors of the run are `num_reqs / batch_size` times those of a full batch
plus those of a batch of the remainder if and only if `num_reqs = batch_size`. -/
theorem simulate_batches_iff {gpu : XpuConfig} {acc : AccConfig} (hgpu : sys.gpu = gpu.device)
    (hacc : sys.acc = acc.device) (hnum : 0 < gpu.numXpu) (halu : 0 < gpu.energyTable.alu)
    (haccAlu : 0 ≤ acc.alu) (hmodel : sys.model = some t) (hhdim : 0 < t.hdim)
    (hreqs : 0 < args.numReqs) {row : Row} (hrow : sys.simulate args = .ok row)
    {one : ℕ → Row}
    (hfull : sys.simulate (args.oneBatch args.batchSize) = .ok (one args.batchSize))
    (hrest : 0 < args.numReqs % args.batchSize →
      sys.simulate (args.oneBatch (args.numReqs % args.batchSize)) =
        .ok (one (args.numReqs % args.batchSize))) :
    row.report = batchSum (fun b => (one b).report) args.batchSize args.numReqs ↔
      args.numReqs = args.batchSize :=
  report_eq_batchSum_iff hmodel (.ofConfigs hgpu hacc hnum halu haccAlu) hhdim hreqs hrow hfull
    hrest

/-- Five requests in batches of two: the last batch is of one. -/
def fiveRequests : SimArgs := { repliesOf 4 with numReqs := 5 }

/-- The equivalence for Qwen3-4B on a DGX with AttAcc, where there is a batch of the remainder. -/
theorem simulate_batches_qwen3 : ∃ (t : Transformer) (row : Row) (one : ℕ → Row),
    Transformer.new (makeModelConfig .qwen3_4B .W16A16) 8 = .ok t ∧
      (dgxAttacc t oneCycle).simulate fiveRequests = .ok row ∧
      (dgxAttacc t oneCycle).simulate (fiveRequests.oneBatch 1) = .ok (one 1) ∧
      (row.report = batchSum (fun b => (one b).report) 2 5 ↔ 5 = 2) := by
  obtain ⟨t, ht, hsizes, hndec, hdhead, hdeep, hsupp, hvision, ⟨s⟩⟩ := exists_qwen3_shards
  have hruns : ∀ args : SimArgs, 1 ≤ args.batchSize → 1 ≤ args.lin → 2 ≤ args.lout →
      ∃ row, (dgxAttacc t oneCycle).simulate args = .ok row := by
    intro args
    exact exists_simulate_dgxAttacc hsizes hdhead hdeep (by omega) hsupp s
      (hvision args.batchSize) fun l hl => absurd hl List.not_mem_nil
  obtain ⟨row, hrow⟩ := hruns fiveRequests (by decide) (by decide) (by decide)
  obtain ⟨full, hfull⟩ := hruns (fiveRequests.oneBatch 2) (by decide) (by decide) (by decide)
  obtain ⟨rest, hrest⟩ := hruns (fiveRequests.oneBatch 1) (by decide) (by decide) (by decide)
  have hgpuAlu := makeGpuConfig_alu_pos .H100 8
  have haccAlu : 0 ≤ (AccConfig.pim (makePimConfig .BA .NVLINK4 8 5 false) oneCycle).alu := by
    norm_num [AccConfig.alu, makePimConfig]
  let one : ℕ → Row := fun b => if b = 2 then full else rest
  exact ⟨t, row, one, ht, hrow, hrest, simulate_batches_iff rfl rfl (by decide) hgpuAlu haccAlu rfl
    hsizes.hdim (by decide) hrow hfull fun _ => hrest⟩

/-- A model of one layer with one head of size one. -/
def oneHeadInfos : ModelInfos where
  name := "one-head"
  ndec := 1
  hdim := 1
  numHeads := some 1
  ffScale := 1
  dtype := .W16A16

/-- The model on one A100, without an accelerator. -/
def oneHeadSystem : System where
  heteroName := .NONE
  gpu := (makeGpuConfig .A100a 1).device
  acc := .xpu (makeGpuConfig .A100a 1).device
  model := (Transformer.new oneHeadInfos 1).toOption
  acc_pim := nofun

/-- One token in, two out, one request at a time. -/
def oneHeadArgs (numReqs : ℕ) : SimArgs :=
  { batchSize := 1, lin := 1, lout := 2, numReqs := numReqs }

/-- The model, of which the one device has all sizes. -/
theorem exists_oneHead_shards : ∃ t, oneHeadSystem.model = some t ∧ t.HasSizes ∧ t.ndec = 1 ∧
    t.dtype.Supported ∧ t.buildVision 1 none = .ok [] ∧ Nonempty (Shards t) :=
  ⟨_, rfl, ⟨by decide, by decide, by decide, by decide +kernel⟩, rfl, .inl rfl, rfl,
    ⟨⟨⟨1, 1, 3, 1, 1, 1, by decide, by decide, rfl, rfl, rfl, rfl, rfl, by decide +kernel⟩, 1, 1,
      rfl, rfl⟩⟩⟩

theorem positive_oneHead (dhead : ℕ) : oneHeadSystem.toPlatform.Positive (makeGpuConfig .A100a 1)
    (.xpu (makeGpuConfig .A100a 1)) dhead where
  gpu_eq := rfl
  acc_eq := rfl
  gpu := makeGpuConfig_positive .A100a Nat.one_pos
  acc := makeGpuConfig_positive .A100a Nat.one_pos

/-- Both runs succeed; there is no remainder. -/
theorem exists_oneHead_run : ∃ (t : Transformer) (row : Row) (one : ℕ → Row),
    oneHeadSystem.model = some t ∧ 0 < t.hdim ∧
      oneHeadSystem.simulate (oneHeadArgs 2) = .ok row ∧
      oneHeadSystem.simulate ((oneHeadArgs 2).oneBatch 1) = .ok (one 1) := by
  obtain ⟨t, ht, hsizes, hndec, hsupp, hvision, ⟨s⟩⟩ := exists_oneHead_shards
  have hrouting : oneHeadSystem.routing t = .ok none := rfl
  have hvision : t.buildVision (oneHeadArgs 2).batchSize oneHeadSystem.imageSize = .ok [] := hvision
  obtain ⟨graph, hbuild, hempty⟩ := exists_build (oneHeadArgs 2) hsupp s hvision hrouting
  have hgpu : 1152 ≤ (makeGpuConfig .A100a 1).l1CacheSize := by
    norm_num [makeGpuConfig, gpuConfig]
  obtain ⟨row, hrow⟩ := (exists_simulate_iff_of_hasSizes (positive_oneHead t.dhead) hgpu
    (fun c hc => by cases hc; exact hgpu) ht hrouting hbuild hsizes
      (hempty ▸ fun l hl => absurd hl List.not_mem_nil) le_rfl le_rfl).mpr ⟨le_rfl, by omega⟩
  have hrest : ¬(0 < (oneHeadArgs 2).numReqs ∧
      0 < (oneHeadArgs 2).numReqs % (oneHeadArgs 2).batchSize) := by decide
  exact ⟨t, row, fun _ => row, ht, hsizes.hdim, hrow, (simulate_oneBatch hrest).trans hrow⟩

theorem oneHead_acc : oneHeadSystem.acc = (AccConfig.xpu (makeGpuConfig .A100a 1)).device := rfl

/-- Two requests in batches of one are not reported as two batches. -/
theorem report_ne_batchSum_oneHead : ∃ (row : Row) (one : ℕ → Row),
    oneHeadSystem.simulate (oneHeadArgs 2) = .ok row ∧
      oneHeadSystem.simulate ((oneHeadArgs 2).oneBatch 1) = .ok (one 1) ∧
      row.report ≠ batchSum (fun b => (one b).report) 1 2 := by
  obtain ⟨t, row, one, ht, hhdim, hrow, hfull⟩ := exists_oneHead_run
  have halu := makeGpuConfig_alu_pos .A100a 1
  refine ⟨row, one, hrow, hfull, ?_⟩
  intro h
  have hone := (report_eq_batchSum_iff ht (.ofConfigs rfl oneHead_acc Nat.one_pos halu halu.le)
    hhdim Nat.two_pos hrow hfull fun hmod => absurd hmod (lt_irrefl 0)).mp h
  exact absurd hone (by decide)

end System

end AttAcc
