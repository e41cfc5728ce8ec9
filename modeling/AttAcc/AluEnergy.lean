import AttAcc.Devices
import AttAcc.Simulate
import Mathlib.Algebra.BigOperators.Ring.List
import Mathlib.Algebra.Order.BigOperators.Group.List

/-!
# The ALU energy of the decode graph

Of the energies a run reports, that of the ALUs has a closed form: every layer is charged
for its FLOPs at a price that depends on its device and its name (`AluPricing`). The
energy of an iteration is then read off the built graph (`batchTotals_alu`), does not
depend on the batch size the iteration is run for, and is proportional to the batch size
the graph was built for (`blockAlu_genBlock`).
-/

namespace AttAcc

open Library

/-- A price list for the ALUs of a platform: what each device charges for a FLOP of a
layer, by type and name. FC layers are never free. -/
structure AluPricing (sys : Platform) where
  price : RoutingDevice → LayerType → LayerName → ℚ
  alu_eq : ∀ {device : RoutingDevice} {l : Layer} {o : Outcome},
    sys.timeOn device l = .ok o → o.energy .alu = l.getFlops * price device l.type l.name
  price_nonneg : ∀ device type name, 0 ≤ price device type name
  price_fc_pos : ∀ device name, 0 < price device .FC name

namespace AluPricing

/-- The price list of a configured platform, if the GPU's table charges for FLOPs. -/
def ofConfigs {sys : Platform} {gpu : XpuConfig} {acc : AccConfig} (hgpu : sys.gpu = gpu.device)
    (hacc : sys.acc = acc.device) (hnum : 0 < gpu.numXpu) (halu : 0 < gpu.energyTable.alu)
    (haccAlu : 0 ≤ acc.alu) : AluPricing sys where
  price device type name :=
    if device ≠ .gpu ∧ (type = .MATMUL ∨ type = .SOFTMAX ∨ type = .X2G) then
      acc.aluPrice type name
    else gpu.energyTable.alu * gpu.numXpu / 2
  alu_eq := by
    intro device l o h
    unfold Platform.timeOn at h
    split_ifs at h ⊢ with hdevice
    · rw [hacc] at h
      exact AccConfig.alu_of_getTimeAndEnergy h
    · rw [hgpu] at h
      exact XpuConfig.alu_of_getTimeAndEnergy h
  price_nonneg := by
    intro device type name
    split_ifs
    · exact AccConfig.aluPrice_nonneg haccAlu type name
    · positivity
  price_fc_pos := by
    intro device name
    rw [if_neg (by simp)]
    positivity

/-- The ALU energy of an operator. -/
def energy {sys : Platform} (p : AluPricing sys) (device : RoutingDevice) (a : LayerArgs) : ℚ :=
  a.getFlops * p.price device a.type a.name

theorem energy_nonneg {sys : Platform} (p : AluPricing sys) (device : RoutingDevice)
    (a : LayerArgs) : 0 ≤ p.energy device a :=
  mul_nonneg (Nat.cast_nonneg _) (p.price_nonneg device a.type a.name)

end AluPricing

/-! ### The energy column of a sum -/

@[simp] theorem Totals.energy_nsmul (n : ℕ) (r : Totals) : (n • r).energy = n • r.energy := by
  induction n with
  | zero => rw [zero_nsmul, zero_nsmul, Totals.energy_zero]
  | succ n ih => rw [succ_nsmul, succ_nsmul, Totals.energy_add, ih]

theorem Totals.energy_sum (rs : List Totals) (column : EnergyColumn) :
    rs.sum.energy column = (rs.map fun r => r.energy column).sum := by
  induction rs with
  | nil => rfl
  | cons r rs ih =>
    rw [List.sum_cons, Totals.energy_add, Pi.add_apply, ih, List.map_cons, List.sum_cons]

theorem GenEnergies.unitEnergy_foldl (ls : List SimLayer) (acc : GenEnergies)
    (level : EnergyLevel) :
    (ls.foldl GenEnergies.accumulate acc).unitEnergy level =
      acc.unitEnergy level + (ls.map fun l => l.energy level).sum := by
  induction ls generalizing acc with
  | nil => exact (add_zero _).symm
  | cons l ls ih =>
    rw [List.foldl_cons, ih, List.map_cons, List.sum_cons, ← add_assoc]
    rfl

namespace Platform

variable {sys : Platform} {t : Transformer} {args : PassArgs} {bs : ℕ} {device : RoutingDevice}

/-- The ALU energy of a decode block on a device. -/
def blockAlu (p : AluPricing sys) (device : RoutingDevice) (block : List LayerArgs) : ℚ :=
  (block.map (p.energy device)).sum

theorem blockAlu_nonneg (p : AluPricing sys) (device : RoutingDevice) (block : List LayerArgs) :
    0 ≤ blockAlu p device block := by
  refine List.sum_nonneg ?_
  intro e he
  obtain ⟨a, -, rfl⟩ := List.mem_map.mp he
  exact p.energy_nonneg device a

/-- The arguments of the layers of a block. -/
def blockArgs (block : List SimLayer) : List LayerArgs :=
  block.map fun l => l.layer.toLayerArgs

theorem alu_timeGenBlock (p : AluPricing sys) {block timed : List SimLayer}
    (h : sys.timeGenBlock device block = .ok timed) :
    (timed.map fun l => l.energy .alu).sum = blockAlu p device (blockArgs block) := by
  have hforall := mapM_ok_iff.mp h
  clear h
  induction hforall with
  | nil => rfl
  | cons hl _ ih =>
    obtain ⟨o, ho, hl⟩ := bind_ok_iff.mp hl
    obtain rfl := Except.ok.inj hl
    rw [List.map_cons, List.sum_cons, ih]
    exact congrArg (· + _) (p.alu_eq ho)

theorem alu_simulateGenBlocks (p : AluPricing sys) {acc acc' : GenEnergies}
    {blocks out : List (List SimLayer)}
    (h : sys.simulateGenBlocks t args bs device acc blocks = .ok (out, acc')) :
    acc'.unitEnergy .alu = acc.unitEnergy .alu +
      (blocks.map fun block => blockAlu p device (blockArgs block)).sum := by
  induction blocks generalizing acc acc' out with
  | nil =>
    obtain ⟨-, rfl⟩ := Prod.mk.inj (Except.ok.inj h)
    exact (add_zero _).symm
  | cons block blocks ih =>
    obtain ⟨⟨block', acc₁⟩, hblock, h⟩ := bind_ok_iff.mp h
    obtain ⟨⟨blocks', acc₂⟩, hblocks, h⟩ := bind_ok_iff.mp h
    obtain ⟨-, rfl⟩ := Prod.mk.inj (Except.ok.inj h)
    obtain ⟨timed, htimed, hblock⟩ := bind_ok_iff.mp hblock
    obtain ⟨adjusted, -, hblock⟩ := bind_ok_iff.mp hblock
    obtain ⟨-, rfl⟩ := Prod.mk.inj (Except.ok.inj hblock)
    rw [ih hblocks, GenEnergies.unitEnergy_foldl, alu_timeGenBlock p htimed, List.map_cons,
      List.sum_cons, add_assoc]

/-- The ALU energy a group reports for one layer, over its decode steps. -/
def groupAlu (p : AluPricing sys) (g : SimGroup) : ℚ :=
  (g.genDecoder.map fun block => blockAlu p g.device (blockArgs block)).sum

theorem groupTotals_alu (p : AluPricing sys) {g : SimGroup} {totals : Totals}
    (h : sys.groupTotals t args bs g = .ok totals) :
    totals.energy .alu = groupAlu p g / args.genSteps := by
  obtain ⟨g', h⟩ := groupTotals_eq_ok.mp h
  obtain ⟨⟨sDecoder, sFlops⟩, -, h⟩ := bind_ok_iff.mp h
  obtain ⟨⟨gDecoder, gFlops, energies⟩, hgen, h⟩ := bind_ok_iff.mp h
  obtain ⟨-, rfl⟩ := Prod.mk.inj (Except.ok.inj h)
  obtain ⟨⟨gDecoder', energies'⟩, hblocks, hgen⟩ := bind_ok_iff.mp hgen
  obtain ⟨-, hgen⟩ := Prod.mk.inj (Except.ok.inj hgen)
  obtain ⟨-, rfl⟩ := Prod.mk.inj hgen
  have halu := alu_simulateGenBlocks p hblocks
  have hzero : GenEnergies.zero.unitEnergy .alu = 0 := rfl
  rw [hzero, zero_add] at halu
  show energies'.unitEnergy .alu / (args.genSteps : ℚ) = _
  rw [halu]
  rfl

/-- The vision pass reports no decode energy. -/
theorem visionTotals_energy {vision : List SimLayer} {totals : Totals}
    (h : sys.visionTotals t args vision = .ok totals) : totals.energy = 0 := by
  obtain ⟨vision', h⟩ := visionTotals_eq_ok.mp h
  unfold simulateVision at h
  split_ifs at h with hempty
  · obtain ⟨-, rfl⟩ := Prod.mk.inj (Except.ok.inj h)
    rfl
  · obtain ⟨⟨out, flops⟩, -, h⟩ := bind_ok_iff.mp h
    obtain ⟨-, rfl⟩ := Prod.mk.inj (Except.ok.inj h)
    rfl

/-- **The ALU energy of an iteration**, read off the graph. -/
theorem batchTotals_alu (p : AluPricing sys) {graph : SimGraph} {totals : Totals}
    (h : sys.batchTotals t args bs graph = .ok totals) :
    totals.energy .alu =
      (graph.groups.map fun g => g.count * (groupAlu p g / args.genSteps)).sum := by
  obtain ⟨vision, hvision, hgroups, rfl⟩ := batchTotals_eq_ok.mp h
  rw [Totals.energy_add, visionTotals_energy hvision, zero_add, Totals.energy_sum, List.map_map]
  refine congrArg List.sum (List.map_congr_left ?_)
  intro g hg
  obtain ⟨r, hr⟩ := hgroups g hg
  rw [Function.comp_apply, hr, valueOf_ok, Totals.energy_nsmul, Pi.smul_apply,
    groupTotals_alu p hr, nsmul_eq_mul]

end Platform

/-! ### Proportional to the batch size -/

/-- The layer of a batch of `b` sequences, from the layer of one. Attention operators
repeat, the others grow in rows. -/
def LayerArgs.scaleBatch (b : ℕ) (a : LayerArgs) : LayerArgs :=
  if a.type = .MATMUL ∨ a.type = .SOFTMAX then
    { a with numOp := a.numOp * b, pimNumOp := a.pimNumOp * b }
  else { a with m := a.m * b }

@[simp] theorem LayerArgs.type_scaleBatch (b : ℕ) (a : LayerArgs) :
    (a.scaleBatch b).type = a.type := by
  unfold scaleBatch
  split_ifs <;> rfl

@[simp] theorem LayerArgs.name_scaleBatch (b : ℕ) (a : LayerArgs) :
    (a.scaleBatch b).name = a.name := by
  unfold scaleBatch
  split_ifs <;> rfl

/-- The work of a batch is that of a sequence, as often as there are sequences. -/
theorem LayerArgs.getFlops_scaleBatch (b : ℕ) (a : LayerArgs) :
    (a.scaleBatch b).getFlops = a.getFlops * b := by
  rcases htype : a.type <;> simp [scaleBatch, getFlops, htype] <;> try split_ifs
  all_goals ring

/-- A decode block of a batch of `b`, from the block of one sequence. -/
theorem Transformer.genBlock_scaleBatch {t : Transformer} (s : GenShards t)
    (b lin stage : ℕ) (attnOnHetero : Bool) :
    genBlock s b lin stage attnOnHetero =
      (genBlock s 1 lin stage attnOnHetero).map (LayerArgs.scaleBatch b) := by
  rcases hffn : t.ffnType with _ | _ <;> rcases attnOnHetero with _ | _ <;>
    simp [genBlock, genAttnArgs, finishArgs, projArgs, ffnArgs, closeArgs, hffn,
      LayerArgs.scaleBatch]

namespace Platform

variable {sys : Platform} {t : Transformer} {batch lin lout : ℕ} {device : RoutingDevice}

/-- The ALU energy of one sequence at one decode step. -/
def seqAlu (p : AluPricing sys) (s : GenShards t) (lin : ℕ) (device : RoutingDevice)
    (stage : ℕ) : ℚ :=
  blockAlu p device (Transformer.genBlock s 1 lin stage (decide (device ≠ .gpu)))

theorem blockAlu_genBlock (p : AluPricing sys) (s : GenShards t) (b lin stage : ℕ)
    (device : RoutingDevice) :
    blockAlu p device (Transformer.genBlock s b lin stage (decide (device ≠ .gpu))) =
      b * seqAlu p s lin device stage := by
  rw [seqAlu, Transformer.genBlock_scaleBatch, blockAlu, blockAlu, List.map_map,
    ← List.sum_map_mul_left]
  refine congrArg List.sum (List.map_congr_left ?_)
  intro a _
  rw [Function.comp_apply, AluPricing.energy, AluPricing.energy, LayerArgs.getFlops_scaleBatch,
    LayerArgs.type_scaleBatch, LayerArgs.name_scaleBatch]
  push_cast
  ring

/-- A decode step costs energy: the output projection is never free. -/
theorem seqAlu_pos (p : AluPricing sys) (s : GenShards t) (hhdim : 0 < t.hdim) (lin : ℕ)
    (device : RoutingDevice) (stage : ℕ) : 0 < seqAlu p s lin device stage := by
  have hshard : 0 < s.hdimPerTp := by
    rcases Nat.eq_zero_or_pos s.hdimPerTp with h | h
    · rw [s.hdim_eq, h, Nat.zero_mul] at hhdim
      exact absurd hhdim (lt_irrefl 0)
    · exact h
  let proj : LayerArgs := ⟨.gen, .proj, .FC, true, t.dtype, 1, t.hdim, s.hdimPerTp, 1, 1⟩
  have hmem : proj ∈ Transformer.genBlock s 1 lin stage (decide (device ≠ .gpu)) := by
    simp [proj, Transformer.genBlock, Transformer.finishArgs, Transformer.projArgs]
  have hproj : 0 < p.energy device proj := by
    have hflops : 0 < proj.getFlops := by
      show 0 < 2 * 1 * t.hdim * s.hdimPerTp * 1
      positivity
    exact mul_pos (Nat.cast_pos.mpr hflops) (p.price_fc_pos device .proj)
  refine lt_of_lt_of_le hproj (List.single_le_sum ?_ _ (List.mem_map.mpr ⟨proj, hmem, rfl⟩))
  intro e he
  obtain ⟨a, -, rfl⟩ := List.mem_map.mp he
  exact p.energy_nonneg device a

/-- The ALU energy of one sequence over the decode steps, per layer on a device. -/
def seqGroupAlu (p : AluPricing sys) (s : GenShards t) (lin lout : ℕ) (device : RoutingDevice) :
    ℚ :=
  ((List.range' 1 (lout - 1)).map (seqAlu p s lin device)).sum

/-- What a built group reports is proportional to the batch size it was built for. -/
theorem groupAlu_of_builtFrom (p : AluPricing sys) (s : GenShards t) {e : RoutingEntry}
    {g : Group} (hg : t.BuiltFrom batch lin lout e g) :
    groupAlu p (.fresh g) = batch * seqGroupAlu p s lin lout e.device := by
  obtain ⟨-, s', -, hgen⟩ := Transformer.buildBlocks_eq_ok.mp hg.blocks
  obtain rfl := s.eq s'.toGenShards
  rw [seqGroupAlu, groupAlu, ← List.sum_map_mul_left]
  show ((g.genDecoder.map fun block => block.map SimLayer.fresh).map
    fun block => blockAlu p g.device (blockArgs block)).sum = _
  rw [hg.device]
  generalize List.range' 1 (lout - 1) = stages at hgen ⊢
  generalize g.genDecoder = blocks at hgen ⊢
  induction hgen with
  | nil => rfl
  | @cons stage block _ _ hblock _ ih =>
    have hargs : blockArgs (block.map .fresh) = block.map Layer.toLayerArgs := by
      rw [blockArgs, List.map_map]
      rfl
    rw [List.map_cons, List.map_cons, List.map_cons, List.sum_cons, List.sum_cons, ih, hargs,
      hblock, blockAlu_genBlock]

/-- The ALU energy of one sequence over a routed graph, averaged over the decode steps. -/
def routedAlu (p : AluPricing sys) (s : GenShards t) (args : PassArgs)
    (entries : List RoutingEntry) : ℚ :=
  (entries.map fun e => e.count * (seqGroupAlu p s args.lin args.lout e.device / args.genSteps)).sum

theorem seqGroupAlu_nonneg (p : AluPricing sys) (s : GenShards t) (lin lout : ℕ)
    (device : RoutingDevice) : 0 ≤ seqGroupAlu p s lin lout device := by
  refine List.sum_nonneg ?_
  intro e he
  obtain ⟨stage, -, rfl⟩ := List.mem_map.mp he
  exact blockAlu_nonneg p device _

theorem seqGroupAlu_pos (p : AluPricing sys) (s : GenShards t) (hhdim : 0 < t.hdim) (lin : ℕ)
    {lout : ℕ} (hlout : 2 ≤ lout) (device : RoutingDevice) :
    0 < seqGroupAlu p s lin lout device := by
  have hmem : 1 ∈ List.range' 1 (lout - 1) := by
    rw [List.mem_range'_1]
    omega
  refine lt_of_lt_of_le (seqAlu_pos p s hhdim lin device 1)
    (List.single_le_sum ?_ _ (List.mem_map.mpr ⟨1, hmem, rfl⟩))
  intro e he
  obtain ⟨stage, -, rfl⟩ := List.mem_map.mp he
  exact blockAlu_nonneg p device _

/-- With a decode step and a layer, decoding costs energy. -/
theorem routedAlu_pos (p : AluPricing sys) (s : GenShards t) (hhdim : 0 < t.hdim)
    {args : PassArgs} (hlout : 2 ≤ args.lout) {entries : List RoutingEntry} {e : RoutingEntry}
    (he : e ∈ entries) (hcount : 0 < e.count) : 0 < routedAlu p s args entries := by
  have hsteps : (0 : ℚ) < args.genSteps := by
    have hpos : 0 < args.genSteps := lt_of_lt_of_le Nat.one_pos (le_max_left 1 _)
    exact_mod_cast hpos
  have hentry : 0 < (e.count : ℚ) *
      (seqGroupAlu p s args.lin args.lout e.device / args.genSteps) :=
    mul_pos (Nat.cast_pos.mpr hcount)
      (div_pos (seqGroupAlu_pos p s hhdim args.lin hlout e.device) hsteps)
  refine lt_of_lt_of_le hentry (List.single_le_sum ?_ _ (List.mem_map.mpr ⟨e, he, rfl⟩))
  intro x hx
  obtain ⟨e', -, rfl⟩ := List.mem_map.mp hx
  exact mul_nonneg (Nat.cast_nonneg _)
    (div_nonneg (seqGroupAlu_nonneg p s args.lin args.lout e'.device) hsteps.le)

/-- **The ALU energy of an iteration is proportional to the batch size of the graph**, and
does not depend on the batch size the iteration is run for. -/
theorem batchTotals_alu_of_build (p : AluPricing sys) (s : GenShards t) {args : PassArgs} {bs : ℕ}
    {entries : List RoutingEntry} {graph : Graph}
    (hgroups : List.Forall₂ (t.BuiltFrom args.batchSize args.lin args.lout) entries graph.groups)
    {totals : Totals} (h : sys.batchTotals t args bs (.fresh graph) = .ok totals) :
    totals.energy .alu = args.batchSize * routedAlu p s args entries := by
  rw [batchTotals_alu p h, routedAlu, ← List.sum_map_mul_left]
  show ((graph.groups.map SimGroup.fresh).map
    fun g => (g.count : ℚ) * (groupAlu p g / args.genSteps)).sum = _
  clear h
  generalize graph.groups = groups at hgroups ⊢
  induction hgroups with
  | nil => rfl
  | @cons e g _ _ hg _ ih =>
    have hcount : (SimGroup.fresh g).count = e.count := hg.count
    rw [List.map_cons, List.map_cons, List.map_cons, List.sum_cons, List.sum_cons, ih,
      groupAlu_of_builtFrom p s hg, hcount]
    ring

end Platform

end AttAcc
