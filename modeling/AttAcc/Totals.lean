import AttAcc.Device

/-!
# What a pass reports

The performance dictionaries, the energy columns and the FLOP counts that
`src/system.py` collects from the timed layers of a group, and their accumulation over
groups. A dictionary with a fixed list of keys is a function on an enumeration of the
keys. Adding a group `count` times is adding it scaled by `count`
(`Totals.scale_eq_nsmul`), so the accumulation over groups is a sum in a commutative
monoid.
-/

namespace AttAcc

/-- `s_perf_keys`. -/
inductive SPerfKey where
  | all
  | matmul
  | fc
  | comm
  | x2g
  | softmax
  | act
  | norm
  deriving DecidableEq, Repr

/-- `g_perf_keys`. -/
inductive GPerfKey where
  | all
  | matmul
  | fc
  | comm
  | etc
  | qkv
  | prj
  | ff
  | g2g
  | x2g
  | softmax
  | act
  | norm
  deriving DecidableEq, Repr

/-- The thirteen columns of the energy vector. -/
inductive EnergyColumn where
  | all
  | offmem
  | l2
  | l1
  | reg
  | alu
  | fcMem
  | fcComp
  | attnMem
  | attnComp
  | etcMem
  | etcComp
  | comm
  deriving DecidableEq, Repr

/-- The keys `_collect_s_perf` adds a layer's time to. -/
def sPerfKeys (l : Layer) : List SPerfKey :=
  match l.type with
  | .FC => [.all, .fc]
  | .MATMUL => [.all, .matmul]
  | .G2G => [.all, .comm]
  | .X2G => [.all, .comm, .x2g]
  | .SOFTMAX => [.all, .softmax]
  | .ACT => [.all, .act]
  | .NORM => [.all, .norm]

/-- `_collect_s_perf`. -/
def collectSPerf (sDecoder : List SimLayer) (key : SPerfKey) : ℚ :=
  ((sDecoder.filter fun l => key ∈ sPerfKeys l.layer).map SimLayer.execTime).sum

/-- The keys `_collect_g_perf` adds a layer's time to. -/
def gPerfKeys (l : Layer) : List GPerfKey :=
  .all :: match l.type with
  | .FC =>
    .fc :: if l.name.hasFf then [.ff] else if l.name.hasQkv then [.qkv]
      else if l.name.hasProj then [.prj] else []
  | .MATMUL => [.matmul]
  | .G2G | .X2G => .comm :: if l.name.hasX2g then [.x2g] else if l.name.hasG2g then [.g2g] else []
  | .ACT => [.etc, .act]
  | .NORM => [.etc, .norm]
  | .SOFTMAX => [.softmax]

/-- `_collect_g_perf`. -/
def collectGPerf (gDecoder : List (List SimLayer)) (key : GPerfKey) : ℚ :=
  ((gDecoder.flatten.filter fun l => key ∈ gPerfKeys l.layer).map SimLayer.execTime).sum

/-- The components kept for each layer type. -/
inductive EnergyComponent where
  | mem
  | comp
  | comm
  deriving DecidableEq, Repr

/-- The share of a layer's energy that belongs to a component. -/
def EnergyComponent.of (e : Energy) : EnergyComponent → ℚ
  | mem => e .offmem
  | comp => e.comp
  | comm => e .comm

/-- The layer types, in the order of the enumeration. -/
def LayerType.values : List LayerType := [.FC, .MATMUL, .ACT, .SOFTMAX, .NORM, .G2G, .X2G]

/-- `gen_energies` and `unit_energy`. A layer type that is not in the dictionary reads as
zero. -/
structure GenEnergies where
  genEnergies : LayerType → EnergyComponent → ℚ
  unitAll : ℚ
  unitEnergy : Energy

namespace GenEnergies

/-- Empty dictionaries. -/
def zero : GenEnergies := ⟨fun _ _ => 0, 0, 0⟩

/-- `_accumulate_gen_energy`, and the updates of `unit_energy` that follow it. -/
def accumulate (acc : GenEnergies) (l : SimLayer) : GenEnergies where
  genEnergies type component :=
    acc.genEnergies type component +
      if type = l.layer.type then EnergyComponent.of l.energy component else 0
  unitAll := acc.unitAll + l.energy.total
  unitEnergy := acc.unitEnergy + l.energy

/-- `_collect_energies`, before the division by the number of steps. -/
def column (acc : GenEnergies) : EnergyColumn → ℚ
  | .all => acc.unitAll
  | .offmem => acc.unitEnergy .offmem
  | .l2 => acc.unitEnergy .l2
  | .l1 => acc.unitEnergy .l1
  | .reg => acc.unitEnergy .reg
  | .alu => acc.unitEnergy .alu
  | .fcMem => acc.genEnergies .FC .mem
  | .fcComp => acc.genEnergies .FC .comp
  | .attnMem => acc.genEnergies .MATMUL .mem + acc.genEnergies .SOFTMAX .mem
  | .attnComp => acc.genEnergies .MATMUL .comp + acc.genEnergies .SOFTMAX .comp
  | .etcMem => acc.genEnergies .ACT .mem + acc.genEnergies .NORM .mem
  | .etcComp => acc.genEnergies .ACT .comp + acc.genEnergies .NORM .comp
  | .comm => (LayerType.values.map fun type => acc.genEnergies type .comm).sum

end GenEnergies

/-- `_collect_energies`. -/
def collectEnergies (acc : GenEnergies) (genSteps : ℕ) (column : EnergyColumn) : ℚ :=
  acc.column column / genSteps

/-- The accumulators of one iteration over the batches. -/
@[ext] structure Totals where
  sPerf : SPerfKey → ℚ
  gPerf : GPerfKey → ℚ
  energy : EnergyColumn → ℚ
  sFlops : ℕ
  gFlops : ℕ

namespace Totals

instance : Zero Totals := ⟨⟨0, 0, 0, 0, 0⟩⟩

instance : Add Totals :=
  ⟨fun a b => ⟨a.sPerf + b.sPerf, a.gPerf + b.gPerf, a.energy + b.energy, a.sFlops + b.sFlops,
    a.gFlops + b.gFlops⟩⟩

@[simp] theorem sPerf_zero : (0 : Totals).sPerf = 0 := rfl
@[simp] theorem gPerf_zero : (0 : Totals).gPerf = 0 := rfl
@[simp] theorem energy_zero : (0 : Totals).energy = 0 := rfl
@[simp] theorem sFlops_zero : (0 : Totals).sFlops = 0 := rfl
@[simp] theorem gFlops_zero : (0 : Totals).gFlops = 0 := rfl
@[simp] theorem sPerf_add (a b : Totals) : (a + b).sPerf = a.sPerf + b.sPerf := rfl
@[simp] theorem gPerf_add (a b : Totals) : (a + b).gPerf = a.gPerf + b.gPerf := rfl
@[simp] theorem energy_add (a b : Totals) : (a + b).energy = a.energy + b.energy := rfl
@[simp] theorem sFlops_add (a b : Totals) : (a + b).sFlops = a.sFlops + b.sFlops := rfl
@[simp] theorem gFlops_add (a b : Totals) : (a + b).gFlops = a.gFlops + b.gFlops := rfl

instance : AddCommMonoid Totals where
  add_assoc a b c := by ext <;> simp [add_assoc]
  zero_add a := by ext <;> simp
  add_zero a := by ext <;> simp
  add_comm a b := by ext <;> simp [add_comm]
  nsmul := nsmulRec

/-- The report of a group, scaled by its count. -/
def scale (count : ℕ) (r : Totals) : Totals where
  sPerf key := r.sPerf key * count
  gPerf key := r.gPerf key * count
  energy column := r.energy column * count
  sFlops := r.sFlops * count
  gFlops := r.gFlops * count

/-- Scaling by a count is adding that many times. -/
theorem scale_eq_nsmul (count : ℕ) (r : Totals) : r.scale count = count • r := by
  induction count with
  | zero =>
    rw [zero_nsmul]
    ext <;> simp [scale]
  | succ count ih =>
    rw [succ_nsmul, ← ih]
    ext <;> simp [scale, mul_add]

end Totals

end AttAcc
