import AttAcc.Layer
import Mathlib.Algebra.BigOperators.Pi

/-!
# Devices, as the simulator sees them

What `System` reads of an `xPU` and of a `PIM` object: a few constants, and
`get_time_and_energy`. A device is a function of the layer here; it may raise.
`fdiv` is Python's `/` on floats, which raises on a zero divisor.
-/

namespace AttAcc

/-- `a / b`. -/
def fdiv (a b : ℚ) : Except PyError ℚ :=
  if b = 0 then .error .zeroDivision else .ok (a / b)

theorem fdiv_eq_ok {a b q : ℚ} : fdiv a b = .ok q ↔ b ≠ 0 ∧ q = a / b := by
  unfold fdiv
  by_cases hb : b = 0
  · simp [hb]
  · simp [hb, eq_comm]

/-- The entries of an energy vector, in the order of the list. -/
inductive EnergyLevel where
  | offmem
  | l2
  | l1
  | reg
  | alu
  | comm
  deriving DecidableEq, Repr

/-- The six energies of a layer. -/
abbrev Energy := EnergyLevel → ℚ

namespace Energy

/-- `sum(energy)`. -/
def total (e : Energy) : ℚ := e .offmem + e .l2 + e .l1 + e .reg + e .alu + e .comm

/-- `sum(energy[1:5])`. -/
def comp (e : Energy) : ℚ := e .l2 + e .l1 + e .reg + e .alu

/-- The vector of the results of six computations. -/
def sequence (f : EnergyLevel → Except PyError ℚ) : Except PyError Energy := do
  let offmem ← f .offmem
  let l2 ← f .l2
  let l1 ← f .l1
  let reg ← f .reg
  let alu ← f .alu
  let comm ← f .comm
  return fun
    | .offmem => offmem
    | .l2 => l2
    | .l1 => l1
    | .reg => reg
    | .alu => alu
    | .comm => comm

end Energy

/-- `layer.bound`. -/
inductive Bound where
  | compute
  | memory
  deriving DecidableEq, Repr

/-- What timing a layer leaves: the pair `get_time_and_energy` returns, and `bound`. A
layer starts out bound by compute, and a device that does not assign `bound` leaves it
so. -/
structure Outcome where
  execTime : ℚ
  energy : Energy
  bound : Bound := .compute

/-- An `xPU`: a pool of `num_xpu` GPUs or CPUs. -/
structure Xpu where
  name : DeviceType
  numXpu : ℕ
  peakFlops : ℚ
  peakMemoryBandwidth : ℚ
  aggregateMemoryCapacity : ℕ
  getTimeAndEnergy : Layer → Except PyError Outcome

/-- A `PIM`: a pool of AttAcc devices. -/
structure Pim where
  numAttacc : ℕ
  numHbm : ℕ
  pimType : PIMType
  peakMemoryBandwidth : ℚ
  aggregateMemoryCapacity : ℕ
  getTimeAndEnergy : Layer → Except PyError Outcome

/-- `devices['Acc']`. -/
inductive AccDevice where
  | xpu (device : Xpu)
  | pim (device : Pim)

namespace AccDevice

def getTimeAndEnergy : AccDevice → Layer → Except PyError Outcome
  | xpu device => device.getTimeAndEnergy
  | pim device => device.getTimeAndEnergy

def peakMemoryBandwidth : AccDevice → ℚ
  | xpu device => device.peakMemoryBandwidth
  | pim device => device.peakMemoryBandwidth

def aggregateMemoryCapacity : AccDevice → ℕ
  | xpu device => device.aggregateMemoryCapacity
  | pim device => device.aggregateMemoryCapacity

/-- `getattr(self.devices['Acc'], 'num_hbm', 5)`. -/
def numHbm : AccDevice → ℕ
  | xpu _ => 5
  | pim device => device.numHbm

/-- `pim_type`, which only a `PIM` has. -/
def pimType : AccDevice → Option PIMType
  | xpu _ => none
  | pim device => some device.pimType

end AccDevice

/-- A layer of the graph with the attributes simulation assigns. -/
structure SimLayer where
  layer : Layer
  execTime : ℚ := 0
  energy : Energy := 0
  bound : Bound := .compute

namespace SimLayer

/-- A layer as its constructor leaves it. -/
def fresh (l : Layer) : SimLayer := { layer := l }

/-- The layer with the attributes of a timing. -/
def assign (l : SimLayer) (o : Outcome) : SimLayer :=
  { l with execTime := o.execTime, energy := o.energy, bound := o.bound }

@[simp] theorem layer_assign (l : SimLayer) (o : Outcome) : (l.assign o).layer = l.layer := rfl

/-- Assigning overwrites: what an earlier pass left is not seen. -/
theorem assign_eq_of_layer_eq {l l' : SimLayer} (h : l.layer = l'.layer) (o : Outcome) :
    l.assign o = l'.assign o := by
  rw [assign, assign, h]

end SimLayer

end AttAcc
