import AttAcc.Device
import AttAcc.Library.Rounding

/-!
# The devices of `src/devices.py`

`xPU`, a roofline model over tiles that are searched for each layer, and `PIM`, which
asks the DRAM simulator for the score operator and charges the rest to it. The tile an
`xPU` remembers for a layer is left out here: a device is a function of the layer.

Times and energies are exact here. The costs that the tile search compares are not: two tiles
whose costs are close can compare otherwise once the costs are rounded, so the search is one over
the float arithmetic that the device model runs on.

The energy of the ALUs is the one energy that does not depend on tiles: it is the layer's
FLOPs at a price per FLOP (`XpuConfig.alu_of_getTimeAndEnergy`,
`PimConfig.alu_of_getTimeAndEnergy`).
-/

namespace AttAcc

open Library

/-- `math.ceil(a / b)`. -/
def ceilDiv (a b : ℕ) : Except PyError ℕ :=
  if b = 0 then .error .zeroDivision else .ok (a ⌈/⌉ b)

/-- An `ENERGY_TABLE` of a GPU or a CPU, in pJ. -/
structure XpuEnergyTable where
  mem : ℚ
  l2 : ℚ
  l1 : ℚ
  reg : ℚ
  alu : ℚ
  comm : ℚ

/-- The configuration an `xPU` is constructed from, its scaling factors, and the float
arithmetic its tile search runs on. The L2 bandwidth may be `inf`, which is `none` here. -/
structure XpuConfig where
  name : DeviceType
  numXpu : ℕ
  numCore : ℕ
  peakFlops : ℚ
  peakMemoryBandwidth : ℚ
  peakL2Bandwidth : Option ℚ
  l1CacheSize : ℚ
  l2CacheSize : ℚ
  maxInterfaceBandwidth : ℚ
  memCapacityPerDevice : ℕ
  maxComputeUtil : ℚ
  maxMemoryUtil : ℚ
  energyTable : XpuEnergyTable
  float : FloatArithmetic

/-- The result of the tile search. -/
structure Tiles where
  l1Tm : ℕ
  l1Tn : ℕ
  l2Tm : ℕ
  l2Tn : ℕ
  deriving DecidableEq, Repr

/-- The state of a search loop: the least cost so far, `none` for `inf`, and the tile it
was found at. -/
structure TileSearch where
  minCost : Option ℚ
  optConfig : ℕ × ℕ

/-- The assignment under `if cost < min_cost`. -/
def TileSearch.offer (s : TileSearch) (cost : ℚ) (tile : ℕ × ℕ) : TileSearch :=
  match s.minCost with
  | none => ⟨some cost, tile⟩
  | some least => if cost < least then ⟨some cost, tile⟩ else s

/-- `trange`. -/
def tileRange : List ℕ := [8, 16, 32, 64, 128, 192, 256, 320, 384, 448, 512]

/-- The three traffics of a level of the hierarchy: two inputs and the output. -/
structure Traffic where
  in1 : ℕ
  in2 : ℕ
  out : ℕ
  deriving DecidableEq, Repr

/-- `sum(data)`. -/
def Traffic.total (t : Traffic) : ℕ := t.in1 + t.in2 + t.out

/-- The sizes of a layer as traffic. -/
def LayerArgs.sizeTraffic (l : LayerArgs) : Traffic :=
  ⟨l.getSize.1, l.getSize.2.1, l.getSize.2.2⟩

/-- `_get_traffic_for_tile`. -/
def getTrafficForTile (tm tn : ℕ) (l : LayerArgs) : Except PyError Traffic := do
  let nTiles ← ceilDiv l.n tn
  let mTiles ← ceilDiv l.m tm
  let scale := l.dbyte * l.numOp
  return ⟨nTiles * l.m * l.k * scale, mTiles * l.n * l.k * scale, l.m * l.n * scale⟩

namespace XpuConfig

variable (c : XpuConfig)

/-- The share of the cores that a layer keeps busy. -/
def coreUtilization (numThreadblock : ℕ) : Except PyError ℚ := do
  let waves ← ceilDiv numThreadblock c.numCore
  fdiv numThreadblock (waves * c.numCore : ℕ)

/-- `num_threadblock`: FC layers are tiled over the blocks as well. -/
def numThreadblock (l : LayerArgs) (tm tn : ℕ) : Except PyError ℕ :=
  if l.type = .FC then do
    let mTiles ← ceilDiv l.m tm
    let nTiles ← ceilDiv l.n tn
    return mTiles * nTiles * l.numOp
  else .ok l.numOp

/-- `l2_access * pow(1 / core_utilization, 2)`, as floats multiply. -/
def floatCost (l2Access : ℕ) (inverse : ℚ) : ℚ :=
  c.float.round (c.float.round l2Access * c.float.square (c.float.round inverse))

/-- The body of the search for an L1 tile. -/
def l1Step (l : LayerArgs) (s : TileSearch) (tile : ℕ × ℕ) : Except PyError TileSearch := do
  let tm := min tile.1 l.m
  let tn := min tile.2 l.n
  let requiredCapacity : ℕ := (tm + tn) * 32 * l.dbyte + tm * tn * l.dbyte
  if c.l1CacheSize < requiredCapacity then return s
  let l2Access ← getTrafficForTile tm tn l
  let blocks ← numThreadblock l tm tn
  let utilization ← c.coreUtilization blocks
  let inverse ← fdiv 1 (c.float.round utilization)
  return s.offer (c.floatCost l2Access.total inverse) (tm, tn)

/-- The body of the search for an L2 tile. -/
def l2Step (l : LayerArgs) (l1 : ℕ × ℕ) (s : TileSearch) (tile : ℕ × ℕ) :
    Except PyError TileSearch := do
  let tm := min tile.1 l.m
  let tn := min tile.2 l.n
  let l2Tk : ℚ := (l.k : ℚ) / 64
  let requiredCapacity : ℚ := (tm + tn) * l2Tk * l.dbyte + tm * tn * l.dbyte
  if c.l2CacheSize < requiredCapacity ∧ (tm, tn) ≠ l1 then return s
  let mTiles ← ceilDiv l.m tm
  let nTiles ← ceilDiv l.n tn
  let access : ℕ :=
    mTiles * l.n * l.k * l.dbyte + nTiles * l.m * l.k * l.dbyte + l.m * l.n * l.dbyte
  return s.offer access (tm, tn)

/-- The candidates of the L2 search in one dimension: the multiples of the L1 tile, and
the whole dimension. -/
def l2Candidates (size l1 : ℕ) : Except PyError (List ℕ) := do
  let steps ← intDiv size l1
  return (List.range' 1 steps).map (fun i => l1 * i) ++ [size]

/-- The pairs a doubly nested loop visits. -/
def nested (outer inner : List ℕ) : List (ℕ × ℕ) :=
  outer.flatMap fun a => inner.map fun b => (a, b)

/-- `_get_optimal_tile`, without the memo. -/
def getOptimalTile (l : LayerArgs) : Except PyError Tiles := do
  let l1 ← (nested tileRange tileRange).foldlM (c.l1Step l) ⟨none, (0, 0)⟩
  let l1 := l1.optConfig
  let ms ← l2Candidates l.m l1.1
  let ns ← l2Candidates l.n l1.2
  let l2 ← (nested ms ns).foldlM (c.l2Step l l1) ⟨none, (0, 0)⟩
  return ⟨l1.1, l1.2, l2.optConfig.1, l2.optConfig.2⟩

/-- `_get_traffic`: off-chip, L2, L1 and register traffic. -/
def getTraffic (l : LayerArgs) : Except PyError (Traffic × Traffic × Traffic × Traffic) :=
  match l.type with
  | .FC | .MATMUL => do
    let tiles ← c.getOptimalTile l
    let off ← getTrafficForTile tiles.l2Tm tiles.l2Tn l
    let l2 ← getTrafficForTile tiles.l1Tm tiles.l1Tn l
    let l1 ← getTrafficForTile 16 16 l
    let macs := l.m * l.n * l.k
    return (off, l2, l1, ⟨macs, macs, macs⟩)
  | _ => .ok (l.sizeTraffic, l.sizeTraffic, l.sizeTraffic, l.sizeTraffic)

/-- `_compute_time`. Where the FLOP rate is zero the source stops in the debugger. -/
def computeTime (l : LayerArgs) : Except PyError ℚ := do
  let tiles ← c.getOptimalTile l
  let flops := c.peakFlops * c.maxComputeUtil
  let utilization ← if c.name = .GPU then do
      let blocks ← numThreadblock l tiles.l1Tm tiles.l1Tn
      c.coreUtilization blocks
    else pure 1
  fdiv l.getFlops (flops * utilization * (2 / l.dbyte : ℕ))

/-- The fitted time of an element-wise operator on a GPU, in µs per byte and per call. -/
def elementwiseTime (perByte perCall : ℚ) (bytes : ℕ) : Except PyError ℚ := do
  let scale ← fdiv (1555 * 1000 * 1000 * 1000) c.peakMemoryBandwidth
  return (perByte * scale * bytes + perCall) / 1000 / 1000

/-- The larger of the off-chip and the L2 time; the other two entries are zero. -/
def bandwidthTime (memBw : ℚ) (off l2 : Traffic) : Except PyError ℚ := do
  let offTime ← fdiv off.total memBw
  let l2Time ← match c.peakL2Bandwidth with
    | some bw => fdiv l2.total bw
    | none => .ok 0
  return max (max offTime l2Time) 0

/-- `max(*_mem_time(layer))`. -/
def memTime (l : LayerArgs) : Except PyError ℚ := do
  let tiles ← c.getOptimalTile l
  let (off, l2, _, _) ← c.getTraffic l
  let memBw := c.peakMemoryBandwidth * c.maxMemoryUtil
  if c.name = .GPU then
    match l.type with
    | .ACT => do
      let time ← c.elementwiseTime (447 / 1000000000) (829 / 100) off.total
      return max time 0
    | .NORM => do
      let time ← c.elementwiseTime (16 / 10000000) (687 / 100) off.total
      return max time 0
    | _ => do
      let blocks ← numThreadblock l tiles.l1Tm tiles.l1Tn
      let utilization ← c.coreUtilization blocks
      c.bandwidthTime (memBw * utilization) off l2
  else c.bandwidthTime memBw off l2

/-- `_exec_time`, and the `bound` it assigns. -/
def execTime (l : LayerArgs) : Except PyError (ℚ × Bound) := do
  let compute ← c.computeTime l
  let mem ← c.memTime l
  return if mem < compute then (compute, .compute) else (mem, .memory)

/-- `_get_energy`. -/
def getEnergy (l : LayerArgs) : Except PyError Energy := do
  let (off, l2, l1, reg) ← c.getTraffic l
  let alu : ℚ := l.getFlops / 2 * c.energyTable.alu
  return fun
    | .offmem => off.total * c.energyTable.mem * c.numXpu
    | .l2 => if c.name = .CPU then 0 else l2.total * c.energyTable.l2 * c.numXpu
    | .l1 => if c.name = .CPU then 0 else l1.total * c.energyTable.l1 * c.numXpu
    | .reg => if c.name = .CPU then 0 else reg.total * c.energyTable.reg * c.numXpu
    | .alu => alu * c.numXpu
    | .comm => 0

/-- `get_nvlink_time`. -/
def getNvlinkTime (size : ℚ) : Except PyError ℚ := do
  if size = 0 then return 1
  let scale ← fdiv (600 * 1000 * 1000 * 1000) c.maxInterfaceBandwidth
  let approxNsTime := 6060 + 9 / 1000 * size * scale
  let limit ← fdiv size (c.maxInterfaceBandwidth / 2)
  return max (approxNsTime / 1000 / 1000 / 1000) limit

/-- An energy vector with its last entry only. -/
def commEnergy (energy : ℚ) : Energy
  | .comm => energy
  | _ => 0

/-- The time of a transfer; a G2G layer is an all-reduce over the devices. -/
def ioTime (l : LayerArgs) (traffic : ℕ) : Except PyError ℚ :=
  if c.name = .CPU ∨ l.type = .X2G then fdiv traffic (c.maxInterfaceBandwidth / 2)
  else do
    let share ← fdiv traffic c.numXpu
    let time ← c.getNvlinkTime share
    return time * ((c.numXpu : ℚ) - 1)

/-- `_io_time_energy`. -/
def ioTimeEnergy (l : LayerArgs) : Except PyError (ℚ × Energy) := do
  let traffic : ℕ := l.m * l.n * l.numOp * l.dbyte
  let execTime ← c.ioTime l traffic
  let energy : ℚ := if c.name = .CPU then 0 else c.numXpu * traffic * c.energyTable.comm
  return (execTime, commEnergy energy)

/-- `get_time_and_energy`. -/
def getTimeAndEnergy (l : Layer) : Except PyError Outcome :=
  if l.type = .X2G ∨ l.type = .G2G then do
    let (time, energy) ← c.ioTimeEnergy l.toLayerArgs
    return { execTime := time, energy := energy }
  else do
    let (time, bound) ← c.execTime l.toLayerArgs
    let energy ← c.getEnergy l.toLayerArgs
    return { execTime := time, energy := energy, bound := bound }

/-- The `xPU` of a configuration. -/
def device : Xpu where
  name := c.name
  numXpu := c.numXpu
  peakFlops := c.peakFlops
  peakMemoryBandwidth := c.peakMemoryBandwidth
  aggregateMemoryCapacity := c.memCapacityPerDevice * c.numXpu
  getTimeAndEnergy := c.getTimeAndEnergy

variable {c}

/-- The ALUs of an `xPU` are charged per FLOP, except for transfers. -/
theorem alu_of_getTimeAndEnergy {l : Layer} {o : Outcome} (h : c.getTimeAndEnergy l = .ok o) :
    o.energy .alu = l.getFlops * (c.energyTable.alu * c.numXpu / 2) := by
  unfold getTimeAndEnergy at h
  by_cases hcomm : l.type = .X2G ∨ l.type = .G2G
  · rw [if_pos hcomm] at h
    obtain ⟨⟨time, energy⟩, hio, h⟩ := bind_ok_iff.mp h
    obtain rfl := Except.ok.inj h
    have hflops : l.getFlops = 0 := by
      rcases hcomm with hcomm | hcomm <;> rw [LayerArgs.getFlops, hcomm]
    obtain ⟨execTime, -, hio⟩ := bind_ok_iff.mp hio
    obtain ⟨-, rfl⟩ := Prod.mk.inj (Except.ok.inj hio)
    rw [hflops, Nat.cast_zero, zero_mul]
    rfl
  · rw [if_neg hcomm] at h
    obtain ⟨⟨time, bound⟩, -, h⟩ := bind_ok_iff.mp h
    obtain ⟨energy, henergy, h⟩ := bind_ok_iff.mp h
    obtain rfl := Except.ok.inj h
    obtain ⟨⟨off, l2, l1, reg⟩, -, henergy⟩ := bind_ok_iff.mp henergy
    obtain rfl := Except.ok.inj henergy
    show (l.getFlops : ℚ) / 2 * c.energyTable.alu * c.numXpu = _
    ring

@[simp] theorem total_commEnergy (e : ℚ) : (commEnergy e).total = e := by
  simp [Energy.total, commEnergy]

@[simp] theorem comp_commEnergy (e : ℚ) : (commEnergy e).comp = 0 := by
  simp [Energy.comp, commEnergy]

/-- A transfer costs communication energy only. -/
theorem energy_of_transfer {l : Layer} {o : Outcome} (h : c.getTimeAndEnergy l = .ok o)
    (hl : l.type = .X2G ∨ l.type = .G2G) : ∃ e, o.energy = commEnergy e := by
  unfold getTimeAndEnergy at h
  rw [if_pos hl] at h
  obtain ⟨⟨time, energy⟩, hio, h⟩ := bind_ok_iff.mp h
  obtain rfl := Except.ok.inj h
  obtain ⟨execTime, -, hio⟩ := bind_ok_iff.mp hio
  obtain ⟨-, rfl⟩ := Prod.mk.inj (Except.ok.inj hio)
  exact ⟨_, rfl⟩

theorem getNvlinkTime_nonneg (hbw : 0 ≤ c.maxInterfaceBandwidth) {size time : ℚ}
    (hsize : 0 ≤ size) (h : c.getNvlinkTime size = .ok time) : 0 ≤ time := by
  unfold getNvlinkTime at h
  by_cases hzero : size = 0
  · rw [if_pos hzero] at h
    obtain rfl := Except.ok.inj h
    exact zero_le_one
  · rw [if_neg hzero] at h
    obtain ⟨scale, -, h⟩ := bind_ok_iff.mp h
    obtain ⟨limit, hlimit, h⟩ := bind_ok_iff.mp h
    obtain rfl := Except.ok.inj h
    have hlimit : 0 ≤ limit := by
      rw [(fdiv_eq_ok.mp hlimit).2]
      exact div_nonneg hsize (div_nonneg hbw (by norm_num))
    exact hlimit.trans (le_max_right _ _)

/-- An all-reduce does not take less than no time, if the interface has a bandwidth. -/
theorem execTime_nonneg_of_allReduce (hbw : 0 ≤ c.maxInterfaceBandwidth) {l : Layer} {o : Outcome}
    (h : c.getTimeAndEnergy l = .ok o) (hl : l.type = .G2G) : 0 ≤ o.execTime := by
  unfold getTimeAndEnergy at h
  rw [if_pos (Or.inr hl)] at h
  obtain ⟨⟨time, energy⟩, hio, h⟩ := bind_ok_iff.mp h
  obtain rfl := Except.ok.inj h
  obtain ⟨execTime, htime, hio⟩ := bind_ok_iff.mp hio
  obtain ⟨rfl, -⟩ := Prod.mk.inj (Except.ok.inj hio)
  unfold ioTime at htime
  split_ifs at htime with hpath
  · rw [(fdiv_eq_ok.mp htime).2]
    exact div_nonneg (Nat.cast_nonneg _) (div_nonneg hbw (by norm_num))
  · obtain ⟨share, hshare, htime⟩ := bind_ok_iff.mp htime
    obtain ⟨time, hnvlink, htime⟩ := bind_ok_iff.mp htime
    obtain rfl := Except.ok.inj htime
    obtain ⟨hnum, hshare⟩ := fdiv_eq_ok.mp hshare
    have hpos : 1 ≤ c.numXpu := Nat.one_le_iff_ne_zero.mpr (Nat.cast_ne_zero.mp hnum)
    have hone : (1 : ℚ) ≤ c.numXpu := by exact_mod_cast hpos
    have hshare : 0 ≤ share := by
      rw [hshare]
      exact div_nonneg (Nat.cast_nonneg _) (Nat.cast_nonneg _)
    exact mul_nonneg (getNvlinkTime_nonneg hbw hshare hnvlink) (sub_nonneg.mpr hone)

end XpuConfig

/-- The traffic counters `Ramulator.output` returns, in bytes. -/
structure PimTraffic where
  io0 : ℚ
  io1 : ℚ
  io2 : ℚ
  io3 : ℚ
  memAcc : ℚ

/-- The configuration a `PIM` is constructed from. The I/O table has one entry for each
level data crosses. -/
structure PimConfig where
  numAttacc : ℕ
  numHbm : ℕ
  pimType : PIMType
  memBwPerHbm : ℚ
  maxInterfaceBandwidth : ℚ
  memCapacityPerHbm : ℕ
  powerConstraint : Bool
  mem : ℚ
  alu : ℚ
  comm : ℚ
  io : ℚ × ℚ × ℚ × ℚ

namespace PimConfig

variable (c : PimConfig) (output : PIMType → Layer → Bool → Except PyError (ℚ × PimTraffic))

/-- `_io_time_energy`. -/
def ioTimeEnergy (l : LayerArgs) : Except PyError Outcome := do
  let traffic : ℕ := l.m * l.n * l.numOp * l.dbyte
  let execTime ← fdiv traffic (c.maxInterfaceBandwidth / 2)
  return { execTime := execTime,
           energy := XpuConfig.commEnergy (traffic * c.comm * c.numAttacc) }

/-- `get_time_and_energy`. The score stands for the whole attention layer. -/
def getTimeAndEnergy (l : Layer) : Except PyError Outcome :=
  match l.type with
  | .X2G => c.ioTimeEnergy l.toLayerArgs
  | .MATMUL =>
    if l.name = .score ∨ l.name = .vitScore then do
      let (time, traffic) ← output c.pimType l c.powerConstraint
      let ioEnergy := traffic.io0 * c.io.1 + traffic.io1 * c.io.2.1 + traffic.io2 * c.io.2.2.1 +
        traffic.io3 * c.io.2.2.2
      let cellEnergy := traffic.memAcc * c.mem
      let calEnergy : ℚ := l.getFlops / 2 * c.alu
      return { execTime := time
               energy := fun
                | .offmem => (cellEnergy + ioEnergy) * c.numAttacc
                | .alu => calEnergy * c.numAttacc
                | _ => 0 }
    else .ok { execTime := 0, energy := 0 }
  | .SOFTMAX => .ok { execTime := 0, energy := 0 }
  | _ => .error (.assertion "PIM does not support this layer.")

/-- The `PIM` of a configuration, with a source of DRAM simulations. -/
def device : Pim where
  numAttacc := c.numAttacc
  numHbm := c.numHbm
  pimType := c.pimType
  peakMemoryBandwidth := c.memBwPerHbm * c.numHbm
  aggregateMemoryCapacity := c.memCapacityPerHbm * c.numAttacc * c.numHbm
  getTimeAndEnergy := c.getTimeAndEnergy output

/-- The price of a FLOP on a PIM: only the score is charged. -/
def aluPrice (type : LayerType) (name : LayerName) : ℚ :=
  if type = .MATMUL ∧ (name = .score ∨ name = .vitScore) then c.alu * c.numAttacc / 2 else 0

variable {c output}

/-- The ALUs of a PIM are charged per FLOP of the score. -/
theorem alu_of_getTimeAndEnergy {l : Layer} {o : Outcome}
    (h : c.getTimeAndEnergy output l = .ok o) :
    o.energy .alu = l.getFlops * c.aluPrice l.type l.name := by
  unfold getTimeAndEnergy at h
  rcases htype : l.type <;> rw [htype] at h <;> try cases h
  · have hprice : c.aluPrice .MATMUL l.name =
        if l.name = .score ∨ l.name = .vitScore then c.alu * c.numAttacc / 2 else 0 := by
      simp only [aluPrice, true_and]
    rw [hprice]
    split_ifs at h ⊢ with hname
    · obtain ⟨⟨time, traffic⟩, -, h⟩ := bind_ok_iff.mp h
      obtain rfl := Except.ok.inj h
      show (l.getFlops : ℚ) / 2 * c.alu * c.numAttacc = _
      ring
    · obtain rfl := Except.ok.inj h
      rw [mul_zero]
      rfl
  · have hprice : c.aluPrice .SOFTMAX l.name = 0 := if_neg (by simp)
    rw [hprice, mul_zero]
    rfl
  · obtain ⟨execTime, -, h⟩ := bind_ok_iff.mp h
    obtain rfl := Except.ok.inj h
    have hprice : c.aluPrice .X2G l.name = 0 := if_neg (by simp)
    rw [hprice, mul_zero]
    rfl

theorem aluPrice_nonneg (halu : 0 ≤ c.alu) (type : LayerType) (name : LayerName) :
    0 ≤ c.aluPrice type name := by
  unfold aluPrice
  split_ifs
  · positivity
  · exact le_refl 0

/-- A transfer costs communication energy only; an all-reduce raises. -/
theorem energy_of_transfer {l : Layer} {o : Outcome} (h : c.getTimeAndEnergy output l = .ok o)
    (hl : l.type = .X2G ∨ l.type = .G2G) : ∃ e, o.energy = XpuConfig.commEnergy e := by
  unfold getTimeAndEnergy at h
  rcases hl with hl | hl
  · rw [hl] at h
    obtain ⟨execTime, -, h⟩ := bind_ok_iff.mp h
    obtain rfl := Except.ok.inj h
    exact ⟨_, rfl⟩
  · rw [hl] at h
    cases h

end PimConfig

/-- The configuration of an accelerator. -/
inductive AccConfig where
  | xpu (c : XpuConfig)
  | pim (c : PimConfig) (output : PIMType → Layer → Bool → Except PyError (ℚ × PimTraffic))

namespace AccConfig

/-- The accelerator of a configuration. -/
def device : AccConfig → AccDevice
  | xpu c => .xpu c.device
  | pim c output => .pim (c.device output)

/-- The energy of a FLOP, from the energy table. -/
def alu : AccConfig → ℚ
  | xpu c => c.energyTable.alu
  | pim c _ => c.alu

/-- What the accelerator charges for a FLOP of a layer. -/
def aluPrice : AccConfig → LayerType → LayerName → ℚ
  | xpu c, _, _ => c.energyTable.alu * c.numXpu / 2
  | pim c _, type, name => c.aluPrice type name

theorem alu_of_getTimeAndEnergy {c : AccConfig} {l : Layer} {o : Outcome}
    (h : c.device.getTimeAndEnergy l = .ok o) :
    o.energy .alu = l.getFlops * c.aluPrice l.type l.name := by
  cases c with
  | xpu c => exact XpuConfig.alu_of_getTimeAndEnergy h
  | pim c output => exact PimConfig.alu_of_getTimeAndEnergy h

theorem energy_of_transfer {c : AccConfig} {l : Layer} {o : Outcome}
    (h : c.device.getTimeAndEnergy l = .ok o) (hl : l.type = .X2G ∨ l.type = .G2G) :
    ∃ e, o.energy = XpuConfig.commEnergy e := by
  cases c with
  | xpu c => exact XpuConfig.energy_of_transfer h hl
  | pim c output => exact PimConfig.energy_of_transfer h hl

theorem aluPrice_nonneg {c : AccConfig} (halu : 0 ≤ c.alu) (type : LayerType)
    (name : LayerName) : 0 ≤ c.aluPrice type name := by
  cases c with
  | xpu c => exact div_nonneg (mul_nonneg halu (Nat.cast_nonneg _)) (by norm_num)
  | pim c output => exact PimConfig.aluPrice_nonneg halu type name

end AccConfig

end AttAcc
