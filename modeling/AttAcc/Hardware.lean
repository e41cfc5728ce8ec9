import AttAcc.Devices

/-!
# The hardware tables

`ENERGY_TABLE`, `BW_SCALE`, `make_xpu_config` and `make_pim_config` of `src/config.py`,
with the default scaling factors, on a machine that computes in doubles. Quantities that only
describe a device and that no modelled function reads are left out.
-/

namespace AttAcc

/-- `GPUType`. -/
inductive GPUType where
  | A100a
  | H100
  | A6000
  deriving DecidableEq, Repr

/-- `InterfaceType`. -/
inductive InterfaceType where
  | NVLINK4
  | NVLINK3
  | PCIE4
  | PCIE5
  | NVLINK_BRIDGE
  deriving DecidableEq, Repr

/-- `ENERGY_TABLE['GPU']`. -/
def gpuEnergyTable : XpuEnergyTable where
  mem := (11 / 100 + 44 / 100 + 101 / 100 + 123 / 100 + 5 / 10 + 3 / 10) * 8
  l2 := 3 / 10 * 8
  l1 := 16 / 100 * 8
  reg := 675 / 10000
  alu := 32 / 100
  comm := 13 / 10 * 8

/-- `ENERGY_TABLE['CPU']`. -/
def cpuEnergyTable : XpuEnergyTable := ⟨0, 0, 0, 0, 0, 0⟩

/-- A GPU with the scaling factors and the energy table they share. -/
def gpuConfig (numGpu numCore : ℕ) (flops memBw : ℚ) (l1Cap l2Cap : ℚ) (interfaceBw : ℚ)
    (memCap : ℕ) : XpuConfig where
  name := .GPU
  numXpu := numGpu
  numCore := numCore
  peakFlops := flops
  peakMemoryBandwidth := memBw
  peakL2Bandwidth := none
  l1CacheSize := l1Cap
  l2CacheSize := l2Cap
  maxInterfaceBandwidth := interfaceBw
  memCapacityPerDevice := memCap
  maxComputeUtil := 8 / 10
  maxMemoryUtil := 85 / 100
  energyTable := gpuEnergyTable
  float := .double

/-- `make_xpu_config(gpu_type, num_gpu)['GPU']`. -/
def makeGpuConfig (gpuType : GPUType) (numGpu : ℕ) : XpuConfig :=
  match gpuType with
  | .A100a =>
    gpuConfig numGpu 108 (312 * 10 ^ 12) (3352 * 10 ^ 9) (192 * 1024) (40 * 1024 * 1024)
      (600 * 10 ^ 9) (80 * 1024 * 1024 * 1024)
  | .H100 =>
    gpuConfig numGpu 132 (9894 / 10 * 10 ^ 12) (3352 * 10 ^ 9) (256 * 1024) (50 * 1024 * 1024)
      (900 * 10 ^ 9) (80 * 1024 * 1024 * 1024)
  | .A6000 =>
    gpuConfig numGpu 84 (3097 / 10 * 10 ^ 12) (768 * 10 ^ 9) (128 * 1024) (6 * 1024 * 1024)
      (112 * 10 ^ 9) (48 * 1024 * 1024 * 1024)

/-- A pool of two CPUs, with the scaling factors and the energy table they share. -/
def cpuConfig (numCore : ℕ) (memBw : ℚ) (l2Bw : Option ℚ) (l1Cap l2Cap : ℚ)
    (interfaceBw : ℚ) (memCap : ℕ) : XpuConfig where
  name := .CPU
  numXpu := 2
  numCore := numCore
  peakFlops := 4 * 10 ^ 12
  peakMemoryBandwidth := memBw
  peakL2Bandwidth := l2Bw
  l1CacheSize := l1Cap
  l2CacheSize := l2Cap
  maxInterfaceBandwidth := interfaceBw
  memCapacityPerDevice := memCap
  maxComputeUtil := 8 / 10
  maxMemoryUtil := 85 / 100
  energyTable := cpuEnergyTable
  float := .double

/-- `make_xpu_config(gpu_type)['CPU']`. -/
def makeCpuConfig : GPUType → XpuConfig
  | .A100a =>
    cpuConfig 64 (200 * 10 ^ 9) none (96 * 1024) (256 * 1024 * 1024) (4 * 64 * 10 ^ 9)
      (1024 * 1024 * 1024 * 1024)
  | .H100 =>
    cpuConfig 56 (8 * 2 * 4400 * 8 * 10 ^ 6) (some (55 / 10 * 10 ^ 12)) (48 * 1024)
      (2 * 1024 * 1024) (4 * 128 * 10 ^ 9) (1024 * 1024 * 1024 * 1024)
  | .A6000 =>
    cpuConfig 32 (200 * 10 ^ 9) none (64 * 1024) (64 * 1024 * 1024) (4 * 64 * 10 ^ 9)
      (512 * 1024 * 1024 * 1024)

/-- `BW_SCALE`. -/
def bwScaleTable (powerConstraint : Bool) : PIMType → ℚ
  | .BA => if powerConstraint then 9 else 2 * 4 * 4 / 2
  | .BG => if powerConstraint then 3 else 2 * 4
  | .BUFFER => 1

/-- `ENERGY_TABLE['PIM'][pim_type]['mem']`. -/
def pimMemEnergy : PIMType → ℚ
  | .BA => (11 / 100 + 44 / 100) * 8
  | .BG => (11 / 100 + 44 / 100 + 101 / 100) * 8
  | .BUFFER => (11 / 100 + 44 / 100 + 101 / 100 + 123 / 100 + 5 / 10) * 8

/-- The interface bandwidth of `make_pim_config`. -/
def InterfaceType.bandwidth : InterfaceType → ℚ
  | NVLINK3 => 600 * 10 ^ 9
  | NVLINK4 => 900 * 10 ^ 9
  | PCIE4 => 64 * 10 ^ 9
  | PCIE5 => 128 * 10 ^ 9
  | NVLINK_BRIDGE => 112 * 10 ^ 9

/-- `make_pim_config(pim_type, interface_type, num_attacc, num_hbm, power_constraint)`. -/
def makePimConfig (pimType : PIMType) (interface : InterfaceType) (numAttacc numHbm : ℕ)
    (powerConstraint : Bool) : PimConfig where
  numAttacc := numAttacc
  numHbm := numHbm
  pimType := pimType
  memBwPerHbm := 6704 / 10 * 10 ^ 9 * bwScaleTable powerConstraint pimType
  maxInterfaceBandwidth := interface.bandwidth
  memCapacityPerHbm := 16 * 1024 * 1024 * 1024
  powerConstraint := powerConstraint
  mem := pimMemEnergy pimType
  alu := 32 / 100
  comm := 104 / 10
  io := (3 / 10, 5 / 10, 123 / 100, 101 / 100)

/-- The tables charge for FLOPs on every GPU, and nowhere less than nothing. -/
theorem makeGpuConfig_alu_pos (gpuType : GPUType) (numGpu : ℕ) :
    0 < (makeGpuConfig gpuType numGpu).energyTable.alu := by
  cases gpuType <;> norm_num [makeGpuConfig, gpuConfig, gpuEnergyTable]

/-- Every GPU of the tables has an interface. -/
theorem makeGpuConfig_maxInterfaceBandwidth_pos (gpuType : GPUType) (numGpu : ℕ) :
    0 < (makeGpuConfig gpuType numGpu).maxInterfaceBandwidth := by
  cases gpuType <;> norm_num [makeGpuConfig, gpuConfig]

end AttAcc
