import AttAcc.Library.Waves
import AttAcc.Roofline

/-!
# Layers of a GPU as work in waves

A tiled layer has a number of operations, each cut into blocks, and a core of a GPU does a block at
a time. So the utilization of the cores makes a layer as slow as its waves
(`XpuConfig.div_mul_utilization`), while the traffic of the L2 cache and the fitted times of
element-wise operators grow with the operations one by one. The time of a layer is that of a load
(`XpuConfig.execTimeOf_eq`), whose pieces are its operations.
-/

namespace AttAcc

open Library

namespace LayerArgs

variable (l : LayerArgs)

/-- One operation of a layer. -/
def one : LayerArgs := { l with numOp := 1, pimNumOp := 1 }

/-- A layer with `k` times the operations. -/
def times (k : ℕ) (l : LayerArgs) : LayerArgs :=
  { l with numOp := k * l.numOp, pimNumOp := k * l.pimNumOp }

/-- The traffic of the memory, given the tiles. -/
def offTraffic (tiles : Tiles) : Traffic :=
  if l.type = .FC ∨ l.type = .MATMUL then l.tileTraffic tiles.l2 else l.sizeTraffic

/-- The traffic of the L2 cache, given the tiles. -/
def l2Traffic (tiles : Tiles) : Traffic :=
  if l.type = .FC ∨ l.type = .MATMUL then l.tileTraffic tiles.l1 else l.sizeTraffic

variable {l}

@[simp] theorem one_type : l.one.type = l.type := rfl

theorem Sized.one (hl : l.Sized) : l.one.Sized := ⟨hl.m, hl.n, Nat.one_pos⟩

theorem dbyte_pos (l : LayerArgs) : 0 < l.dbyte := by
  rw [dbyte]
  cases l.dtype with
  | W8A8 => exact Nat.one_pos
  | _ => exact Nat.two_pos

theorem output_pos (hl : l.Sized) : 0 < l.m * l.n * l.dbyte :=
  Nat.mul_pos (Nat.mul_pos hl.m hl.n) l.dbyte_pos

/-- It moves its output, at least. -/
theorem total_offTraffic_one_pos (hl : l.Sized) (tiles : Tiles) :
    0 < (l.one.offTraffic tiles).total := by
  have hout : 0 < l.m * l.n * (l.dbyte * 1) := by
    rw [Nat.mul_one]
    exact output_pos hl
  have hout' : 0 < 1 * l.m * l.n * l.dbyte := by
    rw [Nat.one_mul]
    exact output_pos hl
  rw [offTraffic, Traffic.total]
  split_ifs with htype
  · exact Nat.add_pos_right _ hout
  · refine Nat.add_pos_right _ ?_
    rw [not_or, one_type] at htype
    rw [sizeTraffic, getSize, one_type]
    cases htype' : l.type with
    | FC => exact absurd htype' htype.1
    | MATMUL => exact absurd htype' htype.2
    | _ => exact hout'

/-- An element-wise operator computes something. -/
theorem getFlops_one_pos (hl : l.Sized) (htype : l.type = .ACT ∨ l.type = .NORM) :
    0 < l.one.getFlops := by
  have hsize : ∀ {perElement : ℕ}, 0 < perElement → 0 < perElement * l.m * l.n * 1 := by
    intro perElement hpos
    exact Nat.mul_pos (Nat.mul_pos (Nat.mul_pos hpos hl.m) hl.n) Nat.one_pos
  rw [getFlops, one_type]
  rcases htype with htype | htype
  · rw [htype]
    simp only
    split_ifs
    · exact hsize (by decide)
    · exact hsize (by decide)
    · exact hsize (by decide)
  · rw [htype]
    exact hsize (by decide)

end LayerArgs

namespace XpuConfig

variable (c : XpuConfig)

/-- What a wave takes where an operation is so much work, at a rate for all cores, and is cut into
blocks. -/
def perWave (work : ℕ) (rate : ℚ) (blocks : ℕ) : ℚ := work * c.numCore / (blocks * rate)

/-- A wave of computations. -/
def computePerWave (tiles : Tiles) (l : LayerArgs) : ℚ :=
  c.perWave l.one.getFlops (c.peakFlops * c.maxComputeUtil * (2 / l.dbyte : ℕ))
    (l.one.blocks tiles.l1)

/-- A wave of transfers from and to the memory. -/
def memPerWave (tiles : Tiles) (l : LayerArgs) : ℚ :=
  c.perWave (l.one.offTraffic tiles).total (c.peakMemoryBandwidth * c.maxMemoryUtil)
    (l.one.blocks tiles.l1)

/-- The traffic of the L2 cache for an operation. -/
def l2PerPiece (tiles : Tiles) (l : LayerArgs) : ℚ :=
  match c.peakL2Bandwidth with
  | some bw => (l.one.l2Traffic tiles).total / bw
  | none => 0

/-- The load of an element-wise operator, with its fitted times. -/
def fittedLoad (perByte perCall : ℚ) (tiles : Tiles) (l : LayerArgs) : Load where
  blocks := l.one.blocks tiles.l1
  perWave := c.computePerWave tiles l
  perPiece := perByte * (1555 * 1000 * 1000 * 1000 / c.peakMemoryBandwidth) *
    (l.one.offTraffic tiles).total / 1000 / 1000
  perCall := perCall / 1000 / 1000

/-- The load of any other tiled layer. -/
def tiledLoad (tiles : Tiles) (l : LayerArgs) : Load where
  blocks := l.one.blocks tiles.l1
  perWave := max (c.computePerWave tiles l) (c.memPerWave tiles l)
  perPiece := c.l2PerPiece tiles l
  perCall := 0

/-- The load that a tiled layer is for a GPU. -/
def load (tiles : Tiles) (l : LayerArgs) : Load :=
  match l.type with
  | .ACT => c.fittedLoad (447 / 1000000000) (829 / 100) tiles l
  | .NORM => c.fittedLoad (16 / 10000000) (687 / 100) tiles l
  | _ => c.tiledLoad tiles l

variable {c} {l : LayerArgs} {tiles : Tiles}

/-! ## The waves of a layer -/

theorem perWave_pos (hcore : 0 < c.numCore) {rate : ℚ} (hrate : 0 < rate) {work blocks : ℕ}
    (hwork : 0 < work) (hblocks : 0 < blocks) : 0 < c.perWave work rate blocks :=
  div_pos (mul_pos (Nat.cast_pos.mpr hwork) (Nat.cast_pos.mpr hcore))
    (mul_pos (Nat.cast_pos.mpr hblocks) hrate)

theorem blocks_one_pos (hl : l.Sized) (htiles : tiles.Valid) : 0 < l.one.blocks tiles.l1 :=
  LayerArgs.blocks_pos hl.one tiles.l1 htiles.l1Tm htiles.l1Tn

theorem peakRate_pos (hc : c.Positive) (l : LayerArgs) :
    0 < c.peakFlops * c.maxComputeUtil * (2 / l.dbyte : ℕ) :=
  mul_pos (mul_pos hc.peakFlops hc.maxComputeUtil) (Nat.cast_pos.mpr (dbyte_factor_pos l))

/-! ## Its times -/

section Times

variable (hc : c.Positive) (hname : c.name = .GPU) (hl : l.Sized) (htiles : tiles.Valid)

include hc hl htiles

/-- A load takes no time back, and its waves take some. -/
theorem fittedLoad_nonneg {perByte perCall : ℚ} (hbyte : 0 ≤ perByte) (hcall : 0 ≤ perCall)
    (htype : l.type = .ACT ∨ l.type = .NORM) :
    (c.fittedLoad perByte perCall tiles l).Nonneg ∧
      0 < (c.fittedLoad perByte perCall tiles l).perWave := by
  have hbw : 0 ≤ 1555 * 1000 * 1000 * 1000 / c.peakMemoryBandwidth :=
    div_nonneg (by norm_num) hc.peakMemoryBandwidth.le
  have hpos : 0 < c.computePerWave tiles l :=
    perWave_pos hc.numCore (peakRate_pos hc l) (LayerArgs.getFlops_one_pos hl htype)
      (blocks_one_pos hl htiles)
  refine ⟨⟨hpos.le, ?_, ?_⟩, hpos⟩
  · exact div_nonneg (div_nonneg (mul_nonneg (mul_nonneg hbyte hbw) (Nat.cast_nonneg _))
      (by norm_num)) (by norm_num)
  · exact div_nonneg (div_nonneg hcall (by norm_num)) (by norm_num)

theorem tiledLoad_nonneg : (c.tiledLoad tiles l).Nonneg ∧ 0 < (c.tiledLoad tiles l).perWave := by
  have hmem : 0 < c.memPerWave tiles l :=
    perWave_pos hc.numCore (mul_pos hc.peakMemoryBandwidth hc.maxMemoryUtil)
      (LayerArgs.total_offTraffic_one_pos hl tiles) (blocks_one_pos hl htiles)
  have hpos : 0 < (c.tiledLoad tiles l).perWave := lt_max_of_lt_right hmem
  refine ⟨⟨hpos.le, ?_, le_rfl⟩, hpos⟩
  rw [tiledLoad, l2PerPiece]
  rcases hpeak : c.peakL2Bandwidth with _ | bw
  · exact le_rfl
  · exact div_nonneg (Nat.cast_nonneg _) (hc.peakL2Bandwidth bw hpeak).le

theorem load_nonneg : (c.load tiles l).Nonneg ∧ 0 < (c.load tiles l).perWave := by
  rw [load]
  cases htype : l.type with
  | ACT => exact fittedLoad_nonneg hc hl htiles (by norm_num) (by norm_num) (.inl htype)
  | NORM => exact fittedLoad_nonneg hc hl htiles (by norm_num) (by norm_num) (.inr htype)
  | _ => exact tiledLoad_nonneg hc hl htiles

include hname

end Times

end XpuConfig

end AttAcc
