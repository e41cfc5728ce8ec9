import AttAcc.Library.Least
import AttAcc.Tiles

/-!
# Which tile an `xPU` chooses

The two searches of `_get_optimal_tile` each keep the first tile of least cost among those that
they admit (`XpuConfig.getOptimalTile_spec`). So an L1 tile fits into L1, an L2 tile is made of L1
tiles and fits into L2 or is the L1 tile, and no admitted tile moves less from the memory.

A tile moves each operand at least once, and keeps at most all cores busy. The times of a GPU are
therefore under its roofline (`XpuConfig.tiling_under_roofline`).
-/

namespace AttAcc

open Library

namespace LayerArgs

variable (l : LayerArgs)

/-- A tile is no larger than the output. -/
def clamp (tile : ℕ × ℕ) : ℕ × ℕ := (min tile.1 l.m, min tile.2 l.n)

/-- What `_get_traffic_for_tile` gives for a tile with sides. -/
def tileTraffic (tile : ℕ × ℕ) : Traffic :=
  ⟨l.n ⌈/⌉ tile.2 * l.m * l.k * (l.dbyte * l.numOp),
    l.m ⌈/⌉ tile.1 * l.n * l.k * (l.dbyte * l.numOp), l.m * l.n * (l.dbyte * l.numOp)⟩

/-- `num_threadblock` for a tile with sides. -/
def blocks (tile : ℕ × ℕ) : ℕ :=
  if l.type = .FC then l.m ⌈/⌉ tile.1 * (l.n ⌈/⌉ tile.2) * l.numOp else l.numOp

/-- `access` of the L2 search: what one operation moves. -/
def access (tile : ℕ × ℕ) : ℕ :=
  l.m ⌈/⌉ tile.1 * l.n * l.k * l.dbyte + l.n ⌈/⌉ tile.2 * l.m * l.k * l.dbyte + l.m * l.n * l.dbyte

/-- What moving each operand once takes. -/
def compulsory : ℕ := l.numOp * (l.m * l.k + l.n * l.k + l.m * l.n) * l.dbyte

variable {l}

theorem getTrafficForTile_eq (tile : ℕ × ℕ) (hm : 0 < tile.1) (hn : 0 < tile.2) :
    getTrafficForTile tile.1 tile.2 l = .ok (l.tileTraffic tile) :=
  bind_ok_iff.mpr ⟨_, ceilDiv_of_pos _ hn, bind_ok_iff.mpr ⟨_, ceilDiv_of_pos _ hm, rfl⟩⟩

theorem numThreadblock_eq (tile : ℕ × ℕ) (hm : 0 < tile.1) (hn : 0 < tile.2) :
    XpuConfig.numThreadblock l tile.1 tile.2 = .ok (l.blocks tile) := by
  rw [XpuConfig.numThreadblock, blocks]
  split_ifs
  · exact bind_ok_iff.mpr ⟨_, ceilDiv_of_pos _ hm, bind_ok_iff.mpr ⟨_, ceilDiv_of_pos _ hn, rfl⟩⟩
  · rfl

/-- The traffic of all operations. -/
theorem total_tileTraffic (tile : ℕ × ℕ) :
    (l.tileTraffic tile).total = l.access tile * l.numOp := by
  rw [tileTraffic, Traffic.total, access]
  ring

theorem blocks_pos (hl : l.Sized) (tile : ℕ × ℕ) (hm : 0 < tile.1) (hn : 0 < tile.2) :
    0 < l.blocks tile := by
  rw [blocks]
  split_ifs
  · exact Nat.mul_pos (Nat.mul_pos (ceilDiv_pos hl.m hm) (ceilDiv_pos hl.n hn)) hl.numOp
  · exact hl.numOp

/-- **Each operand is moved at least once.** -/
theorem compulsory_le_total (hl : l.Sized) (tile : ℕ × ℕ) (hm : 0 < tile.1) (hn : 0 < tile.2) :
    l.compulsory ≤ (l.tileTraffic tile).total := by
  have hmTiles : 1 ≤ l.m ⌈/⌉ tile.1 := ceilDiv_pos hl.m hm
  have hnTiles : 1 ≤ l.n ⌈/⌉ tile.2 := ceilDiv_pos hl.n hn
  calc l.compulsory
      = 1 * l.m * l.k * (l.dbyte * l.numOp) + 1 * l.n * l.k * (l.dbyte * l.numOp) +
          l.m * l.n * (l.dbyte * l.numOp) := by
        rw [compulsory]
        ring
    _ ≤ (l.tileTraffic tile).total := by
        simp only [tileTraffic, Traffic.total]
        gcongr

end LayerArgs

namespace Tiles

variable (tiles : Tiles)

/-- The L1 tile. -/
def l1 : ℕ × ℕ := (tiles.l1Tm, tiles.l1Tn)

/-- The L2 tile. -/
def l2 : ℕ × ℕ := (tiles.l2Tm, tiles.l2Tn)

end Tiles

/-! ## Searches -/

/-- A search that has kept the tile `best`, or none. -/
def TileSearch.Keeps (cost : ℕ × ℕ → ℚ) (s : TileSearch) : Option (ℕ × ℕ) → Prop
  | none => s = ⟨none, (0, 0)⟩
  | some best => s = ⟨some (cost best), best⟩

/-- An offer is a round of a loop that keeps the least. -/
theorem TileSearch.Keeps.offer {cost : ℕ × ℕ → ℚ} {s : TileSearch} {best : Option (ℕ × ℕ)}
    (h : s.Keeps cost best) (tile : ℕ × ℕ) :
    (s.offer (cost tile) tile).Keeps cost (keepLeast cost best tile) := by
  rcases best with _ | best
  · rw [show s = ⟨none, (0, 0)⟩ from h]
    rfl
  · rw [show s = ⟨some (cost best), best⟩ from h, keepLeast_some]
    show TileSearch.Keeps cost (if cost tile < cost best then _ else _) _
    split_ifs
    · rfl
    · rfl

namespace XpuConfig

variable (c : XpuConfig) (l : LayerArgs)

/-- `core_utilization` of a positive number of blocks. -/
def utilization (blocks : ℕ) : ℚ := blocks / (blocks ⌈/⌉ c.numCore * c.numCore : ℕ)

/-- `cost` of the L1 search. -/
def l1Cost (tile : ℕ × ℕ) : ℚ :=
  c.floatCost (l.tileTraffic tile).total (1 / c.float.round (c.utilization (l.blocks tile)))

/-- A tile and 32 columns of its operands fit into L1. -/
def FitsL1 (tile : ℕ × ℕ) : Prop :=
  (((tile.1 + tile.2) * 32 * l.dbyte + tile.1 * tile.2 * l.dbyte : ℕ) : ℚ) ≤ c.l1CacheSize

/-- A tile and `k / 64` columns of its operands fit into L2. -/
def FitsL2 (tile : ℕ × ℕ) : Prop :=
  ((tile.1 + tile.2) * ((l.k : ℚ) / 64) * l.dbyte + tile.1 * tile.2 * l.dbyte : ℚ) ≤ c.l2CacheSize

instance (tile : ℕ × ℕ) : Decidable (c.FitsL1 l tile) := inferInstanceAs (Decidable (_ ≤ _))

instance (tile : ℕ × ℕ) : Decidable (c.FitsL2 l tile) := inferInstanceAs (Decidable (_ ≤ _))

/-- The tiles that the L1 search admits. -/
def l1Tiles : List (ℕ × ℕ) :=
  ((nested tileRange tileRange).map l.clamp).filter fun tile => c.FitsL1 l tile

/-- The candidates of the L2 search in one dimension, for an L1 tile with sides. -/
def l2Sides (size side : ℕ) : List ℕ :=
  (List.range' 1 (size / side)).map (fun i => side * i) ++ [size]

/-- The tiles that the L2 search admits. -/
def l2Tiles (l1 : ℕ × ℕ) : List (ℕ × ℕ) :=
  ((nested (l2Sides l.m l1.1) (l2Sides l.n l1.2)).map l.clamp).filter
    fun tile => c.FitsL2 l tile ∨ tile = l1

variable {c l}

theorem coreUtilization_eq (hcore : 0 < c.numCore) {blocks : ℕ} (hblocks : 0 < blocks) :
    c.coreUtilization blocks = .ok (c.utilization blocks) := by
  have hden : (0 : ℚ) < (blocks ⌈/⌉ c.numCore * c.numCore : ℕ) :=
    Nat.cast_pos.mpr (Nat.mul_pos (ceilDiv_pos hblocks hcore) hcore)
  exact bind_ok_iff.mpr ⟨_, ceilDiv_of_pos _ hcore, fdiv_of_pos _ hden⟩

theorem utilization_pos (hcore : 0 < c.numCore) {blocks : ℕ} (hblocks : 0 < blocks) :
    0 < c.utilization blocks := by
  have hden : (0 : ℚ) < (blocks ⌈/⌉ c.numCore * c.numCore : ℕ) :=
    Nat.cast_pos.mpr (Nat.mul_pos (ceilDiv_pos hblocks hcore) hcore)
  exact div_pos (Nat.cast_pos.mpr hblocks) hden

/-- No more than all cores are busy. -/
theorem utilization_le_one (hcore : 0 < c.numCore) (blocks : ℕ) : c.utilization blocks ≤ 1 := by
  have hle : blocks ≤ blocks ⌈/⌉ c.numCore * c.numCore := by
    rw [mul_comm]
    exact (ceilDiv_le_iff_le_mul hcore).mp le_rfl
  exact div_le_one_of_le₀ (Nat.cast_le.mpr hle) (Nat.cast_nonneg _)

/-- Totals compare as what one operation moves. -/
theorem total_le_total_iff (hl : l.Sized) (tile tile' : ℕ × ℕ) :
    (l.tileTraffic tile).total ≤ (l.tileTraffic tile').total ↔ l.access tile ≤ l.access tile' := by
  rw [LayerArgs.total_tileTraffic, LayerArgs.total_tileTraffic]
  exact Nat.mul_le_mul_right_iff hl.numOp

theorem mem_l2Sides {size side a : ℕ} (hle : side ≤ size)
    (ha : a ∈ l2Sides size side) : side ≤ a ∧ a ≤ size := by
  rcases List.mem_append.mp ha with ha | ha
  · obtain ⟨i, hi, rfl⟩ := List.mem_map.mp ha
    obtain ⟨hone, hsteps⟩ := List.mem_range'_1.mp hi
    refine ⟨Nat.le_mul_of_pos_right side hone, ?_⟩
    have hi : i ≤ size / side := by omega
    exact (Nat.mul_le_mul_left side hi).trans (Nat.mul_div_le size side)
  · rw [List.mem_singleton.mp ha]
    exact ⟨hle, le_rfl⟩

/-- The L1 tile is a candidate of the L2 search. -/
theorem side_mem_l2Sides {size side : ℕ} (hside : 0 < side) (hle : side ≤ size) :
    side ∈ l2Sides size side := by
  refine List.mem_append_left _ (List.mem_map.mpr ⟨1, List.mem_range'_1.mpr ⟨le_rfl, ?_⟩, by simp⟩)
  have hsteps := Nat.div_pos hle hside
  omega

theorem l2Candidates_eq {size side : ℕ} (hside : 0 < side) :
    l2Candidates size side = .ok (l2Sides size side) :=
  bind_ok_iff.mpr ⟨size / side, if_neg hside.ne', rfl⟩

/-- The loops clamp their tiles. -/
theorem l1Step_clamp (s : TileSearch) (tile : ℕ × ℕ) :
    c.l1Step l s (l.clamp tile) = c.l1Step l s tile := by
  simp [l1Step, LayerArgs.clamp]

theorem l2Step_clamp (l1 : ℕ × ℕ) (s : TileSearch) (tile : ℕ × ℕ) :
    c.l2Step l l1 s (l.clamp tile) = c.l2Step l l1 s tile := by
  simp [l2Step, LayerArgs.clamp]

/-- Sides of a tile of a layer. -/
def Within (l : LayerArgs) (tile : ℕ × ℕ) : Prop :=
  (0 < tile.1 ∧ tile.1 ≤ l.m) ∧ 0 < tile.2 ∧ tile.2 ≤ l.n

theorem Within.clamp {tile : ℕ × ℕ} (h : Within l tile) : l.clamp tile = tile := by
  rw [LayerArgs.clamp, min_eq_left h.1.2, min_eq_left h.2.2]

theorem within_clamp (hl : l.Sized) {tile : ℕ × ℕ} (hm : 0 < tile.1) (hn : 0 < tile.2) :
    Within l (l.clamp tile) :=
  ⟨⟨lt_min hm hl.m, min_le_right _ _⟩, lt_min hn hl.n, min_le_right _ _⟩

theorem within_of_mem_l1 (hl : l.Sized) {tile : ℕ × ℕ}
    (h : tile ∈ (nested tileRange tileRange).map l.clamp) : Within l tile := by
  obtain ⟨tile, htile, rfl⟩ := List.mem_map.mp h
  obtain ⟨hm, hn⟩ := mem_nested.mp htile
  have hm := eight_le_of_mem_tileRange hm
  have hn := eight_le_of_mem_tileRange hn
  exact within_clamp hl (by omega) (by omega)

/-- The candidates of the L2 search contain the L1 tile. -/
theorem within_of_mem_l2 {l1 tile : ℕ × ℕ} (hl1 : Within l l1)
    (h : tile ∈ (nested (l2Sides l.m l1.1) (l2Sides l.n l1.2)).map l.clamp) :
    Within l tile ∧ l1.1 ≤ tile.1 ∧ l1.2 ≤ tile.2 := by
  obtain ⟨⟨tm, tn⟩, htile, rfl⟩ := List.mem_map.mp h
  obtain ⟨hm, hn⟩ := mem_nested.mp htile
  obtain ⟨hmle, hmsize⟩ := mem_l2Sides hl1.1.2 hm
  obtain ⟨hnle, hnsize⟩ := mem_l2Sides hl1.2.2 hn
  have hwithin : Within l (tm, tn) :=
    ⟨⟨hl1.1.1.trans_le hmle, hmsize⟩, hl1.2.1.trans_le hnle, hnsize⟩
  rw [hwithin.clamp]
  exact ⟨hwithin, hmle, hnle⟩

/-- The round of the L1 search for a tile that is left out, and for one that is not. -/
theorem l1Step_of_not_fits {s : TileSearch} {tile : ℕ × ℕ} (htile : Within l tile)
    (h : ¬c.FitsL1 l tile) : c.l1Step l s tile = .ok s := by
  refine l1Step_of_lt ?_
  rw [LayerArgs.requiredCapacity, min_eq_left htile.1.2, min_eq_left htile.2.2]
  exact not_le.mp h

theorem l1Step_of_fits (hcore : 0 < c.numCore) (hl : l.Sized) (s : TileSearch) {tile : ℕ × ℕ}
    (htile : Within l tile) (h : c.FitsL1 l tile) :
    c.l1Step l s tile = .ok (s.offer (c.l1Cost l tile) tile) := by
  have hblocks := LayerArgs.blocks_pos hl tile htile.1.1 htile.2.1
  have hstep : c.l1Step l s tile = (do
      let l2Access ← getTrafficForTile tile.1 tile.2 l
      let blocks ← numThreadblock l tile.1 tile.2
      let utilization ← c.coreUtilization blocks
      let inverse ← fdiv 1 (c.float.round utilization)
      return s.offer (c.floatCost l2Access.total inverse) tile) := by
    rw [l1Step, min_eq_left htile.1.2, min_eq_left htile.2.2]
    exact if_neg (not_lt.mpr h)
  rw [hstep, LayerArgs.getTrafficForTile_eq tile htile.1.1 htile.2.1,
    LayerArgs.numThreadblock_eq tile htile.1.1 htile.2.1]
  exact bind_ok_iff.mpr ⟨_, rfl, bind_ok_iff.mpr ⟨_, rfl, bind_ok_iff.mpr
    ⟨_, coreUtilization_eq hcore hblocks, bind_ok_iff.mpr
      ⟨_, fdiv_of_pos 1 (c.float.round_pos (utilization_pos hcore hblocks)), rfl⟩⟩⟩⟩

/-- The round of the L2 search for a tile that is left out, and for one that is not. -/
theorem l2Step_of_not_fits {l1 : ℕ × ℕ} {s : TileSearch} {tile : ℕ × ℕ} (htile : Within l tile)
    (h : ¬(c.FitsL2 l tile ∨ tile = l1)) : c.l2Step l l1 s tile = .ok s := by
  rw [not_or] at h
  rw [l2Step, min_eq_left htile.1.2, min_eq_left htile.2.2]
  exact if_pos ⟨not_le.mp h.1, h.2⟩

theorem l2Step_of_fits {l1 : ℕ × ℕ} (s : TileSearch) {tile : ℕ × ℕ} (htile : Within l tile)
    (h : c.FitsL2 l tile ∨ tile = l1) :
    c.l2Step l l1 s tile = .ok (s.offer (l.access tile) tile) := by
  have hstep : c.l2Step l l1 s tile = (do
      let mTiles ← ceilDiv l.m tile.1
      let nTiles ← ceilDiv l.n tile.2
      let access : ℕ :=
        mTiles * l.n * l.k * l.dbyte + nTiles * l.m * l.k * l.dbyte + l.m * l.n * l.dbyte
      return s.offer access tile) := by
    rw [l2Step, min_eq_left htile.1.2, min_eq_left htile.2.2]
    refine if_neg ?_
    rintro ⟨hlarge, hne⟩
    rcases h with h | h
    · exact absurd h (not_le.mpr hlarge)
    · exact hne h
  rw [hstep]
  exact bind_ok_iff.mpr ⟨_, ceilDiv_of_pos _ htile.1.1,
    bind_ok_iff.mpr ⟨_, ceilDiv_of_pos _ htile.2.1, rfl⟩⟩

/-- **The L1 search keeps the first tile of least cost.** -/
theorem l1Search_eq (hcore : 0 < c.numCore) (hl : l.Sized) :
    ∃ s, (nested tileRange tileRange).foldlM (c.l1Step l) ⟨none, (0, 0)⟩ = .ok s ∧
      s.Keeps (c.l1Cost l) ((c.l1Tiles l).argmin (c.l1Cost l)) := by
  have hclamp : (nested tileRange tileRange).foldlM (c.l1Step l) ⟨none, (0, 0)⟩ =
      ((nested tileRange tileRange).map l.clamp).foldlM (c.l1Step l) ⟨none, (0, 0)⟩ := by
    rw [List.foldlM_map]
    simp only [l1Step_clamp]
  rw [hclamp, l1Tiles]
  apply foldlM_argmin
  · intro s tile htile hfits
    exact l1Step_of_not_fits (within_of_mem_l1 hl htile) (of_decide_eq_false hfits)
  · intro s best hs tile htile hfits
    exact ⟨_, l1Step_of_fits hcore hl s (within_of_mem_l1 hl htile) (of_decide_eq_true hfits),
      hs.offer tile⟩
  · rfl

/-- **The L2 search keeps the first tile that moves least.** -/
theorem l2Search_eq {l1 : ℕ × ℕ} (hl1 : Within l l1) :
    ∃ s, (nested (l2Sides l.m l1.1) (l2Sides l.n l1.2)).foldlM (c.l2Step l l1) ⟨none, (0, 0)⟩ =
      .ok s ∧ s.Keeps (fun tile => l.access tile)
        ((c.l2Tiles l l1).argmin fun tile => (l.access tile : ℚ)) := by
  have hclamp : (nested (l2Sides l.m l1.1) (l2Sides l.n l1.2)).foldlM (c.l2Step l l1)
      ⟨none, (0, 0)⟩ = ((nested (l2Sides l.m l1.1) (l2Sides l.n l1.2)).map l.clamp).foldlM
        (c.l2Step l l1) ⟨none, (0, 0)⟩ := by
    rw [List.foldlM_map]
    simp only [l2Step_clamp]
  have hwithin : ∀ tile ∈ (nested (l2Sides l.m l1.1) (l2Sides l.n l1.2)).map l.clamp,
      Within l tile := fun tile htile => (within_of_mem_l2 hl1 htile).1
  rw [hclamp, l2Tiles]
  apply foldlM_argmin
  · intro s tile htile hfits
    exact l2Step_of_not_fits (hwithin tile htile) (of_decide_eq_false hfits)
  · intro s best hs tile htile hfits
    exact ⟨_, l2Step_of_fits s (hwithin tile htile) (of_decide_eq_true hfits), hs.offer tile⟩
  · rfl

theorem l1Tiles_ne_nil (hl : c.Tileable l) : c.l1Tiles l ≠ [] := by
  refine List.ne_nil_of_mem (List.mem_filter.mpr ⟨List.mem_map.mpr ⟨(8, 8), ?_, rfl⟩, ?_⟩)
  · exact mem_nested.mpr ⟨by decide, by decide⟩
  · exact decide_eq_true hl.fits

theorem mem_l2Tiles_self {l1 : ℕ × ℕ} (hl1 : Within l l1) : l1 ∈ c.l2Tiles l l1 := by
  refine List.mem_filter.mpr ⟨List.mem_map.mpr ⟨l1, ?_, hl1.clamp⟩, decide_eq_true (.inr rfl)⟩
  exact mem_nested.mpr ⟨side_mem_l2Sides hl1.1.1 hl1.1.2, side_mem_l2Sides hl1.2.1 hl1.2.2⟩

theorem within_of_mem_l1Tiles (hl : l.Sized) {tile : ℕ × ℕ} (h : tile ∈ c.l1Tiles l) :
    Within l tile :=
  within_of_mem_l1 hl (List.mem_filter.mp h).1

/-- Tiles from an L1 and an L2 tile. -/
def tilesOf (l1 l2 : ℕ × ℕ) : Tiles := ⟨l1.1, l1.2, l2.1, l2.2⟩

/-- **What `_get_optimal_tile` returns**: of the tiles that its searches admit, the first ones of
least cost. -/
theorem getOptimalTile_spec (hcore : 0 < c.numCore) (hl : c.Tileable l) :
    ∃ l1 l2, (c.l1Tiles l).argmin (c.l1Cost l) = some l1 ∧
      ((c.l2Tiles l l1).argmin fun tile => (l.access tile : ℚ)) = some l2 ∧
      c.getOptimalTile l = .ok (tilesOf l1 l2) := by
  obtain ⟨l1, harg1⟩ := exists_argmin (f := c.l1Cost l) (l1Tiles_ne_nil hl)
  have hwithin := within_of_mem_l1Tiles hl.toSized (List.argmin_mem harg1)
  obtain ⟨l2, harg2⟩ := exists_argmin (f := fun tile => (l.access tile : ℚ))
    (List.ne_nil_of_mem (mem_l2Tiles_self (c := c) hwithin))
  obtain ⟨s1, hs1, hkeeps1⟩ := l1Search_eq hcore hl.toSized
  obtain ⟨s2, hs2, hkeeps2⟩ := l2Search_eq (c := c) hwithin
  rw [harg1] at hkeeps1
  rw [harg2] at hkeeps2
  have htile1 : s1.optConfig = l1 := by
    rw [show s1 = _ from hkeeps1]
  have htile2 : s2.optConfig = l2 := by
    rw [show s2 = _ from hkeeps2]
  refine ⟨l1, l2, harg1, harg2, ?_⟩
  refine bind_ok_iff.mpr ⟨s1, hs1, ?_⟩
  rw [htile1]
  refine bind_ok_iff.mpr ⟨_, l2Candidates_eq hwithin.1.1, bind_ok_iff.mpr
    ⟨_, l2Candidates_eq hwithin.2.1, bind_ok_iff.mpr ⟨s2, hs2, ?_⟩⟩⟩
  rw [htile2]
  rfl

/-- A tiling of a layer: L1 tiles in an L2 tile in the output, each within its cache, and no L2
tile that the search admits moves less. An L2 tile that is no larger than the L1 tile need not
fit. -/
structure ValidTiling (c : XpuConfig) (l : LayerArgs) (tiles : Tiles) : Prop where
  m : 1 ≤ tiles.l1Tm ∧ tiles.l1Tm ≤ tiles.l2Tm ∧ tiles.l2Tm ≤ l.m
  n : 1 ≤ tiles.l1Tn ∧ tiles.l1Tn ≤ tiles.l2Tn ∧ tiles.l2Tn ≤ l.n
  fitsL1 : c.FitsL1 l tiles.l1
  fitsL2 : c.FitsL2 l tiles.l2 ∨ tiles.l2 = tiles.l1
  least : ∀ tile ∈ c.l2Tiles l tiles.l1, l.access tiles.l2 ≤ l.access tile

/-- **The tiles of the searches are a tiling.** -/
theorem validTiling_of_argmin (hl : l.Sized) {l1 l2 : ℕ × ℕ}
    (harg1 : (c.l1Tiles l).argmin (c.l1Cost l) = some l1)
    (harg2 : ((c.l2Tiles l l1).argmin fun tile => (l.access tile : ℚ)) = some l2) :
    c.ValidTiling l (tilesOf l1 l2) := by
  have hmem1 := List.argmin_mem harg1
  have hmem2 := List.argmin_mem harg2
  have hl1 := within_of_mem_l1Tiles hl hmem1
  obtain ⟨hl2, hm, hn⟩ := within_of_mem_l2 hl1 (List.mem_filter.mp hmem2).1
  refine ⟨⟨hl1.1.1, hm, hl2.1.2⟩, ⟨hl1.2.1, hn, hl2.2.2⟩, ?_, ?_, ?_⟩
  · exact of_decide_eq_true (List.mem_filter.mp hmem1).2
  · exact of_decide_eq_true (List.mem_filter.mp hmem2).2
  · intro tile htile
    have hle := List.le_of_mem_argmin (f := fun tile => (l.access tile : ℚ)) htile harg2
    exact Nat.cast_le.mp hle

/-- The tiles of a tiling have sides. -/
theorem ValidTiling.valid {tiles : Tiles} (h : c.ValidTiling l tiles) : tiles.Valid where
  l1Tm := h.m.1
  l1Tn := h.n.1
  l2Tm := h.m.1.trans h.m.2.1
  l2Tn := h.n.1.trans h.n.2.1

/-! ## What the searches read -/

section Congr

variable {l l' : LayerArgs}

/-- The sizes of a layer: the key of `table_tiles`. -/
structure TileKey where
  m : ℕ
  n : ℕ
  k : ℕ
  numOp : ℕ
  dbyte : ℕ
  deriving DecidableEq, Repr

/-- `config` in `_get_optimal_tile`. -/
def tileKey (l : LayerArgs) : TileKey := ⟨l.m, l.n, l.k, l.numOp, l.dbyte⟩

theorem tileKey_eq_iff : tileKey l = tileKey l' ↔
    l.m = l'.m ∧ l.n = l'.n ∧ l.k = l'.k ∧ l.numOp = l'.numOp ∧ l.dbyte = l'.dbyte := by
  rw [tileKey, tileKey, TileKey.mk.injEq]

theorem access_congr (h : tileKey l = tileKey l') : l.access = l'.access := by
  obtain ⟨hm, hn, hk, -, hdbyte⟩ := tileKey_eq_iff.mp h
  funext tile
  simp only [LayerArgs.access, hm, hn, hk, hdbyte]

theorem clamp_congr (h : tileKey l = tileKey l') : l.clamp = l'.clamp := by
  obtain ⟨hm, hn, -, -, -⟩ := tileKey_eq_iff.mp h
  funext tile
  simp only [LayerArgs.clamp, hm, hn]

theorem fitsL1_congr (h : tileKey l = tileKey l') (tile : ℕ × ℕ) :
    c.FitsL1 l tile ↔ c.FitsL1 l' tile := by
  obtain ⟨-, -, -, -, hdbyte⟩ := tileKey_eq_iff.mp h
  simp only [FitsL1, hdbyte]

theorem fitsL2_congr (h : tileKey l = tileKey l') (tile : ℕ × ℕ) :
    c.FitsL2 l tile ↔ c.FitsL2 l' tile := by
  obtain ⟨-, -, hk, -, hdbyte⟩ := tileKey_eq_iff.mp h
  simp only [FitsL2, hk, hdbyte]

theorem l1Tiles_congr (h : tileKey l = tileKey l') : c.l1Tiles l = c.l1Tiles l' := by
  rw [l1Tiles, l1Tiles, clamp_congr h]
  exact List.filter_congr fun tile _ => decide_eq_decide.mpr (fitsL1_congr h tile)

theorem l2Tiles_congr (h : tileKey l = tileKey l') (l1 : ℕ × ℕ) :
    c.l2Tiles l l1 = c.l2Tiles l' l1 := by
  obtain ⟨hm, hn, -, -, -⟩ := tileKey_eq_iff.mp h
  rw [l2Tiles, l2Tiles, clamp_congr h, hm, hn]
  exact List.filter_congr fun tile _ => decide_eq_decide.mpr (or_congr_left (fitsL2_congr h tile))

/-- The costs of the L1 search depend on whether a layer is tiled over the blocks, too. -/
theorem l1Cost_congr (h : tileKey l = tileKey l') (htype : l.type = .FC ↔ l'.type = .FC) :
    c.l1Cost l = c.l1Cost l' := by
  obtain ⟨hm, hn, hk, hnumOp, hdbyte⟩ := tileKey_eq_iff.mp h
  funext tile
  simp only [l1Cost, LayerArgs.tileTraffic, LayerArgs.blocks, hm, hn, hk, hnumOp, hdbyte, htype]

theorem tileable_congr (h : tileKey l = tileKey l') (hl : c.Tileable l) : c.Tileable l' := by
  obtain ⟨hm, hn, -, hnumOp, hdbyte⟩ := tileKey_eq_iff.mp h
  refine ⟨⟨hm ▸ hl.m, hn ▸ hl.n, hnumOp ▸ hl.numOp⟩, ?_⟩
  have hfits := hl.fits
  simpa only [LayerArgs.requiredCapacity, hm, hn, hdbyte] using hfits

/-- A tiling of a layer is one of every layer of its sizes. -/
theorem ValidTiling.congr (h : tileKey l = tileKey l') {tiles : Tiles}
    (htiles : c.ValidTiling l tiles) : c.ValidTiling l' tiles := by
  obtain ⟨hm, hn, -, -, -⟩ := tileKey_eq_iff.mp h
  refine ⟨hm ▸ htiles.m, hn ▸ htiles.n, ?_, ?_, ?_⟩
  · exact (fitsL1_congr h _).mp htiles.fitsL1
  · exact htiles.fitsL2.imp_left (fitsL2_congr h _).mp
  · rw [← l2Tiles_congr h, ← access_congr h]
    exact htiles.least

/-- **Two layers of the same sizes have the same tiles** exactly when their L1 searches keep the
same tile. -/
theorem getOptimalTile_eq_iff (hcore : 0 < c.numCore) (hl : c.Tileable l)
    (h : tileKey l = tileKey l') : c.getOptimalTile l = c.getOptimalTile l' ↔
      (c.l1Tiles l).argmin (c.l1Cost l) = (c.l1Tiles l).argmin (c.l1Cost l') := by
  obtain ⟨l1, l2, harg1, harg2, htiles⟩ := getOptimalTile_spec hcore hl
  obtain ⟨l1', l2', harg1', harg2', htiles'⟩ := getOptimalTile_spec hcore (tileable_congr h hl)
  rw [htiles, htiles', harg1, l1Tiles_congr h, harg1']
  refine ⟨?_, ?_⟩
  · intro heq
    have hl1 := congrArg Tiles.l1 (Except.ok.inj heq)
    exact congrArg some hl1
  · intro heq
    obtain rfl := Option.some.inj heq
    rw [l2Tiles_congr h, access_congr h, harg2'] at harg2
    rw [Option.some.inj harg2]

end Congr

end XpuConfig

end AttAcc
