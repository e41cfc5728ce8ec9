import AttAcc.Hardware

/-!
# What an `xPU` can time

The divisors of `src/devices.py`. The tile search divides by the sides of a tile and by the
share of the cores that a layer keeps busy, and where no tile fits into the L1 cache its
result is a tile without sides, which the search for an L2 tile divides by. So a layer that
is not a transfer is timed exactly when it has a size and its smallest tile fits
(`XpuConfig.exists_getTimeAndEnergy`, `XpuConfig.times_of_getTimeAndEnergy`).
-/

namespace AttAcc

open Library

/-! ## Divisions -/

theorem ceilDiv_eq_ok {a b q : ℕ} : ceilDiv a b = .ok q ↔ 0 < b ∧ q = a ⌈/⌉ b := by
  rw [ceilDiv]
  by_cases hb : b = 0
  · simp [hb]
  · rw [if_neg hb, Except.ok.injEq, eq_comm]
    exact (and_iff_right (Nat.pos_of_ne_zero hb)).symm

theorem ceilDiv_of_pos (a : ℕ) {b : ℕ} (hb : 0 < b) : ceilDiv a b = .ok (a ⌈/⌉ b) :=
  ceilDiv_eq_ok.mpr ⟨hb, rfl⟩

theorem ceilDiv_pos {a b : ℕ} (ha : 0 < a) (hb : 0 < b) : 0 < a ⌈/⌉ b := by
  by_contra hzero
  have hle := (ceilDiv_le_iff_le_mul hb).mp (not_lt.mp hzero)
  omega

theorem fdiv_of_pos (a : ℚ) {b : ℚ} (hb : 0 < b) : fdiv a b = .ok (a / b) :=
  fdiv_eq_ok.mpr ⟨hb.ne', rfl⟩

/-! ## The tile search -/

/-- A layer that computes something: no dimension that it is tiled in is empty. -/
structure LayerArgs.Sized (l : LayerArgs) : Prop where
  m : 0 < l.m
  n : 0 < l.n
  numOp : 0 < l.numOp

/-- The `required_capacity` of a tile in L1. -/
def LayerArgs.requiredCapacity (l : LayerArgs) (tile : ℕ × ℕ) : ℕ :=
  (min tile.1 l.m + min tile.2 l.n) * 32 * l.dbyte + min tile.1 l.m * min tile.2 l.n * l.dbyte

/-- A search that has found a tile of a layer. -/
structure TileSearch.Found (l : LayerArgs) (s : TileSearch) : Prop where
  minCost : s.minCost.isSome
  m_pos : 0 < s.optConfig.1
  m_le : s.optConfig.1 ≤ l.m
  n_pos : 0 < s.optConfig.2
  n_le : s.optConfig.2 ≤ l.n

/-- Whatever it costs, a tile can be offered to a search that has found one, and to one that
has not. -/
theorem TileSearch.found_offer {l : LayerArgs} {s : TileSearch} (hs : s.Found l ∨ s.minCost = none)
    (cost : ℚ) {tile : ℕ × ℕ} (hm : 0 < tile.1 ∧ tile.1 ≤ l.m) (hn : 0 < tile.2 ∧ tile.2 ≤ l.n) :
    (s.offer cost tile).Found l := by
  have htile : (⟨some cost, tile⟩ : TileSearch).Found l := ⟨rfl, hm.1, hm.2, hn.1, hn.2⟩
  rcases hcost : s.minCost with _ | least
  · rw [offer, hcost]
    exact htile
  · rw [offer, hcost]
    simp only
    split_ifs
    · exact htile
    · rcases hs with hs | hs
      · exact hs
      · rw [hcost] at hs
        cases hs

/-- No tile of the search is smaller than the first one. -/
theorem eight_le_of_mem_tileRange {side : ℕ} (h : side ∈ tileRange) : 8 ≤ side := by
  revert side
  decide

theorem exists_getTrafficForTile {tm tn : ℕ} (htm : 0 < tm) (htn : 0 < tn) (l : LayerArgs) :
    ∃ traffic, getTrafficForTile tm tn l = .ok traffic :=
  ⟨_, bind_ok_iff.mpr ⟨_, ceilDiv_of_pos _ htn, bind_ok_iff.mpr ⟨_, ceilDiv_of_pos _ htm, rfl⟩⟩⟩

theorem pos_of_getTrafficForTile {tm tn : ℕ} {l : LayerArgs} {traffic : Traffic}
    (h : getTrafficForTile tm tn l = .ok traffic) : 0 < tm ∧ 0 < tn := by
  obtain ⟨_, hn, h⟩ := bind_ok_iff.mp h
  obtain ⟨_, hm, -⟩ := bind_ok_iff.mp h
  exact ⟨(ceilDiv_eq_ok.mp hm).1, (ceilDiv_eq_ok.mp hn).1⟩

/-- Tiles that have sides. -/
structure Tiles.Valid (tiles : Tiles) : Prop where
  l1Tm : 0 < tiles.l1Tm
  l1Tn : 0 < tiles.l1Tn
  l2Tm : 0 < tiles.l2Tm
  l2Tn : 0 < tiles.l2Tn

namespace XpuConfig

variable {c : XpuConfig} {l : LayerArgs}

theorem mem_nested {outer inner : List ℕ} {a b : ℕ} :
    (a, b) ∈ nested outer inner ↔ a ∈ outer ∧ b ∈ inner := by
  simp only [nested, List.mem_flatMap, List.mem_map, Prod.mk.injEq]
  refine ⟨?_, ?_⟩
  · rintro ⟨a', ha', b', hb', rfl, rfl⟩
    exact ⟨ha', hb'⟩
  · rintro ⟨ha, hb⟩
    exact ⟨a, ha, b, hb, rfl, rfl⟩

/-- A larger tile requires more. -/
theorem requiredCapacity_eight_le (l : LayerArgs) {tile : ℕ × ℕ}
    (h : tile ∈ nested tileRange tileRange) :
    l.requiredCapacity (8, 8) ≤ l.requiredCapacity tile := by
  obtain ⟨hm, hn⟩ := mem_nested.mp h
  have hm := min_le_min_right l.m (eight_le_of_mem_tileRange hm)
  have hn := min_le_min_right l.n (eight_le_of_mem_tileRange hn)
  rw [LayerArgs.requiredCapacity, LayerArgs.requiredCapacity]
  gcongr

/-- A layer with a size keeps some block busy. -/
theorem exists_numThreadblock (hl : l.Sized) {tm tn : ℕ} (htm : 0 < tm) (htn : 0 < tn) :
    ∃ blocks, 0 < blocks ∧ numThreadblock l tm tn = .ok blocks := by
  rw [numThreadblock]
  split_ifs
  · exact ⟨_, Nat.mul_pos (Nat.mul_pos (ceilDiv_pos hl.m htm) (ceilDiv_pos hl.n htn)) hl.numOp,
      bind_ok_iff.mpr ⟨_, ceilDiv_of_pos _ htm, bind_ok_iff.mpr ⟨_, ceilDiv_of_pos _ htn, rfl⟩⟩⟩
  · exact ⟨_, hl.numOp, rfl⟩

/-- Without an operation there is no block. -/
theorem numThreadblock_of_numOp_eq_zero (hl : l.numOp = 0) {tm tn blocks : ℕ}
    (h : numThreadblock l tm tn = .ok blocks) : blocks = 0 := by
  rw [numThreadblock] at h
  split_ifs at h
  · obtain ⟨_, -, h⟩ := bind_ok_iff.mp h
    obtain ⟨_, -, h⟩ := bind_ok_iff.mp h
    obtain rfl := Except.ok.inj h
    rw [hl, Nat.mul_zero]
  · obtain rfl := Except.ok.inj h
    exact hl

/-- Some block keeps some share of the cores busy. -/
theorem exists_coreUtilization (hcore : 0 < c.numCore) {blocks : ℕ} (hblocks : 0 < blocks) :
    ∃ utilization, 0 < utilization ∧ c.coreUtilization blocks = .ok utilization := by
  have hnum : (0 : ℚ) < blocks := Nat.cast_pos.mpr hblocks
  have hden : (0 : ℚ) < ((blocks ⌈/⌉ c.numCore) * c.numCore : ℕ) :=
    Nat.cast_pos.mpr (Nat.mul_pos (ceilDiv_pos hblocks hcore) hcore)
  exact ⟨_, div_pos hnum hden,
    bind_ok_iff.mpr ⟨_, ceilDiv_of_pos _ hcore, fdiv_of_pos _ hden⟩⟩

/-- No block is no share, and an error. -/
theorem coreUtilization_zero {utilization : ℚ} : c.coreUtilization 0 ≠ .ok utilization := by
  intro h
  obtain ⟨waves, hwaves, h⟩ := bind_ok_iff.mp h
  obtain ⟨-, rfl⟩ := ceilDiv_eq_ok.mp hwaves
  refine (fdiv_eq_ok.mp h).1 ?_
  rw [zero_ceilDiv, Nat.zero_mul, Nat.cast_zero]

/-- The layers a tile is found for. -/
structure Tileable (c : XpuConfig) (l : LayerArgs) : Prop extends l.Sized where
  fits : (l.requiredCapacity (8, 8) : ℚ) ≤ c.l1CacheSize

/-- A tile that does not fit into L1 is left out. -/
theorem l1Step_of_lt {s : TileSearch} {tile : ℕ × ℕ}
    (h : c.l1CacheSize < (l.requiredCapacity tile : ℚ)) : c.l1Step l s tile = .ok s :=
  if_pos h

/-- A tile that fits is offered. -/
theorem l1Step_of_le (hcore : 0 < c.numCore) (hl : l.Sized) {s : TileSearch} {tile : ℕ × ℕ}
    (hm : 0 < tile.1) (hn : 0 < tile.2) (h : (l.requiredCapacity tile : ℚ) ≤ c.l1CacheSize) :
    ∃ cost, c.l1Step l s tile = .ok (s.offer cost (min tile.1 l.m, min tile.2 l.n)) := by
  have htm : 0 < min tile.1 l.m := lt_min hm hl.m
  have htn : 0 < min tile.2 l.n := lt_min hn hl.n
  obtain ⟨traffic, htraffic⟩ := exists_getTrafficForTile htm htn l
  obtain ⟨blocks, hblocks, hnum⟩ := exists_numThreadblock hl htm htn
  obtain ⟨utilization, hpos, hutil⟩ := exists_coreUtilization hcore hblocks
  refine ⟨c.floatCost traffic.total (1 / c.float.round utilization),
    (if_neg (not_lt.mpr h)).trans ?_⟩
  exact bind_ok_iff.mpr ⟨traffic, htraffic, bind_ok_iff.mpr ⟨blocks, hnum, bind_ok_iff.mpr
    ⟨utilization, hutil, bind_ok_iff.mpr ⟨_, fdiv_of_pos 1 (c.float.round_pos hpos), rfl⟩⟩⟩⟩

/-- And then the layer has a size. -/
theorem sized_of_l1Step {s s' : TileSearch} {tile : ℕ × ℕ}
    (hfits : (l.requiredCapacity tile : ℚ) ≤ c.l1CacheSize) (h : c.l1Step l s tile = .ok s') :
    l.Sized := by
  have h := (if_neg (not_lt.mpr hfits)).symm.trans h
  obtain ⟨traffic, htraffic, h⟩ := bind_ok_iff.mp h
  obtain ⟨blocks, hblocks, h⟩ := bind_ok_iff.mp h
  obtain ⟨utilization, hutil, -⟩ := bind_ok_iff.mp h
  obtain ⟨htm, htn⟩ := pos_of_getTrafficForTile htraffic
  refine ⟨(lt_min_iff.mp htm).2, (lt_min_iff.mp htn).2, ?_⟩
  refine Nat.pos_of_ne_zero ?_
  intro hnumOp
  rw [numThreadblock_of_numOp_eq_zero hnumOp hblocks] at hutil
  exact coreUtilization_zero hutil

/-- The search for an L1 tile finds one, from the smallest tile on. -/
theorem exists_l1Tile (hcore : 0 < c.numCore) (hl : c.Tileable l) :
    ∃ s, (nested tileRange tileRange).foldlM (c.l1Step l) ⟨none, (0, 0)⟩ = .ok s ∧ s.Found l := by
  have hside : ∀ {tile : ℕ × ℕ}, tile ∈ nested tileRange tileRange → 0 < tile.1 ∧ 0 < tile.2 := by
    intro tile htile
    obtain ⟨hm, hn⟩ := mem_nested.mp htile
    have hm := eight_le_of_mem_tileRange hm
    have hn := eight_le_of_mem_tileRange hn
    omega
  have hoffer : ∀ {s : TileSearch}, s.Found l ∨ s.minCost = none →
      ∀ tile ∈ nested tileRange tileRange, (l.requiredCapacity tile : ℚ) ≤ c.l1CacheSize →
        ∃ s', c.l1Step l s tile = .ok s' ∧ s'.Found l := by
    intro s hs tile htile hfits
    obtain ⟨hm, hn⟩ := hside htile
    obtain ⟨cost, hstep⟩ := l1Step_of_le hcore hl.toSized (s := s) hm hn hfits
    exact ⟨_, hstep, TileSearch.found_offer hs cost ⟨lt_min hm hl.m, min_le_right _ _⟩
      ⟨lt_min hn hl.n, min_le_right _ _⟩⟩
  -- the first tile fits, so something is found; what follows only improves on it
  have hrange : nested tileRange tileRange = (8, 8) :: (nested tileRange tileRange).tail := rfl
  obtain ⟨s, hfirst, hs⟩ := hoffer (s := ⟨none, (0, 0)⟩) (.inr rfl) (8, 8)
    (mem_nested.mpr ⟨by decide, by decide⟩) hl.fits
  obtain ⟨s', hrest, hs'⟩ : ∃ s', (nested tileRange tileRange).tail.foldlM (c.l1Step l) s =
      .ok s' ∧ s'.Found l := by
    refine exists_foldlM_ok ?_ hs
    intro s hs tile htile
    rcases le_or_gt (l.requiredCapacity tile : ℚ) c.l1CacheSize with hfits | hlarge
    · exact hoffer (.inl hs) tile (List.mem_of_mem_tail htile) hfits
    · exact ⟨s, l1Step_of_lt hlarge, hs⟩
  rw [hrange, List.foldlM_cons]
  exact ⟨s', bind_ok_iff.mpr ⟨s, hfirst, hrest⟩, hs'⟩

/-- It finds none where the smallest tile does not fit. -/
theorem l1Tile_of_lt (h : c.l1CacheSize < (l.requiredCapacity (8, 8) : ℚ)) :
    (nested tileRange tileRange).foldlM (c.l1Step l) ⟨none, (0, 0)⟩ = .ok ⟨none, (0, 0)⟩ := by
  obtain ⟨s, hs, rfl⟩ : ∃ s, (nested tileRange tileRange).foldlM (c.l1Step l) ⟨none, (0, 0)⟩ =
      .ok s ∧ s = ⟨none, (0, 0)⟩ := by
    refine exists_foldlM_ok ?_ rfl
    intro s hs tile htile
    have hle : (l.requiredCapacity (8, 8) : ℚ) ≤ l.requiredCapacity tile :=
      Nat.cast_le.mpr (requiredCapacity_eight_le l htile)
    exact ⟨s, l1Step_of_lt (lt_of_lt_of_le h hle), hs⟩
  exact hs

/-- The candidates in one dimension start with the L1 tile. -/
theorem exists_l2Candidates {size side : ℕ} (hside : 0 < side) (hle : side ≤ size) :
    ∃ rest, l2Candidates size side = .ok (side :: rest) ∧ ∀ a ∈ side :: rest, 0 < a := by
  have hsteps : size / side = size / side - 1 + 1 :=
    (Nat.sub_add_cancel (Nat.div_pos hle hside)).symm
  have hcandidates : (List.range' 1 (size / side)).map (fun i => side * i) ++ [size] =
      side :: ((List.range' 2 (size / side - 1)).map (fun i => side * i) ++ [size]) := by
    rw [hsteps, List.range'_succ, List.map_cons, Nat.mul_one, List.cons_append]
    rfl
  refine ⟨_, bind_ok_iff.mpr ⟨size / side, if_neg hside.ne', congrArg Except.ok hcandidates⟩, ?_⟩
  intro a ha
  rw [← hcandidates] at ha
  rcases List.mem_append.mp ha with ha | ha
  · obtain ⟨i, hi, rfl⟩ := List.mem_map.mp ha
    exact Nat.mul_pos hside (List.mem_range'_1.mp hi).1
  · rw [List.mem_singleton.mp ha]
    exact lt_of_lt_of_le hside hle

/-- The search for an L2 tile leaves a tile out only if it is not the L1 tile. -/
theorem l2Step_of_pos (c : XpuConfig) (hl : l.Sized) (l1 : ℕ × ℕ) {tile : ℕ × ℕ}
    (s : TileSearch) (hm : 0 < tile.1) (hn : 0 < tile.2) :
    (c.l2Step l l1 s tile = .ok s ∧ (min tile.1 l.m, min tile.2 l.n) ≠ l1) ∨
      ∃ cost, c.l2Step l l1 s tile = .ok (s.offer cost (min tile.1 l.m, min tile.2 l.n)) := by
  by_cases hskip : c.l2CacheSize < (((min tile.1 l.m : ℕ) + (min tile.2 l.n : ℕ)) *
      ((l.k : ℚ) / 64) * l.dbyte + (min tile.1 l.m : ℕ) * (min tile.2 l.n : ℕ) * l.dbyte : ℚ) ∧
      (min tile.1 l.m, min tile.2 l.n) ≠ l1
  · exact .inl ⟨if_pos hskip, hskip.2⟩
  · refine .inr ⟨((l.m ⌈/⌉ min tile.1 l.m * l.n * l.k * l.dbyte +
      l.n ⌈/⌉ min tile.2 l.n * l.m * l.k * l.dbyte + l.m * l.n * l.dbyte : ℕ) : ℚ),
      (if_neg hskip).trans ?_⟩
    exact bind_ok_iff.mpr ⟨_, ceilDiv_of_pos _ (lt_min hm hl.m),
      bind_ok_iff.mpr ⟨_, ceilDiv_of_pos _ (lt_min hn hl.n), rfl⟩⟩

/-- The search for an L2 tile finds one, from the L1 tile on. -/
theorem exists_l2Tile (hl : l.Sized) {l1 : ℕ × ℕ} (hm : 0 < l1.1 ∧ l1.1 ≤ l.m)
    (hn : 0 < l1.2 ∧ l1.2 ≤ l.n) {ms ns : List ℕ} (hms : ∀ a ∈ l1.1 :: ms, 0 < a)
    (hns : ∀ a ∈ l1.2 :: ns, 0 < a) :
    ∃ s, (nested (l1.1 :: ms) (l1.2 :: ns)).foldlM (c.l2Step l l1) ⟨none, (0, 0)⟩ = .ok s ∧
      s.Found l := by
  have hside : ∀ {tile : ℕ × ℕ}, tile ∈ nested (l1.1 :: ms) (l1.2 :: ns) →
      0 < tile.1 ∧ 0 < tile.2 := by
    intro tile htile
    obtain ⟨hms', hns'⟩ := mem_nested.mp htile
    exact ⟨hms _ hms', hns _ hns'⟩
  have hfound : ∀ {s : TileSearch} (cost : ℚ), s.Found l ∨ s.minCost = none →
      ∀ tile ∈ nested (l1.1 :: ms) (l1.2 :: ns),
        (s.offer cost (min tile.1 l.m, min tile.2 l.n)).Found l := by
    intro s cost hs tile htile
    obtain ⟨htm, htn⟩ := hside htile
    exact TileSearch.found_offer hs cost ⟨lt_min htm hl.m, min_le_right _ _⟩
      ⟨lt_min htn hl.n, min_le_right _ _⟩
  -- the search starts with the L1 tile itself, which it does not leave out
  have hpairs : nested (l1.1 :: ms) (l1.2 :: ns) =
      l1 :: (nested (l1.1 :: ms) (l1.2 :: ns)).tail := rfl
  have hmem : l1 ∈ nested (l1.1 :: ms) (l1.2 :: ns) := by
    rw [hpairs]
    exact List.mem_cons_self
  obtain ⟨s, hfirst, hs⟩ : ∃ s, c.l2Step l l1 ⟨none, (0, 0)⟩ l1 = .ok s ∧ s.Found l := by
    rcases l2Step_of_pos c hl l1 ⟨none, (0, 0)⟩ hm.1 hn.1 with
      ⟨-, hne⟩ | ⟨cost, hstep⟩
    · refine absurd ?_ hne
      rw [min_eq_left hm.2, min_eq_left hn.2]
    · exact ⟨_, hstep, hfound cost (.inr rfl) l1 hmem⟩
  obtain ⟨s', hrest, hs'⟩ : ∃ s', (nested (l1.1 :: ms) (l1.2 :: ns)).tail.foldlM
      (c.l2Step l l1) s = .ok s' ∧ s'.Found l := by
    refine exists_foldlM_ok ?_ hs
    intro s hs tile htile
    have htile := List.mem_of_mem_tail htile
    obtain ⟨htm, htn⟩ := hside htile
    rcases l2Step_of_pos c hl l1 s htm htn with ⟨hstep, -⟩ | ⟨cost, hstep⟩
    · exact ⟨s, hstep, hs⟩
    · exact ⟨_, hstep, hfound cost (.inl hs) tile htile⟩
  rw [hpairs, List.foldlM_cons]
  exact ⟨s', bind_ok_iff.mpr ⟨s, hfirst, hrest⟩, hs'⟩

/-- **Where a tile is found**, it has sides. -/
theorem exists_getOptimalTile (hcore : 0 < c.numCore) (hl : c.Tileable l) :
    ∃ tiles, c.getOptimalTile l = .ok tiles ∧ tiles.Valid := by
  obtain ⟨l1, hl1, hfound⟩ := exists_l1Tile hcore hl
  obtain ⟨ms, hms, hmsPos⟩ := exists_l2Candidates hfound.m_pos hfound.m_le
  obtain ⟨ns, hns, hnsPos⟩ := exists_l2Candidates hfound.n_pos hfound.n_le
  obtain ⟨l2, hl2, hfound'⟩ := exists_l2Tile (c := c) hl.toSized ⟨hfound.m_pos, hfound.m_le⟩
    ⟨hfound.n_pos, hfound.n_le⟩ hmsPos hnsPos
  exact ⟨_, bind_ok_iff.mpr ⟨l1, hl1, bind_ok_iff.mpr ⟨_, hms, bind_ok_iff.mpr ⟨_, hns,
    bind_ok_iff.mpr ⟨l2, hl2, rfl⟩⟩⟩⟩,
    ⟨hfound.m_pos, hfound.n_pos, hfound'.m_pos, hfound'.n_pos⟩⟩

/-- **A tile is found nowhere else.** -/
theorem tileable_of_getOptimalTile {tiles : Tiles} (h : c.getOptimalTile l = .ok tiles) :
    c.Tileable l := by
  obtain ⟨l1, hl1, h⟩ := bind_ok_iff.mp h
  rcases le_or_gt (l.requiredCapacity (8, 8) : ℚ) c.l1CacheSize with hfits | hlarge
  · have hrange : nested tileRange tileRange = (8, 8) :: (nested tileRange tileRange).tail := rfl
    rw [hrange, List.foldlM_cons] at hl1
    obtain ⟨s, hfirst, -⟩ := bind_ok_iff.mp hl1
    exact ⟨sized_of_l1Step hfits hfirst, hfits⟩
  · -- the search for an L2 tile divides by a side of the tile that was not found
    rw [l1Tile_of_lt hlarge] at hl1
    obtain rfl := Except.ok.inj hl1
    obtain ⟨ms, hms, -⟩ := bind_ok_iff.mp h
    obtain ⟨steps, hsteps, -⟩ := bind_ok_iff.mp hms
    cases hsteps

/-! ## Timing a layer -/

/-- A device whose parameters are positive, its cache sizes aside. -/
structure Positive (c : XpuConfig) : Prop where
  numXpu : 0 < c.numXpu
  numCore : 0 < c.numCore
  peakFlops : 0 < c.peakFlops
  peakMemoryBandwidth : 0 < c.peakMemoryBandwidth
  peakL2Bandwidth : ∀ bw, c.peakL2Bandwidth = some bw → 0 < bw
  maxInterfaceBandwidth : 0 < c.maxInterfaceBandwidth
  maxComputeUtil : 0 < c.maxComputeUtil
  maxMemoryUtil : 0 < c.maxMemoryUtil

/-- The layers a device times: transfers, and what a tile is found for. -/
def Times (c : XpuConfig) (l : LayerArgs) : Prop :=
  (l.type = .X2G ∨ l.type = .G2G) ∨ c.Tileable l

theorem dbyte_factor_pos (l : LayerArgs) : 0 < 2 / l.dbyte := by
  rw [LayerArgs.dbyte]
  cases l.dtype <;> decide

/-- The share of the cores that is busy with the L1 tiles. -/
theorem exists_utilization (hcore : 0 < c.numCore) (hl : l.Sized) {tiles : Tiles}
    (htiles : tiles.Valid) : ∃ blocks utilization,
      numThreadblock l tiles.l1Tm tiles.l1Tn = .ok blocks ∧
        c.coreUtilization blocks = .ok utilization ∧ 0 < utilization := by
  obtain ⟨blocks, hblocks, hnum⟩ := exists_numThreadblock hl htiles.l1Tm htiles.l1Tn
  obtain ⟨utilization, hpos, hutil⟩ := exists_coreUtilization hcore hblocks
  exact ⟨blocks, utilization, hnum, hutil, hpos⟩

/-- Computing takes its FLOPs, at a positive rate. -/
theorem exists_computeTime (hc : c.Positive) (hl : c.Tileable l) :
    ∃ rate, 0 < rate ∧ c.computeTime l = .ok (l.getFlops / rate) := by
  obtain ⟨tiles, htiles, hvalid⟩ := exists_getOptimalTile hc.numCore hl
  obtain ⟨blocks, utilization, hblocks, hutil, hpos⟩ :=
    exists_utilization hc.numCore hl.toSized hvalid
  have hfactor : (0 : ℚ) < (2 / l.dbyte : ℕ) := Nat.cast_pos.mpr (dbyte_factor_pos l)
  have hflops : 0 < c.peakFlops * c.maxComputeUtil := mul_pos hc.peakFlops hc.maxComputeUtil
  by_cases hname : c.name = .GPU
  · have hrate : 0 < c.peakFlops * c.maxComputeUtil * utilization * (2 / l.dbyte : ℕ) :=
      mul_pos (mul_pos hflops hpos) hfactor
    refine ⟨_, hrate, bind_ok_iff.mpr ⟨tiles, htiles, ?_⟩⟩
    rw [if_pos hname]
    exact bind_ok_iff.mpr ⟨blocks, hblocks, bind_ok_iff.mpr ⟨utilization, hutil,
      fdiv_of_pos _ hrate⟩⟩
  · have hrate : 0 < c.peakFlops * c.maxComputeUtil * 1 * (2 / l.dbyte : ℕ) :=
      mul_pos (mul_pos hflops one_pos) hfactor
    refine ⟨_, hrate, bind_ok_iff.mpr ⟨tiles, htiles, ?_⟩⟩
    rw [if_neg hname]
    exact bind_ok_iff.mpr ⟨1, rfl, fdiv_of_pos _ hrate⟩

theorem exists_getTraffic (hcore : 0 < c.numCore) (hl : c.Tileable l) :
    ∃ traffic, c.getTraffic l = .ok traffic := by
  obtain ⟨tiles, htiles, hvalid⟩ := exists_getOptimalTile hcore hl
  obtain ⟨off, hoff⟩ := exists_getTrafficForTile hvalid.l2Tm hvalid.l2Tn l
  obtain ⟨l2, hl2⟩ := exists_getTrafficForTile hvalid.l1Tm hvalid.l1Tn l
  obtain ⟨l1, hl1⟩ := exists_getTrafficForTile (by decide : 0 < 16) (by decide : 0 < 16) l
  have htiled : ∃ traffic, (c.getOptimalTile l >>= fun tiles =>
      getTrafficForTile tiles.l2Tm tiles.l2Tn l >>= fun off =>
      getTrafficForTile tiles.l1Tm tiles.l1Tn l >>= fun l2 =>
      getTrafficForTile 16 16 l >>= fun l1 =>
      (.ok (off, l2, l1, ⟨l.m * l.n * l.k, l.m * l.n * l.k, l.m * l.n * l.k⟩) :
        Except PyError (Traffic × Traffic × Traffic × Traffic))) = .ok traffic :=
    ⟨_, bind_ok_iff.mpr ⟨tiles, htiles, bind_ok_iff.mpr ⟨off, hoff, bind_ok_iff.mpr ⟨l2, hl2,
      bind_ok_iff.mpr ⟨l1, hl1, rfl⟩⟩⟩⟩⟩
  rw [getTraffic]
  cases l.type with
  | FC => exact htiled
  | MATMUL => exact htiled
  | ACT => exact ⟨_, rfl⟩
  | SOFTMAX => exact ⟨_, rfl⟩
  | NORM => exact ⟨_, rfl⟩
  | G2G => exact ⟨_, rfl⟩
  | X2G => exact ⟨_, rfl⟩

theorem exists_elementwiseTime (hc : c.Positive) (perByte perCall : ℚ) (bytes : ℕ) :
    ∃ time, c.elementwiseTime perByte perCall bytes = .ok time :=
  ⟨_, bind_ok_iff.mpr ⟨_, fdiv_of_pos _ hc.peakMemoryBandwidth, rfl⟩⟩

theorem exists_bandwidthTime (hc : c.Positive) {memBw : ℚ} (hbw : 0 < memBw) (off l2 : Traffic) :
    ∃ time, c.bandwidthTime memBw off l2 = .ok time := by
  rw [bandwidthTime]
  rcases hpeak : c.peakL2Bandwidth with _ | bw
  · exact ⟨_, bind_ok_iff.mpr ⟨_, fdiv_of_pos _ hbw, rfl⟩⟩
  · exact ⟨_, bind_ok_iff.mpr ⟨_, fdiv_of_pos _ hbw, bind_ok_iff.mpr
      ⟨_, fdiv_of_pos _ (hc.peakL2Bandwidth bw hpeak), rfl⟩⟩⟩

theorem exists_memTime (hc : c.Positive) (hl : c.Tileable l) : ∃ time, c.memTime l = .ok time := by
  obtain ⟨tiles, htiles, hvalid⟩ := exists_getOptimalTile hc.numCore hl
  obtain ⟨⟨off, l2, l1, reg⟩, htraffic⟩ := exists_getTraffic hc.numCore hl
  obtain ⟨blocks, utilization, hblocks, hutil, hpos⟩ :=
    exists_utilization hc.numCore hl.toSized hvalid
  have hbw : 0 < c.peakMemoryBandwidth * c.maxMemoryUtil :=
    mul_pos hc.peakMemoryBandwidth hc.maxMemoryUtil
  obtain ⟨act, hact⟩ := exists_elementwiseTime hc (447 / 1000000000) (829 / 100) off.total
  obtain ⟨norm, hnorm⟩ := exists_elementwiseTime hc (16 / 10000000) (687 / 100) off.total
  obtain ⟨shared, hshared⟩ := exists_bandwidthTime hc (mul_pos hbw hpos) off l2
  obtain ⟨whole, hwhole⟩ := exists_bandwidthTime hc hbw off l2
  rw [memTime, htiles, htraffic]
  by_cases hname : c.name = .GPU
  · -- a GPU has formulas of its own for activations and normalisations
    have hother : ∃ time, (numThreadblock l tiles.l1Tm tiles.l1Tn >>= fun blocks =>
        c.coreUtilization blocks >>= fun utilization =>
        c.bandwidthTime (c.peakMemoryBandwidth * c.maxMemoryUtil * utilization) off l2) =
        .ok time := ⟨shared, bind_ok_iff.mpr ⟨blocks, hblocks, bind_ok_iff.mpr
          ⟨utilization, hutil, hshared⟩⟩⟩
    simp only [bind, Except.bind, if_pos hname]
    cases l.type with
    | FC => exact hother
    | MATMUL => exact hother
    | ACT => exact ⟨_, bind_ok_iff.mpr ⟨act, hact, rfl⟩⟩
    | SOFTMAX => exact hother
    | NORM => exact ⟨_, bind_ok_iff.mpr ⟨norm, hnorm, rfl⟩⟩
    | G2G => exact hother
    | X2G => exact hother
  · simp only [bind, Except.bind, if_neg hname]
    exact ⟨whole, hwhole⟩

/-- A tiled layer takes at least as long as its FLOPs. -/
theorem exists_execTime (hc : c.Positive) (hl : c.Tileable l) :
    ∃ rate time bound, 0 < rate ∧ c.execTime l = .ok (time, bound) ∧ l.getFlops / rate ≤ time := by
  obtain ⟨rate, hrate, hcompute⟩ := exists_computeTime hc hl
  obtain ⟨mem, hmem⟩ := exists_memTime hc hl
  rcases lt_or_ge mem (l.getFlops / rate) with hlt | hge
  · refine ⟨rate, l.getFlops / rate, .compute, hrate, ?_, le_rfl⟩
    refine bind_ok_iff.mpr ⟨_, hcompute, bind_ok_iff.mpr ⟨mem, hmem, ?_⟩⟩
    rw [if_pos hlt]
    rfl
  · refine ⟨rate, mem, .memory, hrate, ?_, hge⟩
    refine bind_ok_iff.mpr ⟨_, hcompute, bind_ok_iff.mpr ⟨mem, hmem, ?_⟩⟩
    rw [if_neg (not_lt.mpr hge)]
    rfl

theorem exists_getEnergy (hcore : 0 < c.numCore) (hl : c.Tileable l) :
    ∃ energy, c.getEnergy l = .ok energy := by
  obtain ⟨⟨off, l2, l1, reg⟩, htraffic⟩ := exists_getTraffic hcore hl
  exact ⟨_, bind_ok_iff.mpr ⟨_, htraffic, rfl⟩⟩

/-- A transfer divides by bandwidths and by the number of devices. -/
theorem exists_ioTime (hc : c.Positive) (l : LayerArgs) (traffic : ℕ) :
    ∃ time, 0 ≤ time ∧ c.ioTime l traffic = .ok time := by
  have hhalf : 0 < c.maxInterfaceBandwidth / 2 := half_pos hc.maxInterfaceBandwidth
  have hnum : (0 : ℚ) < c.numXpu := Nat.cast_pos.mpr hc.numXpu
  have hone : (1 : ℚ) ≤ c.numXpu := Nat.one_le_cast.mpr hc.numXpu
  by_cases hpath : c.name = .CPU ∨ l.type = .X2G
  · exact ⟨_, div_nonneg (Nat.cast_nonneg _) hhalf.le, (if_pos hpath).trans (fdiv_of_pos _ hhalf)⟩
  · obtain ⟨time, htime⟩ : ∃ time, c.getNvlinkTime (traffic / c.numXpu) = .ok time := by
      rw [getNvlinkTime]
      split_ifs
      · exact ⟨1, rfl⟩
      · exact ⟨_, bind_ok_iff.mpr ⟨_, fdiv_of_pos _ hc.maxInterfaceBandwidth,
          bind_ok_iff.mpr ⟨_, fdiv_of_pos _ hhalf, rfl⟩⟩⟩
    have hnonneg := getNvlinkTime_nonneg hc.maxInterfaceBandwidth.le
      (div_nonneg (Nat.cast_nonneg traffic) hnum.le) htime
    exact ⟨_, mul_nonneg hnonneg (sub_nonneg.mpr hone), (if_neg hpath).trans
      (bind_ok_iff.mpr ⟨_, fdiv_of_pos _ hnum, bind_ok_iff.mpr ⟨time, htime, rfl⟩⟩)⟩

/-- **What a device times**, it times, in no less than no time, and in more than no time if it
is a normalisation. -/
theorem exists_getTimeAndEnergy (hc : c.Positive) {l : Layer} (hl : c.Times l.toLayerArgs) :
    ∃ o, c.getTimeAndEnergy l = .ok o ∧ 0 ≤ o.execTime ∧ (l.type = .NORM → 0 < o.execTime) := by
  rw [getTimeAndEnergy]
  by_cases hcomm : l.type = .X2G ∨ l.type = .G2G
  · rw [if_pos hcomm]
    obtain ⟨time, hnonneg, htime⟩ := exists_ioTime hc l.toLayerArgs (l.m * l.n * l.numOp * l.dbyte)
    refine ⟨_, bind_ok_iff.mpr ⟨_, bind_ok_iff.mpr ⟨time, htime, rfl⟩, rfl⟩, hnonneg, ?_⟩
    intro hnorm
    rw [hnorm] at hcomm
    rcases hcomm with hcomm | hcomm
    · cases hcomm
    · cases hcomm
  · rw [if_neg hcomm]
    have htile := hl.resolve_left hcomm
    obtain ⟨rate, time, bound, hrate, htime, hle⟩ := exists_execTime hc htile
    obtain ⟨energy, henergy⟩ := exists_getEnergy hc.numCore htile
    refine ⟨_, bind_ok_iff.mpr ⟨_, htime, bind_ok_iff.mpr ⟨energy, henergy, rfl⟩⟩,
      (div_nonneg (Nat.cast_nonneg _) hrate.le).trans hle, ?_⟩
    intro hnorm
    have hflops : 0 < l.getFlops := by
      rw [LayerArgs.getFlops, hnorm]
      exact Nat.mul_pos (Nat.mul_pos (Nat.mul_pos (by decide) htile.m) htile.n) htile.numOp
    exact lt_of_lt_of_le (div_pos (Nat.cast_pos.mpr hflops) hrate) hle

/-- **It times no other layer.** -/
theorem times_of_getTimeAndEnergy {l : Layer} {o : Outcome} (h : c.getTimeAndEnergy l = .ok o) :
    c.Times l.toLayerArgs := by
  rw [getTimeAndEnergy] at h
  by_cases hcomm : l.type = .X2G ∨ l.type = .G2G
  · exact .inl hcomm
  · rw [if_neg hcomm] at h
    obtain ⟨⟨time, bound⟩, hexec, -⟩ := bind_ok_iff.mp h
    obtain ⟨compute, hcompute, -⟩ := bind_ok_iff.mp hexec
    obtain ⟨tiles, htiles, -⟩ := bind_ok_iff.mp hcompute
    exact .inr (tileable_of_getOptimalTile htiles)

end XpuConfig

/-- The GPUs of the tables have positive parameters. -/
theorem makeGpuConfig_positive (gpuType : GPUType) {numGpu : ℕ} (hnum : 0 < numGpu) :
    (makeGpuConfig gpuType numGpu).Positive := by
  have hl2 : ∀ bw, (makeGpuConfig gpuType numGpu).peakL2Bandwidth = some bw → 0 < bw := by
    cases gpuType <;> exact nofun
  refine ⟨?_, ?_, ?_, ?_, hl2, ?_, ?_, ?_⟩ <;> cases gpuType <;>
    norm_num [makeGpuConfig, gpuConfig, hnum]

end AttAcc
