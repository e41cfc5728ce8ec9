import AttAcc.Library.Memo
import AttAcc.TileChoice

/-!
# The tiles an `xPU` remembers

`_get_optimal_tile` stores its result in `table_tiles`, under the sizes of the layer. Here an
`xPU` is an object with that table, and its methods are computations on it. Whatever the table
holds, the time and the energy of a layer are functions of the tiles it gives for the layer
(`XpuConfig.exec_getTimeAndEnergyM`).

The search also reads the type of a layer, which is not in the key. The table is transparent,
then, as long as no FC layer meets a layer of its sizes, but another type, for which the search
would keep another tile (`XpuConfig.transparent_iff`).
-/

namespace AttAcc

open Library

/-- `table_tiles`. -/
abbrev TableTiles := List (XpuConfig.TileKey × Tiles)

/-- A method of an `xPU`: it may raise, and what it has stored stays stored. -/
abbrev XpuM := ExceptT PyError (StateM TableTiles)

namespace XpuM

variable {α β : Type}

/-- What a method returns on a table, and the table it leaves. -/
def exec (x : XpuM α) (table : TableTiles) : Except PyError α × TableTiles := x.run.run table

@[simp] theorem exec_pure (a : α) (table : TableTiles) :
    (pure a : XpuM α).exec table = (.ok a, table) := rfl

@[simp] theorem exec_ofExcept (r : Except PyError α) (table : TableTiles) :
    (ofExcept r : XpuM α).exec table = (r, table) := by
  cases r with
  | ok a => rfl
  | error e => rfl

theorem exec_bind_of_ok {x : XpuM α} {f : α → XpuM β} {table table' : TableTiles} {a : α}
    (h : x.exec table = (.ok a, table')) : (x >>= f).exec table = (f a).exec table' := by
  rw [exec, ExceptT.run_bind, StateT.run_bind, show x.run.run table = _ from h]
  rfl

theorem exec_bind_of_error {x : XpuM α} {f : α → XpuM β} {table table' : TableTiles} {e : PyError}
    (h : x.exec table = (.error e, table')) : (x >>= f).exec table = (.error e, table') := by
  rw [exec, ExceptT.run_bind, StateT.run_bind, show x.run.run table = _ from h]
  rfl

/-- Where the first method does the same, so does what follows it. -/
theorem exec_bind_congr {x : XpuM α} {f : α → XpuM β} {table table' : TableTiles}
    (h : x.exec table = x.exec table') : (x >>= f).exec table = (x >>= f).exec table' := by
  rcases hx : x.exec table' with ⟨r, table''⟩
  rw [hx] at h
  cases r with
  | ok a => rw [exec_bind_of_ok h, exec_bind_of_ok hx]
  | error e => rw [exec_bind_of_error h, exec_bind_of_error hx]

/-- A method that leaves the table as it is. -/
def Reads (table : TableTiles) (x : XpuM α) (r : Except PyError α) : Prop :=
  x.exec table = (r, table)

theorem Reads.bind {table : TableTiles} {x : XpuM α} {f : α → XpuM β} {r : Except PyError α}
    {s : α → Except PyError β} (hx : Reads table x r) (hf : ∀ a, Reads table (f a) (s a)) :
    Reads table (x >>= f) (r >>= s) := by
  cases r with
  | ok a => exact (exec_bind_of_ok hx).trans (hf a)
  | error e => exact exec_bind_of_error hx

theorem reads_pure (table : TableTiles) (a : α) : Reads table (pure a) (pure a) := rfl

theorem reads_ofExcept (table : TableTiles) (r : Except PyError α) :
    Reads table (ofExcept r) r :=
  exec_ofExcept r table

end XpuM

namespace XpuConfig

open XpuM

variable (c : XpuConfig)

/-! ## The methods -/

/-- The entry of `table_tiles` for a layer. -/
def lookupTiles (table : TableTiles) (l : LayerArgs) : Option Tiles :=
  lookup Prod.fst Prod.snd table (tileKey l)

/-- `_get_optimal_tile`. -/
def getOptimalTileM (l : LayerArgs) : XpuM Tiles := do
  let table ← getThe TableTiles
  match lookupTiles table l with
  | some tiles => return tiles
  | none => do
    let tiles ← ofExcept (c.getOptimalTile l)
    set (table ++ [(tileKey l, tiles)])
    return tiles

/-- The rest of `_get_traffic` for a tiled layer. -/
def trafficFrom (tiles : Tiles) (l : LayerArgs) :
    Except PyError (Traffic × Traffic × Traffic × Traffic) := do
  let off ← getTrafficForTile tiles.l2Tm tiles.l2Tn l
  let l2 ← getTrafficForTile tiles.l1Tm tiles.l1Tn l
  let l1 ← getTrafficForTile 16 16 l
  let macs := l.m * l.n * l.k
  return (off, l2, l1, ⟨macs, macs, macs⟩)

/-- `_get_traffic`. -/
def getTrafficM (l : LayerArgs) : XpuM (Traffic × Traffic × Traffic × Traffic) :=
  match l.type with
  | .FC | .MATMUL => do
    let tiles ← c.getOptimalTileM l
    ofExcept (trafficFrom tiles l)
  | _ => pure (l.sizeTraffic, l.sizeTraffic, l.sizeTraffic, l.sizeTraffic)

/-- The rest of `_compute_time`. -/
def computeTimeFrom (tiles : Tiles) (l : LayerArgs) : Except PyError ℚ := do
  let flops := c.peakFlops * c.maxComputeUtil
  let utilization ← if c.name = .GPU then do
      let blocks ← numThreadblock l tiles.l1Tm tiles.l1Tn
      c.coreUtilization blocks
    else pure 1
  fdiv l.getFlops (flops * utilization * (2 / l.dbyte : ℕ))

/-- `_compute_time`. -/
def computeTimeM (l : LayerArgs) : XpuM ℚ := do
  let tiles ← c.getOptimalTileM l
  ofExcept (c.computeTimeFrom tiles l)

/-- The rest of `_mem_time`, and the maximum of its result. -/
def memTimeFrom (tiles : Tiles) (traffic : Traffic × Traffic × Traffic × Traffic)
    (l : LayerArgs) : Except PyError ℚ := do
  let (off, l2, _, _) := traffic
  let memBw := c.peakMemoryBandwidth * c.maxMemoryUtil
  if c.name = .GPU then
    match l.type with
    | .ACT => do
      let time ← c.elementwiseTime (447 / 1000000000) (829 / 100) off.total
      return max time 0
    | .NORM => do
      let time ← c.elementwiseTime (16 / 10000000) (687 / 100) off.total
      return max time 0
    | _ => do
      let blocks ← numThreadblock l tiles.l1Tm tiles.l1Tn
      let utilization ← c.coreUtilization blocks
      c.bandwidthTime (memBw * utilization) off l2
  else c.bandwidthTime memBw off l2

/-- `max(*_mem_time(layer))`. -/
def memTimeM (l : LayerArgs) : XpuM ℚ := do
  let tiles ← c.getOptimalTileM l
  let traffic ← c.getTrafficM l
  ofExcept (c.memTimeFrom tiles traffic l)

/-- The larger time, and the `bound` that it is. -/
def maxTime (compute mem : ℚ) : ℚ × Bound :=
  if mem < compute then (compute, .compute) else (mem, .memory)

/-- `_exec_time`. -/
def execTimeM (l : LayerArgs) : XpuM (ℚ × Bound) := do
  let compute ← c.computeTimeM l
  let mem ← c.memTimeM l
  return maxTime compute mem

/-- The rest of `_get_energy`. -/
def energyFrom (traffic : Traffic × Traffic × Traffic × Traffic) (l : LayerArgs) : Energy :=
  let (off, l2, l1, reg) := traffic
  let alu : ℚ := l.getFlops / 2 * c.energyTable.alu
  fun
    | .offmem => off.total * c.energyTable.mem * c.numXpu
    | .l2 => if c.name = .CPU then 0 else l2.total * c.energyTable.l2 * c.numXpu
    | .l1 => if c.name = .CPU then 0 else l1.total * c.energyTable.l1 * c.numXpu
    | .reg => if c.name = .CPU then 0 else reg.total * c.energyTable.reg * c.numXpu
    | .alu => alu * c.numXpu
    | .comm => 0

/-- `_get_energy`. -/
def getEnergyM (l : LayerArgs) : XpuM Energy := do
  let traffic ← c.getTrafficM l
  return c.energyFrom traffic l

/-- The layers that `get_time_and_energy` asks no tile for. -/
def Transfer (l : LayerArgs) : Prop := l.type = .X2G ∨ l.type = .G2G

instance (l : LayerArgs) : Decidable (Transfer l) := inferInstanceAs (Decidable (_ ∨ _))

/-- `get_time_and_energy`. -/
def getTimeAndEnergyM (l : Layer) : XpuM Outcome :=
  if Transfer l.toLayerArgs then do
    let (time, energy) ← ofExcept (c.ioTimeEnergy l.toLayerArgs)
    return { execTime := time, energy := energy }
  else do
    let (time, bound) ← c.execTimeM l.toLayerArgs
    let energy ← c.getEnergyM l.toLayerArgs
    return { execTime := time, energy := energy, bound := bound }

/-! ## Methods are functions of the tiles -/

/-- `_get_traffic`, given the tiles. -/
def trafficOf (tiles : Tiles) (l : LayerArgs) :
    Except PyError (Traffic × Traffic × Traffic × Traffic) :=
  match l.type with
  | .FC | .MATMUL => trafficFrom tiles l
  | _ => .ok (l.sizeTraffic, l.sizeTraffic, l.sizeTraffic, l.sizeTraffic)

/-- `_exec_time`, given the tiles. -/
def execTimeOf (tiles : Tiles) (l : LayerArgs) : Except PyError (ℚ × Bound) := do
  let compute ← c.computeTimeFrom tiles l
  let traffic ← trafficOf tiles l
  let mem ← c.memTimeFrom tiles traffic l
  return maxTime compute mem

/-- `get_time_and_energy` of a layer that is no transfer, given the tiles. -/
def outcomeOf (tiles : Tiles) (l : LayerArgs) : Except PyError Outcome := do
  let (time, bound) ← c.execTimeOf tiles l
  let traffic ← trafficOf tiles l
  return { execTime := time, energy := c.energyFrom traffic l, bound := bound }

variable {c}

/-- A hit. -/
theorem exec_getOptimalTileM_of_some {table : TableTiles} {l : LayerArgs} {tiles : Tiles}
    (h : lookupTiles table l = some tiles) :
    (c.getOptimalTileM l).exec table = (.ok tiles, table) := by
  show (match lookupTiles table l with
    | some tiles => (pure tiles : XpuM Tiles)
    | none => _ : XpuM Tiles).exec table = _
  rw [h]
  rfl

/-- A miss that finds tiles stores them. -/
theorem exec_getOptimalTileM_of_ok {table : TableTiles} {l : LayerArgs} {tiles : Tiles}
    (h : lookupTiles table l = none) (htiles : c.getOptimalTile l = .ok tiles) :
    (c.getOptimalTileM l).exec table = (.ok tiles, table ++ [(tileKey l, tiles)]) := by
  show (match lookupTiles table l with
    | some tiles => (pure tiles : XpuM Tiles)
    | none => do
      let tiles ← ofExcept (c.getOptimalTile l)
      set (table ++ [(tileKey l, tiles)])
      return tiles : XpuM Tiles).exec table = _
  rw [h, htiles]
  rfl

/-- A miss that finds none stores nothing. -/
theorem exec_getOptimalTileM_of_error {table : TableTiles} {l : LayerArgs} {e : PyError}
    (h : lookupTiles table l = none) (htiles : c.getOptimalTile l = .error e) :
    (c.getOptimalTileM l).exec table = (.error e, table) := by
  show (match lookupTiles table l with
    | some tiles => (pure tiles : XpuM Tiles)
    | none => do
      let tiles ← ofExcept (c.getOptimalTile l)
      set (table ++ [(tileKey l, tiles)])
      return tiles : XpuM Tiles).exec table = _
  rw [h, htiles]
  rfl

/-! ### After a hit -/

section Hit

variable {table : TableTiles} {l : LayerArgs} {tiles : Tiles}

theorem reads_getTrafficM (h : lookupTiles table l = some tiles) :
    Reads table (c.getTrafficM l) (trafficOf tiles l) := by
  have htiled : Reads table (do
      let tiles ← c.getOptimalTileM l
      ofExcept (trafficFrom tiles l)) (trafficFrom tiles l) :=
    Reads.bind (exec_getOptimalTileM_of_some h) fun tiles =>
      reads_ofExcept table (trafficFrom tiles l)
  rw [getTrafficM, trafficOf]
  cases l.type with
  | FC => exact htiled
  | MATMUL => exact htiled
  | ACT => rfl
  | SOFTMAX => rfl
  | NORM => rfl
  | G2G => rfl
  | X2G => rfl

theorem reads_execTimeM (h : lookupTiles table l = some tiles) :
    Reads table (c.execTimeM l) (c.execTimeOf tiles l) := by
  have hcompute : Reads table (c.computeTimeM l) (c.computeTimeFrom tiles l) :=
    Reads.bind (exec_getOptimalTileM_of_some h) fun tiles =>
      reads_ofExcept table (c.computeTimeFrom tiles l)
  have hmem : Reads table (c.memTimeM l) (do
      let traffic ← trafficOf tiles l
      c.memTimeFrom tiles traffic l) :=
    (exec_bind_of_ok (exec_getOptimalTileM_of_some h)).trans
      (Reads.bind (reads_getTrafficM h) fun traffic =>
        reads_ofExcept table (c.memTimeFrom tiles traffic l))
  have hexec := hcompute.bind fun compute => hmem.bind fun mem =>
    reads_pure table (maxTime compute mem)
  rw [execTimeM, execTimeOf]
  simpa only [bind_assoc] using hexec

/-- **A layer with an entry** is timed by it. -/
theorem reads_getTimeAndEnergyM {l : Layer} (hl : ¬Transfer l.toLayerArgs)
    (h : lookupTiles table l.toLayerArgs = some tiles) :
    Reads table (c.getTimeAndEnergyM l) (c.outcomeOf tiles l.toLayerArgs) := by
  have henergy : Reads table (c.getEnergyM l.toLayerArgs) (do
      let traffic ← trafficOf tiles l.toLayerArgs
      pure (c.energyFrom traffic l.toLayerArgs)) :=
    (reads_getTrafficM h).bind fun traffic => reads_pure table _
  have houtcome := (reads_execTimeM (c := c) h).bind fun time => henergy.bind fun energy =>
    reads_pure table ({ execTime := time.1, energy := energy, bound := time.2 } : Outcome)
  rw [getTimeAndEnergyM, if_neg hl, outcomeOf]
  simpa only [bind_assoc, pure_bind] using houtcome

end Hit

/-! ### In any case -/

section Exec

variable {table : TableTiles}

theorem lookupTiles_append_self (table : TableTiles) (l : LayerArgs) (tiles : Tiles)
    (h : lookupTiles table l = none) :
    lookupTiles (table ++ [(tileKey l, tiles)]) l = some tiles := by
  rw [lookupTiles, lookup, Option.map_eq_none_iff] at h
  rw [lookupTiles, lookup, List.find?_append, h]
  simp

/-- Entries stay. -/
theorem lookupTiles_append_of_some {l : LayerArgs} {tiles : Tiles}
    (h : lookupTiles table l = some tiles) (more : TableTiles) :
    lookupTiles (table ++ more) l = some tiles := by
  rw [lookupTiles, lookup, Option.map_eq_some_iff] at h
  obtain ⟨entry, hfind, rfl⟩ := h
  rw [lookupTiles, lookup, List.find?_append, hfind]
  rfl

/-- What `_get_optimal_tile` returns on a table. -/
def tilesOn (c : XpuConfig) (table : TableTiles) (l : LayerArgs) : Except PyError Tiles :=
  ((c.getOptimalTileM l).exec table).1

/-- The table that it leaves. -/
def tableOn (c : XpuConfig) (table : TableTiles) (l : LayerArgs) : TableTiles :=
  ((c.getOptimalTileM l).exec table).2

/-- The three cases of a lookup. -/
theorem getOptimalTileM_cases (c : XpuConfig) (table : TableTiles) (l : LayerArgs) :
    (∃ tiles, lookupTiles table l = some tiles ∧ c.tilesOn table l = .ok tiles ∧
      c.tableOn table l = table) ∨
    (∃ tiles, lookupTiles table l = none ∧ c.getOptimalTile l = .ok tiles ∧
      c.tilesOn table l = .ok tiles ∧ c.tableOn table l = table ++ [(tileKey l, tiles)]) ∨
    ∃ e, lookupTiles table l = none ∧ c.getOptimalTile l = .error e ∧
      c.tilesOn table l = .error e ∧ c.tableOn table l = table := by
  rw [tilesOn, tableOn]
  rcases hlookup : lookupTiles table l with _ | tiles
  · rcases htiles : c.getOptimalTile l with e | tiles
    · refine .inr (.inr ⟨e, rfl, rfl, ?_⟩)
      rw [exec_getOptimalTileM_of_error hlookup htiles]
      exact ⟨rfl, rfl⟩
    · refine .inr (.inl ⟨tiles, rfl, rfl, ?_⟩)
      rw [exec_getOptimalTileM_of_ok hlookup htiles]
      exact ⟨rfl, rfl⟩
  · refine .inl ⟨tiles, rfl, ?_⟩
    rw [exec_getOptimalTileM_of_some hlookup]
    exact ⟨rfl, rfl⟩

/-- **A method that begins with a lookup** is a function of the tiles, if it is one after a hit. -/
theorem exec_of_reads {α : Type} (c : XpuConfig) (table : TableTiles) {l : LayerArgs} {x : XpuM α}
    {f : Tiles → Except PyError α} (hlookup : ∃ rest, x = c.getOptimalTileM l >>= rest)
    (hreads : ∀ table tiles, lookupTiles table l = some tiles → Reads table x (f tiles)) :
    x.exec table = (c.tilesOn table l >>= f, c.tableOn table l) := by
  have hexec : (c.getOptimalTileM l).exec table = (c.tilesOn table l, c.tableOn table l) := rfl
  obtain ⟨rest, rfl⟩ := hlookup
  rcases getOptimalTileM_cases c table l with
    ⟨tiles, hlookup, htiles, htable⟩ | ⟨tiles, hlookup, -, htiles, htable⟩ | ⟨e, -, -, herror, -⟩
  · rw [htiles, htable]
    exact hreads table tiles hlookup
  · -- the first lookup stores the tiles, and then the table has them
    have hstored := lookupTiles_append_self table l tiles hlookup
    rw [← htable] at hstored
    have hsame : (c.getOptimalTileM l).exec table =
        (c.getOptimalTileM l).exec (c.tableOn table l) := by
      rw [hexec, htiles, exec_getOptimalTileM_of_some hstored]
    rw [exec_bind_congr hsame, htiles]
    exact hreads _ tiles hstored
  · rw [herror] at hexec ⊢
    exact exec_bind_of_error hexec

/-- `_exec_time` on a table. -/
theorem exec_execTimeM (c : XpuConfig) (table : TableTiles) (l : LayerArgs) :
    (c.execTimeM l).exec table =
      (c.tilesOn table l >>= fun tiles => c.execTimeOf tiles l, c.tableOn table l) := by
  have hlookup : ∃ rest, c.execTimeM l = c.getOptimalTileM l >>= rest := by
    rw [execTimeM, computeTimeM, bind_assoc]
    exact ⟨_, rfl⟩
  exact exec_of_reads c table hlookup fun table tiles h => reads_execTimeM h

/-- `_get_traffic` of a tiled layer on a table. -/
theorem exec_getTrafficM (c : XpuConfig) (table : TableTiles) {l : LayerArgs}
    (hl : l.type = .FC ∨ l.type = .MATMUL) : (c.getTrafficM l).exec table =
      (c.tilesOn table l >>= fun tiles => trafficOf tiles l, c.tableOn table l) := by
  refine exec_of_reads c table ⟨fun tiles => ofExcept (trafficFrom tiles l), ?_⟩
    fun table tiles h => reads_getTrafficM h
  rw [getTrafficM]
  rcases hl with hl | hl
  · rw [hl]
  · rw [hl]

/-- **Time and energy of a layer are functions of the tiles** that the table gives for it. -/
theorem exec_getTimeAndEnergyM (c : XpuConfig) (table : TableTiles) {l : Layer}
    (hl : ¬Transfer l.toLayerArgs) : (c.getTimeAndEnergyM l).exec table =
      (c.tilesOn table l.toLayerArgs >>= fun tiles => c.outcomeOf tiles l.toLayerArgs,
        c.tableOn table l.toLayerArgs) := by
  have hlookup : ∃ rest, c.getTimeAndEnergyM l = c.getOptimalTileM l.toLayerArgs >>= rest := by
    rw [getTimeAndEnergyM, if_neg hl, execTimeM, computeTimeM, bind_assoc, bind_assoc]
    exact ⟨_, rfl⟩
  exact exec_of_reads c table hlookup fun table tiles h => reads_getTimeAndEnergyM hl h

/-- A transfer does not look at the table. -/
theorem exec_getTimeAndEnergyM_of_transfer (c : XpuConfig) (table : TableTiles) {l : Layer}
    (hl : Transfer l.toLayerArgs) :
    (c.getTimeAndEnergyM l).exec table = (c.getTimeAndEnergy l, table) := by
  have hio : c.getTimeAndEnergy l = (do
      let (time, energy) ← c.ioTimeEnergy l.toLayerArgs
      return { execTime := time, energy := energy }) := if_pos hl
  rw [getTimeAndEnergyM, if_pos hl, hio]
  exact (reads_ofExcept table (c.ioTimeEnergy l.toLayerArgs)).bind fun outcome => reads_pure table _

/-- The traffic of a layer whose tiles are known. -/
theorem getTraffic_eq {l : LayerArgs} {tiles : Tiles} (htiles : c.getOptimalTile l = .ok tiles) :
    c.getTraffic l = trafficOf tiles l := by
  rw [getTraffic, trafficOf, htiles]
  cases l.type with
  | FC => rfl
  | MATMUL => rfl
  | ACT => rfl
  | SOFTMAX => rfl
  | NORM => rfl
  | G2G => rfl
  | X2G => rfl

theorem execTime_eq {l : LayerArgs} {tiles : Tiles} (htiles : c.getOptimalTile l = .ok tiles) :
    c.execTime l = c.execTimeOf tiles l := by
  have hcompute : c.computeTime l = c.computeTimeFrom tiles l := by
    rw [computeTime, htiles]
    rfl
  have hmem : c.memTime l = (do
      let traffic ← trafficOf tiles l
      c.memTimeFrom tiles traffic l) := by
    rw [memTime, htiles, getTraffic_eq htiles]
    rfl
  rw [execTime, execTimeOf, hcompute, hmem]
  simp only [bind_assoc]
  rfl

/-- **Without a table** a layer is timed by the tiles of a search. -/
theorem getTimeAndEnergy_eq (c : XpuConfig) {l : Layer} (hl : ¬Transfer l.toLayerArgs) :
    c.getTimeAndEnergy l =
      c.getOptimalTile l.toLayerArgs >>= fun tiles => c.outcomeOf tiles l.toLayerArgs := by
  have hmethod : c.getTimeAndEnergy l = (do
      let (time, bound) ← c.execTime l.toLayerArgs
      let energy ← c.getEnergy l.toLayerArgs
      return { execTime := time, energy := energy, bound := bound }) := if_neg hl
  rw [hmethod]
  rcases htiles : c.getOptimalTile l.toLayerArgs with e | tiles
  · rw [execTime, computeTime, htiles]
    rfl
  · rw [execTime_eq htiles, getEnergy, getTraffic_eq htiles]
    show _ = c.outcomeOf tiles l.toLayerArgs
    rw [outcomeOf]
    simp only [bind_assoc, pure_bind]
    rfl

end Exec

/-! ## Runs -/

/-- What one sees of a layer that is timed: the tiles, if they are asked for, and the outcome. -/
def answer (c : XpuConfig) (table : TableTiles) (l : Layer) :
    (Option (Except PyError Tiles) × Except PyError Outcome) × TableTiles :=
  let (outcome, table') := (c.getTimeAndEnergyM l).exec table
  ((if Transfer l.toLayerArgs then none else some (c.tilesOn table l.toLayerArgs), outcome), table')

/-- The memo is transparent for a list of layers: each is timed as on a fresh `xPU`. -/
def Transparent (c : XpuConfig) (layers : List Layer) : Prop :=
  answers c.answer [] layers = layers.map fun l => (c.answer [] l).1

/-- The L1 searches of two layers of the same sizes keep the same tile: it is the first one of
least cost for both. -/
def ShareTile (c : XpuConfig) (l l' : LayerArgs) : Prop :=
  ∃ tile, FirstLeast (c.l1Cost l) (c.l1Tiles l) tile ∧ FirstLeast (c.l1Cost l') (c.l1Tiles l) tile

/-- No layer is timed by the tiles of another that it would not have found itself: an FC layer
and one of another type with its sizes share their tile. -/
def Unconfused (c : XpuConfig) (layers : List Layer) : Prop :=
  ∀ l ∈ layers, ∀ l' ∈ layers, l.type = .FC → l'.type ≠ .FC → ¬Transfer l'.toLayerArgs →
    tileKey l.toLayerArgs = tileKey l'.toLayerArgs → c.Tileable l.toLayerArgs →
      c.ShareTile l.toLayerArgs l'.toLayerArgs

section Runs

variable {table : TableTiles} {l l' : Layer}

/-- The first lookup is a search. -/
theorem tilesOn_nil (c : XpuConfig) (l : LayerArgs) : c.tilesOn [] l = c.getOptimalTile l := by
  rcases getOptimalTileM_cases c [] l with ⟨tiles, hlookup, -⟩ | ⟨tiles, -, htiles, hon, -⟩ |
    ⟨e, -, herror, hon, -⟩
  · cases hlookup
  · rw [hon, htiles]
  · rw [hon, herror]

/-- **A fresh `xPU`** is the function of the layer. -/
theorem answer_nil (c : XpuConfig) (l : Layer) : (c.answer [] l).1 =
    (if Transfer l.toLayerArgs then none else some (c.getOptimalTile l.toLayerArgs),
      c.getTimeAndEnergy l) := by
  by_cases hl : Transfer l.toLayerArgs
  · rw [answer, exec_getTimeAndEnergyM_of_transfer c [] hl, if_pos hl, if_pos hl]
  · rw [answer, exec_getTimeAndEnergyM c [] hl, tilesOn_nil, getTimeAndEnergy_eq c hl]

theorem answer_of_transfer (hl : Transfer l.toLayerArgs) :
    c.answer table l = ((c.answer [] l).1, table) := by
  rw [answer_nil, answer, exec_getTimeAndEnergyM_of_transfer c table hl, if_pos hl, if_pos hl]

theorem answer_of_not_transfer (hl : ¬Transfer l.toLayerArgs) :
    c.answer table l = ((some (c.tilesOn table l.toLayerArgs),
      c.tilesOn table l.toLayerArgs >>= fun tiles => c.outcomeOf tiles l.toLayerArgs),
      c.tableOn table l.toLayerArgs) := by
  rw [answer, exec_getTimeAndEnergyM c table hl, if_neg hl]

/-- An answer is right when its tiles are. -/
theorem answer_fst_eq_iff (hl : ¬Transfer l.toLayerArgs) :
    (c.answer table l).1 = (c.answer [] l).1 ↔
      c.tilesOn table l.toLayerArgs = c.getOptimalTile l.toLayerArgs := by
  rw [answer_of_not_transfer hl, answer_nil, if_neg hl, getTimeAndEnergy_eq c hl]
  refine ⟨fun h => Option.some.inj (congrArg Prod.fst h), ?_⟩
  intro h
  rw [h]

/-- A table whose entries are right for all layers of a run. -/
def RightFor (c : XpuConfig) (layers : List Layer) (table : TableTiles) : Prop :=
  ∀ l ∈ layers, ¬Transfer l.toLayerArgs → ∀ tiles,
    lookupTiles table l.toLayerArgs = some tiles → c.getOptimalTile l.toLayerArgs = .ok tiles

/-- Two layers of a run that have the same sizes have the same tiles. -/
theorem getOptimalTile_of_unconfused (hcore : 0 < c.numCore) {layers : List Layer}
    (h : c.Unconfused layers) (hmem : l ∈ layers) (hmem' : l' ∈ layers)
    (hl : ¬Transfer l.toLayerArgs) (hl' : ¬Transfer l'.toLayerArgs)
    (hkey : tileKey l.toLayerArgs = tileKey l'.toLayerArgs) {tiles : Tiles}
    (htiles : c.getOptimalTile l.toLayerArgs = .ok tiles) :
    c.getOptimalTile l'.toLayerArgs = .ok tiles := by
  have hfits := tileable_of_getOptimalTile htiles
  rw [← htiles, eq_comm, getOptimalTile_eq_iff hcore hfits hkey]
  by_cases hfc : l.type = .FC
  · by_cases hfc' : l'.type = .FC
    · rw [l1Cost_congr hkey (iff_of_true hfc hfc')]
    · obtain ⟨tile, hleast, hleast'⟩ := h l hmem l' hmem' hfc hfc' hl' hkey hfits
      rw [argmin_eq_some_iff_append.mpr hleast, argmin_eq_some_iff_append.mpr hleast']
  · by_cases hfc' : l'.type = .FC
    · obtain ⟨tile, hleast', hleast⟩ :=
        h l' hmem' l hmem hfc' hfc hl hkey.symm (tileable_congr hkey hfits)
      rw [← l1Tiles_congr hkey] at hleast' hleast
      rw [argmin_eq_some_iff_append.mpr hleast, argmin_eq_some_iff_append.mpr hleast']
    · rw [l1Cost_congr hkey (iff_of_false hfc hfc')]

/-- **Timing a layer keeps the table right.** -/
theorem rightFor_answer (hcore : 0 < c.numCore) {layers : List Layer} (h : c.Unconfused layers)
    (htable : c.RightFor layers table) (hmem : l ∈ layers) :
    (c.answer table l).1 = (c.answer [] l).1 ∧ c.RightFor layers (c.answer table l).2 := by
  by_cases hl : Transfer l.toLayerArgs
  · rw [answer_of_transfer hl]
    exact ⟨rfl, htable⟩
  · rw [answer_fst_eq_iff hl, answer_of_not_transfer hl]
    rcases getOptimalTileM_cases c table l.toLayerArgs with
      ⟨tiles, hlookup, hon, hleft⟩ | ⟨tiles, hlookup, htiles, hon, hleft⟩ |
      ⟨e, hlookup, herror, hon, hleft⟩
    · rw [hon, hleft, htable l hmem hl tiles hlookup]
      exact ⟨rfl, htable⟩
    · rw [hon, hleft, htiles]
      refine ⟨rfl, ?_⟩
      intro l' hmem' hl' tiles' hlookup'
      rcases hold : lookupTiles table l'.toLayerArgs with _ | old
      · by_cases hkey : tileKey l.toLayerArgs = tileKey l'.toLayerArgs
        · have hnew := lookupTiles_append_self table l'.toLayerArgs tiles hold
          rw [← hkey, hlookup'] at hnew
          rw [Option.some.inj hnew]
          exact getOptimalTile_of_unconfused hcore h hmem hmem' hl hl' hkey htiles
        · rw [lookupTiles, lookup, Option.map_eq_none_iff] at hold
          rw [lookupTiles, lookup, List.find?_append, hold] at hlookup'
          simp [hkey] at hlookup'
      · rw [lookupTiles_append_of_some hold] at hlookup'
        rw [← Option.some.inj hlookup']
        exact htable l' hmem' hl' old hold
    · rw [hon, hleft, herror]
      exact ⟨rfl, htable⟩

/-- **Unconfused layers are timed as on a fresh `xPU`.** -/
theorem transparent_of_unconfused (hcore : 0 < c.numCore) {layers : List Layer}
    (h : c.Unconfused layers) : c.Transparent layers := by
  refine answers_eq_map (I := c.RightFor layers) ?_ ?_
  · intro table htable l hmem
    exact rightFor_answer hcore h htable hmem
  · intro l _ _ tiles hlookup
    cases hlookup

/-- Two layers with the same sizes have the same tiles. -/
def SameTiles (c : XpuConfig) (l l' : Layer) : Prop :=
  ¬Transfer l.toLayerArgs → ¬Transfer l'.toLayerArgs →
    tileKey l.toLayerArgs = tileKey l'.toLayerArgs → c.Tileable l.toLayerArgs →
      c.getOptimalTile l.toLayerArgs = c.getOptimalTile l'.toLayerArgs

instance (c : XpuConfig) : Std.Symm c.SameTiles where
  symm _ _ h hl' hl hkey hfits := (h hl hl' hkey.symm (tileable_congr hkey hfits)).symm

/-- **In a transparent run** the table is right for all layers to come, and so layers of the same
sizes have the same tiles. -/
theorem pairwise_of_answers (hcore : 0 < c.numCore) {layers : List Layer}
    (h : answers c.answer table layers = layers.map fun l => (c.answer [] l).1) :
    c.RightFor layers table ∧ layers.Pairwise c.SameTiles := by
  induction layers generalizing table with
  | nil => exact ⟨fun l hmem => absurd hmem List.not_mem_nil, .nil⟩
  | cons l layers ih =>
    obtain ⟨hanswer, hrest⟩ := List.cons.inj h
    obtain ⟨hright, hpairs⟩ := ih hrest
    by_cases hl : Transfer l.toLayerArgs
    · rw [answer_of_transfer hl] at hright
      refine ⟨List.forall_mem_cons.mpr ⟨fun hl' => absurd hl hl', hright⟩, ?_⟩
      exact List.pairwise_cons.mpr ⟨fun l' _ hl' => absurd hl hl', hpairs⟩
    · rw [answer_fst_eq_iff hl] at hanswer
      rw [answer_of_not_transfer hl] at hright
      -- what the table has for the layer is what a search finds, before and after it is timed
      have hstored : ∀ tiles, c.getOptimalTile l.toLayerArgs = .ok tiles →
          lookupTiles (c.tableOn table l.toLayerArgs) l.toLayerArgs = some tiles := by
        intro tiles htiles
        rw [htiles] at hanswer
        rcases getOptimalTileM_cases c table l.toLayerArgs with
          ⟨old, hlookup, hon, hleft⟩ | ⟨new, hlookup, -, hon, hleft⟩ | ⟨e, -, -, hon, -⟩
        · rw [hon] at hanswer
          rw [hleft, hlookup, Except.ok.inj hanswer]
        · rw [hon] at hanswer
          rw [hleft, lookupTiles_append_self table _ new hlookup, Except.ok.inj hanswer]
        · rw [hon] at hanswer
          cases hanswer
      have hkept : ∀ {l' : LayerArgs} {tiles : Tiles}, lookupTiles table l' = some tiles →
          lookupTiles (c.tableOn table l.toLayerArgs) l' = some tiles := by
        intro l' tiles hlookup
        rcases getOptimalTileM_cases c table l.toLayerArgs with
          ⟨-, -, -, hleft⟩ | ⟨new, -, -, -, hleft⟩ | ⟨-, -, -, -, hleft⟩
        · rw [hleft]
          exact hlookup
        · rw [hleft]
          exact lookupTiles_append_of_some hlookup _
        · rw [hleft]
          exact hlookup
      refine ⟨List.forall_mem_cons.mpr ⟨?_, ?_⟩, List.pairwise_cons.mpr ⟨?_, hpairs⟩⟩
      · intro _ tiles hlookup
        rw [← hanswer, tilesOn, exec_getOptimalTileM_of_some hlookup]
      · exact fun l' hmem' hl' tiles hlookup => hright l' hmem' hl' tiles (hkept hlookup)
      · intro l' hmem' _ hl' hkey hfits
        obtain ⟨tiles, htiles, -⟩ := exists_getOptimalTile hcore hfits
        have hfound := hstored tiles htiles
        rw [lookupTiles, hkey] at hfound
        rw [htiles, hright l' hmem' hl' tiles hfound]

/-- **Layers that are timed as on a fresh `xPU` are unconfused.** -/
theorem unconfused_of_transparent (hcore : 0 < c.numCore) {layers : List Layer}
    (h : c.Transparent layers) : c.Unconfused layers := by
  obtain ⟨-, hpairs⟩ := pairwise_of_answers hcore h
  intro l hmem l' hmem' hfc hfc' hl' hkey hfits
  have hl : ¬Transfer l.toLayerArgs := by
    rw [Transfer, hfc]
    decide
  have hne : l ≠ l' := by
    rintro rfl
    exact hfc' hfc
  have htiles := hpairs.forall hmem hmem' hne hl hl' hkey hfits
  rw [getOptimalTile_eq_iff hcore hfits hkey] at htiles
  obtain ⟨tile, htile⟩ := exists_argmin (f := c.l1Cost l.toLayerArgs) (l1Tiles_ne_nil hfits)
  refine ⟨tile, argmin_eq_some_iff_append.mp htile, argmin_eq_some_iff_append.mp ?_⟩
  rw [← htiles, htile]

/-- **The memo is transparent exactly when no layer is confused with another**: for every `xPU`
with a core, and every list of layers. -/
theorem transparent_iff (hcore : 0 < c.numCore) (layers : List Layer) :
    c.Transparent layers ↔ c.Unconfused layers :=
  ⟨unconfused_of_transparent hcore, transparent_of_unconfused hcore⟩

/-- A layer with an output of 16 by 16. -/
def smallLayer (name : LayerName) (type : LayerType) : Layer where
  stage := .gen
  name := name
  type := type
  hasWeight := true
  dtype := .W16A16
  m := 16
  n := 16
  k := 64
  numOp := 1
  pimNumOp := 1
  supported := .inl rfl

/-- A layer that is timed twice is timed by the same tiles. -/
theorem transparent_twice :
    0 < (makeGpuConfig .A100a 1).numCore ∧
      (makeGpuConfig .A100a 1).Transparent [smallLayer .proj .FC, smallLayer .proj .FC] := by
  refine ⟨by decide, (transparent_iff (by decide) _).mpr ?_⟩
  intro l _ l' hmem' _ hne
  refine absurd ?_ hne
  simp only [List.mem_cons, List.not_mem_nil, or_false, or_self] at hmem'
  rw [hmem']
  rfl

/-- The FC layer is cut into four tiles, to keep more cores busy; the other one is not. -/
theorem argmin_smallLayer :
    ((makeGpuConfig .A100a 1).l1Tiles (smallLayer .proj .FC).toLayerArgs).argmin
        ((makeGpuConfig .A100a 1).l1Cost (smallLayer .proj .FC).toLayerArgs) = some (8, 8) ∧
      ((makeGpuConfig .A100a 1).l1Tiles (smallLayer .proj .FC).toLayerArgs).argmin
        ((makeGpuConfig .A100a 1).l1Cost (smallLayer .score .MATMUL).toLayerArgs) =
        some (16, 16) := by
  decide +kernel

/-- An attention score with the sizes of an FC layer before it is timed by the tiles of that. -/
theorem not_transparent_score : ¬(makeGpuConfig .A100a 1).Transparent
    [smallLayer .proj .FC, smallLayer .score .MATMUL] := by
  intro h
  have hfits : (makeGpuConfig .A100a 1).Tileable (smallLayer .proj .FC).toLayerArgs :=
    ⟨⟨by decide, by decide, by decide⟩, by decide +kernel⟩
  obtain ⟨tile, hleast, hleast'⟩ := unconfused_of_transparent (by decide) h
    (smallLayer .proj .FC) (by simp) (smallLayer .score .MATMUL) (by simp) rfl (by decide)
    (by decide) (by decide) hfits
  obtain ⟨harg, harg'⟩ := argmin_smallLayer
  rw [argmin_eq_some_iff_append.mpr hleast] at harg
  rw [argmin_eq_some_iff_append.mpr hleast', Option.some.inj harg] at harg'
  cases harg'

end Runs

end XpuConfig

end AttAcc
