import AttAcc.TileMemo

/-!
# The roofline of an `xPU`

Whatever an `xPU` has timed before, the tiles of a layer are a tiling of it: an entry of its table
is one for every layer of the same sizes (`XpuConfig.tiled_tableAfter`). A tiling moves each
operand at least once, and keeps at most all cores busy. So a tiled layer takes no less than its
FLOPs at the peak rate, and no less than its operands at the peak bandwidth
(`XpuConfig.tiling_under_roofline`).
-/

namespace AttAcc

open Library

namespace XpuConfig

/-! ## The tiles of a reachable table -/

/-- The table after some layers have been timed. -/
def tableAfter (c : XpuConfig) (earlier : List Layer) : TableTiles :=
  earlier.foldl (fun table l => ((c.getTimeAndEnergyM l).exec table).2) []

/-- A table of tilings: each entry is one of every layer with the sizes that are its key. -/
def Tiled (c : XpuConfig) (table : TableTiles) : Prop :=
  ∀ entry ∈ table, ∀ l : LayerArgs, tileKey l = entry.1 → c.ValidTiling l entry.2

section Tiled

variable {c : XpuConfig} {table : TableTiles} {l : LayerArgs}

/-- A search finds a tiling. -/
theorem validTiling_of_getOptimalTile (hcore : 0 < c.numCore) {tiles : Tiles}
    (h : c.getOptimalTile l = .ok tiles) : c.ValidTiling l tiles := by
  have hl := tileable_of_getOptimalTile h
  obtain ⟨l1, l2, harg1, harg2, htiles⟩ := getOptimalTile_spec hcore hl
  obtain rfl := Except.ok.inj (h.symm.trans htiles)
  exact validTiling_of_argmin hl.toSized harg1 harg2

/-- **The tiles of a layer are a tiling**, searched for or looked up. -/
theorem exists_tilesOn (hcore : 0 < c.numCore) (htable : c.Tiled table) (hl : c.Tileable l) :
    ∃ tiles, c.tilesOn table l = .ok tiles ∧ c.ValidTiling l tiles := by
  obtain ⟨found, hfound, -⟩ := exists_getOptimalTile hcore hl
  rcases getOptimalTileM_cases c table l with
    ⟨tiles, hlookup, hon, -⟩ | ⟨tiles, -, htiles, hon, -⟩ | ⟨e, -, herror, -⟩
  · obtain ⟨entry, hmem, hkey, rfl⟩ := mem_of_lookup hlookup
    exact ⟨_, hon, htable entry hmem l hkey.symm⟩
  · exact ⟨tiles, hon, validTiling_of_getOptimalTile hcore htiles⟩
  · rw [hfound] at herror
    cases herror

/-- A lookup leaves a table of tilings. -/
theorem tiled_tableOn (hcore : 0 < c.numCore) (htable : c.Tiled table) (l : LayerArgs) :
    c.Tiled (c.tableOn table l) := by
  rcases getOptimalTileM_cases c table l with ⟨-, -, -, hleft⟩ | ⟨tiles, -, htiles, -, hleft⟩ |
    ⟨-, -, -, -, hleft⟩
  · rw [hleft]
    exact htable
  · rw [hleft]
    refine List.forall_mem_append.mpr ⟨htable, ?_⟩
    intro entry hentry l' hkey
    rw [List.mem_singleton.mp hentry] at hkey ⊢
    exact (validTiling_of_getOptimalTile hcore htiles).congr hkey.symm
  · rw [hleft]
    exact htable

theorem tiled_getTimeAndEnergyM (hcore : 0 < c.numCore) (htable : c.Tiled table) (l : Layer) :
    c.Tiled ((c.getTimeAndEnergyM l).exec table).2 := by
  by_cases hl : Transfer l.toLayerArgs
  · rw [exec_getTimeAndEnergyM_of_transfer c table hl]
    exact htable
  · rw [exec_getTimeAndEnergyM c table hl]
    exact tiled_tableOn hcore htable l.toLayerArgs

/-- **Every reachable table is one of tilings.** -/
theorem tiled_tableAfter (hcore : 0 < c.numCore) (earlier : List Layer) :
    c.Tiled (c.tableAfter earlier) := by
  rw [tableAfter]
  induction earlier using List.reverseRecOn with
  | nil => exact fun entry hentry => absurd hentry List.not_mem_nil
  | append_singleton earlier l ih =>
    rw [List.foldl_append]
    exact tiled_getTimeAndEnergyM hcore ih l

end Tiled

/-! ## The times of a tiling -/

section Times

variable {c : XpuConfig} {l : LayerArgs} {tiles : Tiles}

/-- The traffic of a tiled layer. -/
theorem trafficOf_eq (htype : l.type = .FC ∨ l.type = .MATMUL) (htiles : tiles.Valid) :
    trafficOf tiles l = .ok (l.tileTraffic tiles.l2, l.tileTraffic tiles.l1,
      l.tileTraffic (16, 16), ⟨l.m * l.n * l.k, l.m * l.n * l.k, l.m * l.n * l.k⟩) := by
  have htraffic : trafficOf tiles l = trafficFrom tiles l := by
    rw [trafficOf]
    rcases htype with htype | htype
    · rw [htype]
    · rw [htype]
  have hoff : getTrafficForTile tiles.l2Tm tiles.l2Tn l = .ok (l.tileTraffic tiles.l2) :=
    LayerArgs.getTrafficForTile_eq tiles.l2 htiles.l2Tm htiles.l2Tn
  have hl2 : getTrafficForTile tiles.l1Tm tiles.l1Tn l = .ok (l.tileTraffic tiles.l1) :=
    LayerArgs.getTrafficForTile_eq tiles.l1 htiles.l1Tm htiles.l1Tn
  have hl1 : getTrafficForTile 16 16 l = .ok (l.tileTraffic (16, 16)) :=
    LayerArgs.getTrafficForTile_eq (16, 16) (by decide) (by decide)
  rw [htraffic, trafficFrom, hoff, hl2, hl1]
  rfl

/-- A share of a rate takes longer than the rate. -/
theorem div_le_div_mul_share {work rate share : ℚ} (hwork : 0 ≤ work) (hrate : 0 < rate)
    (hpos : 0 < share) (hle : share ≤ 1) : work / rate ≤ work / (rate * share) :=
  div_le_div_of_nonneg_left hwork (mul_pos hrate hpos) (mul_le_of_le_one_right hrate.le hle)

/-- What a GPU does with the share of the cores that the L1 tiles keep busy. -/
theorem bind_coreUtilization {α : Type} (hcore : 0 < c.numCore) (hl : l.Sized)
    (htiles : tiles.Valid) (f : ℚ → Except PyError α) : (do
      let blocks ← numThreadblock l tiles.l1Tm tiles.l1Tn
      let utilization ← c.coreUtilization blocks
      f utilization) = f (c.utilization (l.blocks tiles.l1)) := by
  have hblocks := LayerArgs.blocks_pos hl tiles.l1 htiles.l1Tm htiles.l1Tn
  have hnum : numThreadblock l tiles.l1Tm tiles.l1Tn = .ok (l.blocks tiles.l1) :=
    LayerArgs.numThreadblock_eq tiles.l1 htiles.l1Tm htiles.l1Tn
  rw [hnum]
  show c.coreUtilization (l.blocks tiles.l1) >>= f = _
  rw [coreUtilization_eq hcore hblocks]
  rfl

/-- **Computing is no faster than the peak rate.** -/
theorem exists_computeTimeFrom (hc : c.Positive) (hl : l.Sized) (htiles : tiles.Valid) :
    ∃ time, c.computeTimeFrom tiles l = .ok time ∧
      l.getFlops / (c.peakFlops * c.maxComputeUtil * (2 / l.dbyte : ℕ)) ≤ time := by
  have hblocks := LayerArgs.blocks_pos hl tiles.l1 htiles.l1Tm htiles.l1Tn
  have hutil := utilization_pos hc.numCore hblocks
  have hfactor : (0 : ℚ) < (2 / l.dbyte : ℕ) := Nat.cast_pos.mpr (dbyte_factor_pos l)
  have hflops : 0 < c.peakFlops * c.maxComputeUtil := mul_pos hc.peakFlops hc.maxComputeUtil
  have hslower : ∀ {share : ℚ}, 0 < share → share ≤ 1 →
      l.getFlops / (c.peakFlops * c.maxComputeUtil * (2 / l.dbyte : ℕ)) ≤
        l.getFlops / (c.peakFlops * c.maxComputeUtil * share * (2 / l.dbyte : ℕ)) := by
    intro share hpos hle
    rw [mul_right_comm (c.peakFlops * c.maxComputeUtil) share]
    exact div_le_div_mul_share (Nat.cast_nonneg _) (mul_pos hflops hfactor) hpos hle
  rw [computeTimeFrom]
  by_cases hname : c.name = .GPU
  · rw [if_pos hname]
    refine ⟨_, ?_, hslower hutil (utilization_le_one hc.numCore _)⟩
    exact (bind_coreUtilization hc.numCore hl htiles _).trans
      (fdiv_of_pos _ (mul_pos (mul_pos hflops hutil) hfactor))
  · rw [if_neg hname]
    refine ⟨_, ?_, hslower one_pos le_rfl⟩
    exact bind_ok_iff.mpr ⟨1, rfl, fdiv_of_pos _ (mul_pos (mul_pos hflops one_pos) hfactor)⟩

/-- Moving is no faster than the bandwidth. -/
theorem exists_bandwidthTime_ge (hc : c.Positive) {memBw : ℚ} (hbw : 0 < memBw)
    (off l2 : Traffic) :
    ∃ time, c.bandwidthTime memBw off l2 = .ok time ∧ off.total / memBw ≤ time := by
  rw [bandwidthTime]
  rcases hpeak : c.peakL2Bandwidth with _ | bw
  · exact ⟨_, bind_ok_iff.mpr ⟨_, fdiv_of_pos _ hbw, rfl⟩,
      (le_max_left _ _).trans (le_max_left _ _)⟩
  · exact ⟨_, bind_ok_iff.mpr ⟨_, fdiv_of_pos _ hbw, bind_ok_iff.mpr
      ⟨_, fdiv_of_pos _ (hc.peakL2Bandwidth bw hpeak), rfl⟩⟩,
      (le_max_left _ _).trans (le_max_left _ _)⟩

/-- **Moving is no faster than the peak bandwidth.** -/
theorem exists_memTimeFrom (hc : c.Positive) (hl : l.Sized)
    (htype : l.type = .FC ∨ l.type = .MATMUL) (htiles : tiles.Valid)
    (off l2 l1 reg : Traffic) :
    ∃ time, c.memTimeFrom tiles (off, l2, l1, reg) l = .ok time ∧
      off.total / (c.peakMemoryBandwidth * c.maxMemoryUtil) ≤ time := by
  have hbw : 0 < c.peakMemoryBandwidth * c.maxMemoryUtil :=
    mul_pos hc.peakMemoryBandwidth hc.maxMemoryUtil
  have hblocks := LayerArgs.blocks_pos hl tiles.l1 htiles.l1Tm htiles.l1Tn
  have hutil := utilization_pos hc.numCore hblocks
  obtain ⟨shared, hshared, hle⟩ := exists_bandwidthTime_ge hc (mul_pos hbw hutil) off l2
  obtain ⟨whole, hwhole, hle'⟩ := exists_bandwidthTime_ge hc hbw off l2
  have hgpu : (do
      let blocks ← numThreadblock l tiles.l1Tm tiles.l1Tn
      let utilization ← c.coreUtilization blocks
      c.bandwidthTime (c.peakMemoryBandwidth * c.maxMemoryUtil * utilization) off l2) =
      .ok shared :=
    (bind_coreUtilization hc.numCore hl htiles _).trans hshared
  by_cases hname : c.name = .GPU
  · refine ⟨shared, ?_, (div_le_div_mul_share (Nat.cast_nonneg _) hbw hutil
      (utilization_le_one hc.numCore _)).trans hle⟩
    refine (if_pos hname).trans ?_
    rcases htype with htype | htype
    · rw [htype]
      exact hgpu
    · rw [htype]
      exact hgpu
  · exact ⟨whole, (if_neg hname).trans hwhole, hle'⟩

theorem maxTime_fst (compute mem : ℚ) : (maxTime compute mem).1 = max compute mem := by
  rw [maxTime]
  split_ifs with hlt
  · exact (max_eq_left hlt.le).symm
  · exact (max_eq_right (not_lt.mp hlt)).symm

/-- The larger time is no less than either. -/
theorem le_maxTime (compute mem : ℚ) :
    compute ≤ (maxTime compute mem).1 ∧ mem ≤ (maxTime compute mem).1 := by
  rw [maxTime_fst]
  exact ⟨le_max_left _ _, le_max_right _ _⟩

end Times

section Roofline

variable {c : XpuConfig} {l : LayerArgs}

/-- **The tiling of a layer is valid, and its times are under the roofline**, whatever the `xPU`
has timed before. -/
theorem tiling_under_roofline (hc : c.Positive) (earlier : List Layer)
    (htype : l.type = .FC ∨ l.type = .MATMUL) (hl : c.Tileable l) :
    ∃ tiles off l2 l1 reg time bound,
      ((c.getOptimalTileM l).exec (c.tableAfter earlier)).1 = .ok tiles ∧
      c.ValidTiling l tiles ∧
      ((c.getTrafficM l).exec (c.tableAfter earlier)).1 = .ok (off, l2, l1, reg) ∧
      l.compulsory ≤ off.total ∧
      ((c.execTimeM l).exec (c.tableAfter earlier)).1 = .ok (time, bound) ∧
      l.getFlops / (c.peakFlops * c.maxComputeUtil * (2 / l.dbyte : ℕ)) ≤ time ∧
      l.compulsory / (c.peakMemoryBandwidth * c.maxMemoryUtil) ≤ time := by
  obtain ⟨tiles, hon, htiling⟩ := exists_tilesOn hc.numCore (tiled_tableAfter hc.numCore earlier) hl
  have htiles := htiling.valid
  have htraffic := trafficOf_eq htype htiles
  obtain ⟨compute, hcompute, hflops⟩ := exists_computeTimeFrom hc hl.toSized htiles
  obtain ⟨mem, hmem, hbytes⟩ := exists_memTimeFrom hc hl.toSized htype htiles
    (l.tileTraffic tiles.l2) (l.tileTraffic tiles.l1) (l.tileTraffic (16, 16))
    ⟨l.m * l.n * l.k, l.m * l.n * l.k, l.m * l.n * l.k⟩
  have hcompulsory := LayerArgs.compulsory_le_total hl.toSized tiles.l2 htiles.l2Tm htiles.l2Tn
  have hbw : 0 < c.peakMemoryBandwidth * c.maxMemoryUtil :=
    mul_pos hc.peakMemoryBandwidth hc.maxMemoryUtil
  obtain ⟨hcomputeLe, hmemLe⟩ := le_maxTime compute mem
  have hgetTraffic : ((c.getTrafficM l).exec (c.tableAfter earlier)).1 = trafficOf tiles l := by
    rw [exec_getTrafficM c _ htype, hon]
    rfl
  refine ⟨tiles, _, _, _, _, (maxTime compute mem).1, (maxTime compute mem).2, hon, htiling,
    hgetTraffic.trans htraffic, hcompulsory, ?_, hflops.trans hcomputeLe, ?_⟩
  · rw [exec_execTimeM, hon]
    show c.execTimeOf tiles l = _
    exact bind_ok_iff.mpr ⟨compute, hcompute, bind_ok_iff.mpr ⟨_, htraffic, bind_ok_iff.mpr
      ⟨mem, hmem, rfl⟩⟩⟩
  · refine le_trans ?_ (hbytes.trans hmemLe)
    exact div_le_div_of_nonneg_right (Nat.cast_le.mpr hcompulsory) hbw.le

/-- An attention score is timed by the tiles of an FC layer of its sizes, and still is under the
roofline. -/
theorem tiling_under_roofline_score :
    ((makeGpuConfig .A100a 1).Positive ∧
      (makeGpuConfig .A100a 1).Tileable (smallLayer .score .MATMUL).toLayerArgs) ∧
    ∃ time bound, (((makeGpuConfig .A100a 1).execTimeM (smallLayer .score .MATMUL).toLayerArgs).exec
        ((makeGpuConfig .A100a 1).tableAfter [smallLayer .proj .FC])).1 = .ok (time, bound) ∧
      (32768 : ℚ) / (312 * 10 ^ 12 * (8 / 10)) ≤ time := by
  have hc : (makeGpuConfig .A100a 1).Positive := makeGpuConfig_positive .A100a (by decide)
  have hl : (makeGpuConfig .A100a 1).Tileable (smallLayer .score .MATMUL).toLayerArgs :=
    ⟨⟨by decide, by decide, by decide⟩, by decide +kernel⟩
  refine ⟨⟨hc, hl⟩, ?_⟩
  obtain ⟨-, -, -, -, -, time, bound, -, -, -, -, htime, hflops, -⟩ :=
    tiling_under_roofline hc [smallLayer .proj .FC] (.inr rfl) hl
  refine ⟨time, bound, htime, ?_⟩
  have hrate : ((smallLayer .score .MATMUL).toLayerArgs.getFlops : ℚ) = 32768 := by decide +kernel
  have hfactor : ((2 / (smallLayer .score .MATMUL).toLayerArgs.dbyte : ℕ) : ℚ) = 1 := by
    decide +kernel
  rw [hrate, hfactor, mul_one] at hflops
  exact hflops

end Roofline

end XpuConfig

end AttAcc
