import AttAcc.Tiles

/-!
# Devices with other rates

The tiles of a layer are searched for by sizes: the caches, the cores and the layer itself. How fast
an `xPU` computes and moves data does not matter to them, so neither its traffic nor its energy
depends on it. What remains are times, and every one of them is an amount of work over a rate, or a
formula that was fitted to one. A device whose rates are no less times a layer in no more time
(`XpuConfig.Faster.getTimeAndEnergy`).
-/

namespace AttAcc

open Library

/-- The same device with rates that are no less. -/
structure XpuConfig.Faster (c c' : XpuConfig) : Prop where
  name : c'.name = c.name
  numXpu : c'.numXpu = c.numXpu
  numCore : c'.numCore = c.numCore
  l1CacheSize : c'.l1CacheSize = c.l1CacheSize
  l2CacheSize : c'.l2CacheSize = c.l2CacheSize
  energyTable : c'.energyTable = c.energyTable
  float : c'.float = c.float
  peakFlops : c.peakFlops ≤ c'.peakFlops
  peakMemoryBandwidth : c.peakMemoryBandwidth ≤ c'.peakMemoryBandwidth
  peakL2Bandwidth : ∀ bw', c'.peakL2Bandwidth = some bw' →
    ∃ bw, c.peakL2Bandwidth = some bw ∧ bw ≤ bw'
  maxInterfaceBandwidth : c.maxInterfaceBandwidth ≤ c'.maxInterfaceBandwidth
  maxComputeUtil : c.maxComputeUtil ≤ c'.maxComputeUtil
  maxMemoryUtil : c.maxMemoryUtil ≤ c'.maxMemoryUtil

/-- Work at a rate that is no less. -/
theorem fdiv_le_fdiv {work rate rate' time time' : ℚ} (hwork : 0 ≤ work) (hrate : 0 < rate)
    (hle : rate ≤ rate') (h : fdiv work rate = .ok time) (h' : fdiv work rate' = .ok time') :
    time' ≤ time := by
  obtain ⟨-, rfl⟩ := fdiv_eq_ok.mp h
  obtain ⟨-, rfl⟩ := fdiv_eq_ok.mp h'
  exact div_le_div_of_nonneg_left hwork hrate hle

namespace XpuConfig

variable {c c' : XpuConfig} {l : LayerArgs}

/-- A layer keeps some of the cores busy. -/
theorem coreUtilization_pos {blocks : ℕ} {utilization : ℚ}
    (h : c.coreUtilization blocks = .ok utilization) : 0 < utilization := by
  have hblocks : 0 < blocks := by
    refine Nat.pos_of_ne_zero ?_
    rintro rfl
    exact coreUtilization_zero h
  obtain ⟨waves, -, h⟩ := bind_ok_iff.mp h
  obtain ⟨hne, rfl⟩ := fdiv_eq_ok.mp h
  exact div_pos (Nat.cast_pos.mpr hblocks) (lt_of_le_of_ne (Nat.cast_nonneg _) hne.symm)

/-- Data takes its off-chip time at least. -/
theorem le_of_bandwidthTime {bw time : ℚ} {off l2 : Traffic}
    (h : c.bandwidthTime bw off l2 = .ok time) :
    ∃ offTime, fdiv off.total bw = .ok offTime ∧ offTime ≤ time ∧ 0 ≤ time := by
  obtain ⟨offTime, hoff, h⟩ := bind_ok_iff.mp h
  refine ⟨offTime, hoff, ?_⟩
  rcases hpeak : c.peakL2Bandwidth with _ | peak
  · simp only [hpeak] at h
    obtain rfl := Except.ok.inj h
    exact ⟨(le_max_left _ _).trans (le_max_left _ _), le_max_right _ _⟩
  · simp only [hpeak] at h
    obtain ⟨l2Time, -, h⟩ := bind_ok_iff.mp h
    obtain rfl := Except.ok.inj h
    exact ⟨(le_max_left _ _).trans (le_max_left _ _), le_max_right _ _⟩

/-- A layer takes the longer of two times. -/
theorem execTime_eq_ok {time : ℚ} {bound : Bound} (h : c.execTime l = .ok (time, bound)) :
    ∃ compute mem, c.computeTime l = .ok compute ∧ c.memTime l = .ok mem ∧
      time = max mem compute := by
  obtain ⟨compute, hcompute, h⟩ := bind_ok_iff.mp h
  obtain ⟨mem, hmem, h⟩ := bind_ok_iff.mp h
  refine ⟨compute, mem, hcompute, hmem, ?_⟩
  split_ifs at h with hlt
  · obtain ⟨rfl, -⟩ := Prod.mk.inj (Except.ok.inj h)
    exact (max_eq_right hlt.le).symm
  · obtain ⟨rfl, -⟩ := Prod.mk.inj (Except.ok.inj h)
    exact (max_eq_left (not_lt.mp hlt)).symm

namespace Faster

/-! ### What does not depend on the rates -/

theorem coreUtilization (h : c.Faster c') : c'.coreUtilization = c.coreUtilization := by
  funext blocks
  rw [XpuConfig.coreUtilization, XpuConfig.coreUtilization, h.numCore]

theorem getOptimalTile (h : c.Faster c') : c'.getOptimalTile l = c.getOptimalTile l := by
  have hl1 : c'.l1Step l = c.l1Step l := by
    funext s tile
    simp only [l1Step, floatCost, h.l1CacheSize, h.coreUtilization, h.float]
  have hl2 : c'.l2Step l = c.l2Step l := by
    funext l1 s tile
    rw [l2Step, l2Step, h.l2CacheSize]
  rw [XpuConfig.getOptimalTile, XpuConfig.getOptimalTile, hl1, hl2]

theorem getTraffic (h : c.Faster c') : c'.getTraffic l = c.getTraffic l := by
  rw [XpuConfig.getTraffic, XpuConfig.getTraffic, h.getOptimalTile]

theorem getEnergy (h : c.Faster c') : c'.getEnergy l = c.getEnergy l := by
  rw [XpuConfig.getEnergy, XpuConfig.getEnergy, h.getTraffic, h.energyTable, h.numXpu, h.name]

/-- It times the same layers. -/
theorem times (h : c.Faster c') : c'.Times l ↔ c.Times l := by
  have htile : c'.Tileable l ↔ c.Tileable l := by
    refine ⟨?_, ?_⟩
    · intro ht
      exact ⟨ht.toSized, h.l1CacheSize ▸ ht.fits⟩
    · intro ht
      exact ⟨ht.toSized, h.l1CacheSize.symm ▸ ht.fits⟩
  rw [Times, Times, htile]

/-! ### What does -/

theorem computeTime (h : c.Faster c') (hc : c.Positive) {time time' : ℚ}
    (ht : c.computeTime l = .ok time) (ht' : c'.computeTime l = .ok time') : time' ≤ time := by
  obtain ⟨tiles, htiles, ht⟩ := bind_ok_iff.mp ht
  obtain ⟨tiles', htiles', ht'⟩ := bind_ok_iff.mp ht'
  obtain rfl := Except.ok.inj (htiles.symm.trans (h.getOptimalTile.symm.trans htiles'))
  have hrates : c.peakFlops * c.maxComputeUtil ≤ c'.peakFlops * c'.maxComputeUtil :=
    mul_le_mul h.peakFlops h.maxComputeUtil hc.maxComputeUtil.le (hc.peakFlops.le.trans h.peakFlops)
  have hfactor : (0 : ℚ) < (2 / l.dbyte : ℕ) := Nat.cast_pos.mpr (dbyte_factor_pos l)
  have hflops : 0 < c.peakFlops * c.maxComputeUtil := mul_pos hc.peakFlops hc.maxComputeUtil
  have hshared : ∀ {share : ℚ}, 0 < share →
      fdiv l.getFlops (c.peakFlops * c.maxComputeUtil * share * (2 / l.dbyte : ℕ)) = .ok time →
      fdiv l.getFlops (c'.peakFlops * c'.maxComputeUtil * share * (2 / l.dbyte : ℕ)) = .ok time' →
      time' ≤ time := by
    intro share hpos ht ht'
    exact fdiv_le_fdiv (Nat.cast_nonneg _) (mul_pos (mul_pos hflops hpos) hfactor)
      (mul_le_mul_of_nonneg_right (mul_le_mul_of_nonneg_right hrates hpos.le) hfactor.le) ht ht'
  by_cases hname : c.name = .GPU
  · simp only [hname, h.name, if_true] at ht ht'
    obtain ⟨blocks, hblocks, ht⟩ := bind_ok_iff.mp ht
    obtain ⟨blocks', hblocks', ht'⟩ := bind_ok_iff.mp ht'
    obtain rfl := Except.ok.inj (hblocks.symm.trans hblocks')
    obtain ⟨share, hshare, ht⟩ := bind_ok_iff.mp ht
    obtain ⟨share', hshare', ht'⟩ := bind_ok_iff.mp ht'
    rw [h.coreUtilization] at hshare'
    obtain rfl := Except.ok.inj (hshare.symm.trans hshare')
    exact hshared (coreUtilization_pos hshare) ht ht'
  · simp only [hname, h.name, if_false] at ht ht'
    exact hshared one_pos ht ht'

theorem elementwiseTime (h : c.Faster c') (hc : c.Positive) {perByte perCall : ℚ}
    (hbyte : 0 ≤ perByte) {bytes : ℕ} {time time' : ℚ}
    (ht : c.elementwiseTime perByte perCall bytes = .ok time)
    (ht' : c'.elementwiseTime perByte perCall bytes = .ok time') : time' ≤ time := by
  obtain ⟨scale, hscale, ht⟩ := bind_ok_iff.mp ht
  obtain ⟨scale', hscale', ht'⟩ := bind_ok_iff.mp ht'
  obtain rfl := Except.ok.inj ht
  obtain rfl := Except.ok.inj ht'
  have hle : scale' ≤ scale :=
    fdiv_le_fdiv (by norm_num) hc.peakMemoryBandwidth h.peakMemoryBandwidth hscale hscale'
  gcongr

theorem bandwidthTime (h : c.Faster c') (hc : c.Positive) {bw bw' : ℚ} (hbw : 0 < bw)
    (hle : bw ≤ bw') {off l2 : Traffic} {time time' : ℚ}
    (ht : c.bandwidthTime bw off l2 = .ok time) (ht' : c'.bandwidthTime bw' off l2 = .ok time') :
    time' ≤ time := by
  obtain ⟨offTime', hoff', ht'⟩ := bind_ok_iff.mp ht'
  rcases hpeak' : c'.peakL2Bandwidth with _ | peak'
  · -- without an L2 that limits it, only the off-chip time counts
    simp only [hpeak'] at ht'
    obtain rfl := Except.ok.inj ht'
    obtain ⟨offTime, hoff, hoffLe, hnonneg⟩ := le_of_bandwidthTime ht
    have hoffTime : offTime' ≤ offTime := fdiv_le_fdiv (Nat.cast_nonneg _) hbw hle hoff hoff'
    exact max_le (max_le (hoffTime.trans hoffLe) hnonneg) hnonneg
  · obtain ⟨peak, hpeak, hpeakLe⟩ := h.peakL2Bandwidth peak' hpeak'
    obtain ⟨offTime, hoff, ht⟩ := bind_ok_iff.mp ht
    simp only [hpeak] at ht
    simp only [hpeak'] at ht'
    obtain ⟨l2Time, hl2, ht⟩ := bind_ok_iff.mp ht
    obtain ⟨l2Time', hl2', ht'⟩ := bind_ok_iff.mp ht'
    obtain rfl := Except.ok.inj ht
    obtain rfl := Except.ok.inj ht'
    have hoffTime : offTime' ≤ offTime := fdiv_le_fdiv (Nat.cast_nonneg _) hbw hle hoff hoff'
    have hl2Time : l2Time' ≤ l2Time :=
      fdiv_le_fdiv (Nat.cast_nonneg _) (hc.peakL2Bandwidth peak hpeak) hpeakLe hl2 hl2'
    exact max_le_max_right 0 (max_le_max hoffTime hl2Time)

/-- A GPU has formulas of its own for activations and normalisations. -/
theorem fittedTime (h : c.Faster c') (hc : c.Positive) {perByte perCall : ℚ} (hbyte : 0 ≤ perByte)
    {bytes : ℕ} {time time' : ℚ}
    (ht : (do let fitted ← c.elementwiseTime perByte perCall bytes
              return max fitted 0) = .ok time)
    (ht' : (do let fitted ← c'.elementwiseTime perByte perCall bytes
               return max fitted 0) = .ok time') : time' ≤ time := by
  obtain ⟨fitted, hfitted, ht⟩ := bind_ok_iff.mp ht
  obtain ⟨fitted', hfitted', ht'⟩ := bind_ok_iff.mp ht'
  obtain rfl := Except.ok.inj ht
  obtain rfl := Except.ok.inj ht'
  exact max_le_max_right 0 (h.elementwiseTime hc hbyte hfitted hfitted')

theorem memoryRate_le (h : c.Faster c') (hc : c.Positive) :
    c.peakMemoryBandwidth * c.maxMemoryUtil ≤ c'.peakMemoryBandwidth * c'.maxMemoryUtil :=
  mul_le_mul h.peakMemoryBandwidth h.maxMemoryUtil hc.maxMemoryUtil.le
    (hc.peakMemoryBandwidth.le.trans h.peakMemoryBandwidth)

/-- Other layers get the share of the bandwidth that their busy cores have. -/
theorem sharedBandwidthTime (h : c.Faster c') (hc : c.Positive) {tm tn : ℕ} {off l2 : Traffic}
    {time time' : ℚ}
    (ht : (do let blocks ← numThreadblock l tm tn
              let utilization ← c.coreUtilization blocks
              c.bandwidthTime (c.peakMemoryBandwidth * c.maxMemoryUtil * utilization) off l2) =
      .ok time)
    (ht' : (do let blocks ← numThreadblock l tm tn
               let utilization ← c'.coreUtilization blocks
               c'.bandwidthTime (c'.peakMemoryBandwidth * c'.maxMemoryUtil * utilization) off l2) =
      .ok time') : time' ≤ time := by
  obtain ⟨blocks, hblocks, ht⟩ := bind_ok_iff.mp ht
  obtain ⟨blocks', hblocks', ht'⟩ := bind_ok_iff.mp ht'
  obtain rfl := Except.ok.inj (hblocks.symm.trans hblocks')
  obtain ⟨share, hshare, ht⟩ := bind_ok_iff.mp ht
  obtain ⟨share', hshare', ht'⟩ := bind_ok_iff.mp ht'
  rw [h.coreUtilization] at hshare'
  obtain rfl := Except.ok.inj (hshare.symm.trans hshare')
  have hpos : 0 < share := coreUtilization_pos hshare
  exact h.bandwidthTime hc (mul_pos (mul_pos hc.peakMemoryBandwidth hc.maxMemoryUtil) hpos)
    (mul_le_mul_of_nonneg_right (h.memoryRate_le hc) hpos.le) ht ht'

theorem memTime (h : c.Faster c') (hc : c.Positive) {time time' : ℚ}
    (ht : c.memTime l = .ok time) (ht' : c'.memTime l = .ok time') : time' ≤ time := by
  obtain ⟨tiles, htiles, ht⟩ := bind_ok_iff.mp ht
  obtain ⟨tiles', htiles', ht'⟩ := bind_ok_iff.mp ht'
  obtain rfl := Except.ok.inj (htiles.symm.trans (h.getOptimalTile.symm.trans htiles'))
  obtain ⟨⟨off, l2, l1, reg⟩, htraffic, ht⟩ := bind_ok_iff.mp ht
  obtain ⟨traffic', htraffic', ht'⟩ := bind_ok_iff.mp ht'
  obtain rfl := Except.ok.inj (htraffic.symm.trans (h.getTraffic.symm.trans htraffic'))
  by_cases hname : c.name = .GPU
  · simp only [hname, h.name, if_true] at ht ht'
    cases htype : l.type <;> simp only [htype] at ht ht'
    case ACT => exact h.fittedTime hc (by norm_num) ht ht'
    case NORM => exact h.fittedTime hc (by norm_num) ht ht'
    all_goals exact h.sharedBandwidthTime hc ht ht'
  · simp only [hname, h.name, if_false] at ht ht'
    exact h.bandwidthTime hc (mul_pos hc.peakMemoryBandwidth hc.maxMemoryUtil)
      (h.memoryRate_le hc) ht ht'

theorem execTime (h : c.Faster c') (hc : c.Positive) {time time' : ℚ} {bound bound' : Bound}
    (ht : c.execTime l = .ok (time, bound)) (ht' : c'.execTime l = .ok (time', bound')) :
    time' ≤ time := by
  obtain ⟨compute, mem, hcompute, hmem, rfl⟩ := execTime_eq_ok ht
  obtain ⟨compute', mem', hcompute', hmem', rfl⟩ := execTime_eq_ok ht'
  exact max_le_max (h.memTime hc hmem hmem') (h.computeTime hc hcompute hcompute')

theorem getNvlinkTime (h : c.Faster c') (hc : c.Positive) {size : ℚ} (hsize : 0 ≤ size)
    {time time' : ℚ} (ht : c.getNvlinkTime size = .ok time)
    (ht' : c'.getNvlinkTime size = .ok time') : time' ≤ time := by
  rw [XpuConfig.getNvlinkTime] at ht ht'
  split_ifs at ht ht' with hzero
  · obtain rfl := Except.ok.inj ht
    obtain rfl := Except.ok.inj ht'
    exact le_rfl
  · obtain ⟨scale, hscale, ht⟩ := bind_ok_iff.mp ht
    obtain ⟨scale', hscale', ht'⟩ := bind_ok_iff.mp ht'
    obtain ⟨limit, hlimit, ht⟩ := bind_ok_iff.mp ht
    obtain ⟨limit', hlimit', ht'⟩ := bind_ok_iff.mp ht'
    obtain rfl := Except.ok.inj ht
    obtain rfl := Except.ok.inj ht'
    have hscaleLe : scale' ≤ scale :=
      fdiv_le_fdiv (by norm_num) hc.maxInterfaceBandwidth h.maxInterfaceBandwidth hscale hscale'
    have hlimitLe : limit' ≤ limit :=
      fdiv_le_fdiv hsize (half_pos hc.maxInterfaceBandwidth)
        (div_le_div_of_nonneg_right h.maxInterfaceBandwidth zero_le_two) hlimit hlimit'
    have hfitted : (6060 + 9 / 1000 * size * scale') / 1000 / 1000 / 1000 ≤
        (6060 + 9 / 1000 * size * scale) / 1000 / 1000 / 1000 := by gcongr
    exact max_le_max hfitted hlimitLe

theorem ioTime (h : c.Faster c') (hc : c.Positive) {traffic : ℕ} {time time' : ℚ}
    (ht : c.ioTime l traffic = .ok time) (ht' : c'.ioTime l traffic = .ok time') :
    time' ≤ time := by
  rw [XpuConfig.ioTime] at ht ht'
  rw [h.name, h.numXpu] at ht'
  split_ifs at ht ht' with hpath
  · exact fdiv_le_fdiv (Nat.cast_nonneg _) (half_pos hc.maxInterfaceBandwidth)
      (div_le_div_of_nonneg_right h.maxInterfaceBandwidth zero_le_two) ht ht'
  · obtain ⟨share, hshare, ht⟩ := bind_ok_iff.mp ht
    obtain ⟨share', hshare', ht'⟩ := bind_ok_iff.mp ht'
    obtain rfl := Except.ok.inj (hshare.symm.trans hshare')
    obtain ⟨hop, hhop, ht⟩ := bind_ok_iff.mp ht
    obtain ⟨hop', hhop', ht'⟩ := bind_ok_iff.mp ht'
    obtain rfl := Except.ok.inj ht
    obtain rfl := Except.ok.inj ht'
    obtain ⟨-, rfl⟩ := fdiv_eq_ok.mp hshare
    have hone : (1 : ℚ) ≤ c.numXpu := Nat.one_le_cast.mpr hc.numXpu
    have hhopLe : hop' ≤ hop :=
      h.getNvlinkTime hc (div_nonneg (Nat.cast_nonneg _) (Nat.cast_nonneg _)) hhop hhop'
    exact mul_le_mul_of_nonneg_right hhopLe (sub_nonneg.mpr hone)

/-- **A device whose rates are no less takes no more time, and the same energy.** -/
theorem getTimeAndEnergy (h : c.Faster c') (hc : c.Positive) {l : Layer} {o o' : Outcome}
    (ho : c.getTimeAndEnergy l = .ok o) (ho' : c'.getTimeAndEnergy l = .ok o') :
    o'.execTime ≤ o.execTime ∧ o'.energy = o.energy := by
  rw [XpuConfig.getTimeAndEnergy] at ho ho'
  split_ifs at ho ho' with hcomm
  · obtain ⟨⟨time, energy⟩, hio, ho⟩ := bind_ok_iff.mp ho
    obtain ⟨⟨time', energy'⟩, hio', ho'⟩ := bind_ok_iff.mp ho'
    obtain rfl := Except.ok.inj ho
    obtain rfl := Except.ok.inj ho'
    obtain ⟨execTime, htime, hio⟩ := bind_ok_iff.mp hio
    obtain ⟨execTime', htime', hio'⟩ := bind_ok_iff.mp hio'
    obtain ⟨rfl, rfl⟩ := Prod.mk.inj (Except.ok.inj hio)
    obtain ⟨rfl, rfl⟩ := Prod.mk.inj (Except.ok.inj hio')
    refine ⟨h.ioTime hc htime htime', ?_⟩
    rw [h.name, h.numXpu, h.energyTable]
  · obtain ⟨⟨time, bound⟩, hexec, ho⟩ := bind_ok_iff.mp ho
    obtain ⟨⟨time', bound'⟩, hexec', ho'⟩ := bind_ok_iff.mp ho'
    obtain ⟨energy, henergy, ho⟩ := bind_ok_iff.mp ho
    obtain ⟨energy', henergy', ho'⟩ := bind_ok_iff.mp ho'
    obtain rfl := Except.ok.inj ho
    obtain rfl := Except.ok.inj ho'
    exact ⟨h.execTime hc hexec hexec',
      Except.ok.inj (henergy'.symm.trans (h.getEnergy.trans henergy))⟩

end Faster

end XpuConfig

end AttAcc
