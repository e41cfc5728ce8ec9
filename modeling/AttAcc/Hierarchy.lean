import AttAcc.Roofline

/-!
# Traffic along the memory hierarchy

A level should move no more than the levels nearer to the core: off-chip traffic is no more than
L2 traffic, that no more than L1 traffic, and that no more than register traffic.

The L2 search starts from the L1 tile, so the first part always holds (`XpuConfig.off_le_l2`). But
L1 traffic is that of a tile of 16 by 16, which neither the L1 tile nor the layer bounds, and
register traffic counts the operands of one operation where the others count the bytes of all
(`XpuConfig.inclusive_iff`).
-/

namespace AttAcc

open Library

namespace XpuConfig

/-- No level moves more than the levels nearer to the core. -/
def Inclusive (c : XpuConfig) (l : LayerArgs) : Prop :=
  ∃ off l2 l1 reg, c.getTraffic l = .ok (off, l2, l1, reg) ∧
    off.total ≤ l2.total ∧ l2.total ≤ l1.total ∧ l1.total ≤ reg.total

/-- No tile that the L1 search could keep moves more than the tile of the registers: of those that
do, none is the first of least cost. -/
def KeepsCoarse (c : XpuConfig) (l : LayerArgs) : Prop :=
  ∀ tile ∈ c.l1Tiles l, l.access (16, 16) < l.access tile →
    ¬FirstLeast (c.l1Cost l) (c.l1Tiles l) tile

variable {c : XpuConfig} {l : LayerArgs}

/-- The traffic of a tiled layer is that of three tiles, and its operands. -/
theorem getTraffic_spec (hcore : 0 < c.numCore) (hl : c.Tileable l)
    (htype : l.type = .FC ∨ l.type = .MATMUL) :
    ∃ l1 l2, (c.l1Tiles l).argmin (c.l1Cost l) = some l1 ∧
      ((c.l2Tiles l l1).argmin fun tile => (l.access tile : ℚ)) = some l2 ∧
      c.getTraffic l = .ok (l.tileTraffic l2, l.tileTraffic l1, l.tileTraffic (16, 16),
        ⟨l.m * l.n * l.k, l.m * l.n * l.k, l.m * l.n * l.k⟩) := by
  obtain ⟨l1, l2, harg1, harg2, htiles⟩ := getOptimalTile_spec hcore hl
  have hvalid := (validTiling_of_argmin hl.toSized harg1 harg2).valid
  refine ⟨l1, l2, harg1, harg2, ?_⟩
  rw [getTraffic_eq htiles]
  exact trafficOf_eq htype hvalid

/-- **The L2 tile moves no more than the L1 tile**, which is a candidate of its search. -/
theorem off_le_l2 (hcore : 0 < c.numCore) (hl : c.Tileable l)
    (htype : l.type = .FC ∨ l.type = .MATMUL) :
    ∃ off l2 l1 reg, c.getTraffic l = .ok (off, l2, l1, reg) ∧ off.total ≤ l2.total := by
  obtain ⟨l1, l2, harg1, harg2, htraffic⟩ := getTraffic_spec hcore hl htype
  have hwithin := within_of_mem_l1Tiles hl.toSized (List.argmin_mem harg1)
  have hleast := (validTiling_of_argmin hl.toSized harg1 harg2).least
  refine ⟨_, _, _, _, htraffic, (total_le_total_iff hl.toSized _ _).mpr ?_⟩
  exact hleast l1 (mem_l2Tiles_self hwithin)

/-- The L1 tile moves no more than the tile of the registers exactly when no finer one is kept. -/
theorem access_le_iff {l1 : ℕ × ℕ} (harg : (c.l1Tiles l).argmin (c.l1Cost l) = some l1) :
    l.access l1 ≤ l.access (16, 16) ↔ c.KeepsCoarse l := by
  refine ⟨?_, ?_⟩
  · intro hle tile _ hlt hleast
    have hsame := harg.symm.trans (argmin_eq_some_iff_append.mpr hleast)
    rw [Option.some.inj hsame] at hle
    exact absurd hle (not_le.mpr hlt)
  · intro hcoarse
    by_contra hlt
    exact hcoarse l1 (List.argmin_mem harg) (not_le.mp hlt) (argmin_eq_some_iff_append.mp harg)

/-- **The hierarchy is inclusive exactly when** the L1 search keeps no tile that moves more than
that of the registers, and the operands of an operation, three for each product, are no fewer than
the bytes that the tile of the registers moves. -/
theorem inclusive_iff (hcore : 0 < c.numCore) (hl : c.Tileable l)
    (htype : l.type = .FC ∨ l.type = .MATMUL) :
    c.Inclusive l ↔
      c.KeepsCoarse l ∧ l.access (16, 16) * l.numOp ≤ 3 * (l.m * l.n * l.k) := by
  obtain ⟨l1, l2, harg1, harg2, htraffic⟩ := getTraffic_spec hcore hl htype
  obtain ⟨_, _, _, _, htraffic', hoff⟩ := off_le_l2 hcore hl htype
  obtain ⟨rfl, rfl, rfl, rfl⟩ : _ ∧ _ ∧ _ ∧ _ := by
    simpa using Except.ok.inj (htraffic.symm.trans htraffic')
  have hreg : (⟨l.m * l.n * l.k, l.m * l.n * l.k, l.m * l.n * l.k⟩ : Traffic).total =
      3 * (l.m * l.n * l.k) := by
    rw [Traffic.total]
    ring
  rw [← access_le_iff harg1, ← total_le_total_iff hl.toSized, ← LayerArgs.total_tileTraffic, ← hreg]
  refine ⟨?_, ?_⟩
  · rintro ⟨off', l2', l1', reg', hsame, -, hl2, hl1⟩
    obtain ⟨rfl, rfl, rfl, rfl⟩ : _ ∧ _ ∧ _ ∧ _ := by
      simpa using Except.ok.inj (htraffic.symm.trans hsame)
    exact ⟨hl2, hl1⟩
  · rintro ⟨hl2, hl1⟩
    exact ⟨_, _, _, _, htraffic, hoff, hl2, hl1⟩

/-- Small scores have an inclusive hierarchy. -/
theorem inclusive_score :
    (makeGpuConfig .A100a 1).Inclusive (smallLayer .score .MATMUL).toLayerArgs := by
  have hsized : (smallLayer .score .MATMUL).toLayerArgs.Sized :=
    ⟨by decide, by decide, by decide⟩
  refine (inclusive_iff (by decide) ⟨hsized, by decide +kernel⟩ (.inr rfl)).mpr ⟨?_, by decide⟩
  exact (access_le_iff argmin_smallLayer.2).mp le_rfl

/-- The score of a decode step, for 32 heads and 2048 tokens. -/
def decodeScore : LayerArgs where
  stage := .gen
  name := .score
  type := .MATMUL
  hasWeight := false
  dtype := .W16A16
  m := 1
  n := 2048
  k := 128
  numOp := 32
  pimNumOp := 32

/-- **Two ways to fail**: the registers of a decode step move less than L1, and an FC layer that is
cut into fine tiles has its L1 move less than L2. -/
theorem not_inclusive : ¬(makeGpuConfig .A100a 1).Inclusive decodeScore ∧
    ¬(makeGpuConfig .A100a 1).Inclusive (smallLayer .proj .FC).toLayerArgs := by
  refine ⟨?_, ?_⟩
  · rintro ⟨off, l2, l1, reg, htraffic, -, -, hl1⟩
    obtain ⟨_, _, -, -, htraffic'⟩ := getTraffic_spec (c := makeGpuConfig .A100a 1) (by decide)
      (l := decodeScore) ⟨⟨by decide, by decide, by decide⟩, by decide +kernel⟩ (.inr rfl)
    obtain ⟨-, -, rfl, rfl⟩ : _ ∧ _ ∧ _ ∧ _ := by
      simpa using Except.ok.inj (htraffic.symm.trans htraffic')
    revert hl1
    decide
  · rintro ⟨off, l2, l1, reg, htraffic, -, hl2, -⟩
    obtain ⟨tile, _, harg, -, htraffic'⟩ := getTraffic_spec (c := makeGpuConfig .A100a 1)
      (by decide) (l := (smallLayer .proj .FC).toLayerArgs)
      ⟨⟨by decide, by decide, by decide⟩, by decide +kernel⟩ (.inl rfl)
    obtain rfl := Option.some.inj (argmin_smallLayer.1.symm.trans harg)
    obtain ⟨-, rfl, rfl, -⟩ : _ ∧ _ ∧ _ ∧ _ := by
      simpa using Except.ok.inj (htraffic.symm.trans htraffic')
    revert hl2
    decide

end XpuConfig

end AttAcc
