import AttAcc.Trace.Coverage
import Mathlib.Algebra.Order.Field.Basic
import Mathlib.Algebra.Order.Floor.Semiring

/-!
# Heads, channels and list accesses

`run_attention` spreads the heads of an HBM over iterations of 16 channels, and indexes the
lists of an iteration by loops whose lengths it computes anew. Both add up: the iterations
partition the heads (`partitionsHeads`), the loops are as long as the lists
(`matchesLoops_iteration`), and so no access is out of range (`run_in_range`).
-/

namespace AttAcc.Trace

open Library

/-- The channels that the iterations use partition the heads. -/
structure PartitionsHeads (a : Args) : Prop where
  bounds : ∀ itr < a.numItr, 1 ≤ a.validChannel itr ∧ a.validChannel itr ≤ nChannel
  full : ∀ itr, itr + 1 < a.numItr → a.validChannel itr = nChannel
  sum : ((List.range a.numItr).map a.validChannel).sum = a.nHeadPerHbm

/-- The lists of an iteration are as long as the loops that index them, in the expressions of
the source: `ceil(L / units / 16)` and `ceil(dhead / lanes / n_mac)`. -/
structure MatchesLoops {α : Type*} (g : Generator) (a : Args) (it : Iteration α) : Prop where
  scoreMvsb : it.scoreMvsb.length = g.scoreLength a
  scoreLength : g.scoreLength a = ⌈(a.L : ℚ) / g.units / 16⌉₊
  contextMac : it.contextMac.length = g.contextLength a
  contextMvsb : it.contextMvsb.length = g.contextLength a
  contextLength : g.contextLength a = ⌈(a.dhead : ℚ) / g.lanes / a.nMac⌉₊

/-! ## The partition of the heads -/

section Heads

variable {a : Args}

/-- **The iterations partition the heads.** -/
theorem partitionsHeads (a : Args) : PartitionsHeads a := by
  refine ⟨?_, fun itr => Args.validChannel_of_succ_lt, ?_⟩
  · intro itr hitr
    refine ⟨a.validChannel_pos itr, ?_⟩
    rcases Nat.lt_or_ge (itr + 1) a.numItr with hlt | hge
    · exact (Args.validChannel_of_succ_lt hlt).le
    · exact (Args.validChannel_last (by omega)).2
  · rcases hnum : a.numItr with _ | last
    · have hnone : a.nHeadPerHbm ≤ 0 * 16 := Args.numItr_le_iff.mp hnum.le
      rw [List.range_zero, List.map_nil, List.sum_nil]
      omega
    · have hfull : (List.range last).map a.validChannel = List.replicate last nChannel := by
        refine List.eq_replicate_iff.mpr ⟨by simp, ?_⟩
        intro channels hchannels
        obtain ⟨itr, hitr, rfl⟩ := List.mem_map.mp hchannels
        have hlt := List.mem_range.mp hitr
        exact Args.validChannel_of_succ_lt (by omega)
      rw [List.range_succ, List.map_append, List.sum_append, hfull, List.sum_replicate]
      simpa [nChannel] using (Args.validChannel_last hnum).1

end Heads

/-! ## The lengths of the loops -/

/-- `math.ceil` of a quotient of integers. -/
theorem ceil_div_eq_ceilDiv (m : ℕ) {n : ℕ} (hn : 0 < n) : ⌈(m : ℚ) / n⌉₊ = m ⌈/⌉ n := by
  have hpos : (0 : ℚ) < n := Nat.cast_pos.mpr hn
  apply eq_of_forall_ge_iff
  intro k
  rw [Nat.ceil_le, div_le_iff₀ hpos, ceilDiv_le_iff_le_mul hn, mul_comm]
  exact_mod_cast Iff.rfl

/-- Nested quotients are rounded up once. -/
theorem ceil_div_div_eq_ceilDiv (m : ℕ) {n k : ℕ} (hn : 0 < n) (hk : 0 < k) :
    ⌈(m : ℚ) / n / k⌉₊ = m ⌈/⌉ (n * k) := by
  rw [div_div, ← Nat.cast_mul, ceil_div_eq_ceilDiv m (Nat.mul_pos hn hk)]

/-- **The lists that `Attention` writes are as long as the loops that read them.** -/
theorem matchesLoops_iteration (g : Generator) {a : Args} (hmac : 0 < a.nMac) (itr : ℕ) :
    MatchesLoops g a (g.iteration a itr) := by
  have hfits := fits_iteration g a itr
  refine ⟨length_scoreMvsb g a _ _ _, ?_, hfits.contextMac, hfits.contextMvsb, ?_⟩
  · have hceil := ceil_div_div_eq_ceilDiv a.L g.units_pos (by decide : 0 < 16)
    rw [Generator.scoreLength, ← hceil, Nat.cast_ofNat]
  · rw [Generator.contextLength, Generator.headCols,
      ceil_div_div_eq_ceilDiv a.dhead g.lanes_pos hmac]

/-! ## No access is out of range -/

/-- **`run_attention` is safe**: its iterations partition the heads, its lists are as long as its
loops, and it writes a trace, as an access out of range would raise. -/
theorem run_in_range (g : Generator) {a : Args} (hheads : 1 ≤ a.nHeadPerHbm) (hL : 1 ≤ a.L)
    (hdhead : 1 ≤ a.dhead) (hmac : 1 ≤ a.nMac) :
    PartitionsHeads a ∧ ∃ cmds trace, g.runAttention a [] = .ok (cmds, trace) ∧
      cmds.map Iteration.validChannel = (List.range a.numItr).map a.validChannel ∧
        1 ≤ a.numItr ∧ ∀ it ∈ cmds, MatchesLoops g a it := by
  have hitr : 1 ≤ a.numItr := by
    by_contra hnone
    have hfew : a.nHeadPerHbm ≤ 0 * 16 := Args.numItr_le_iff.mp (by omega)
    omega
  have hrows : 0 < g.seqRows a := seqRows_pos_iff.mpr hL
  have hcols : 0 < g.headCols a := (headCols_pos_iff hmac).mpr hdhead
  obtain ⟨cmds, trace, hrun⟩ := (exists_run_iff hmac).mpr (.inr ⟨hrows, hcols⟩)
  obtain ⟨rfl, -⟩ := exists_tagged hrun
  refine ⟨partitionsHeads a, _, trace, hrun, ?_, hitr, ?_⟩
  · rw [List.map_map]
    rfl
  · intro it hit
    obtain ⟨itr, -, rfl⟩ := List.mem_map.mp hit
    exact matchesLoops_iteration g hmac itr

/-- Seventeen heads: one iteration of sixteen, and one of a single head. -/
theorem run_in_range_seventeen : (1 ≤ 17 ∧ 1 ≤ 16 ∧ 1 ≤ 128) ∧
    ∃ cmds trace, buffer.runAttention (shortArgs 17) [] = .ok (cmds, trace) := by
  refine ⟨by decide, ?_⟩
  obtain ⟨-, cmds, trace, hrun, -⟩ := run_in_range buffer (a := shortArgs 17) (by decide)
    (by decide) (by decide) (by decide)
  exact ⟨cmds, trace, hrun⟩

end AttAcc.Trace
