import Mathlib.Algebra.Order.Field.Basic
import Mathlib.Tactic.Linarith
import Mathlib.Tactic.Ring

/-!
# Moving a part of a job

A job has a part that stays where it is and a part that moves to a device `ratio` times as fast.
Where the two parts then overlap, the job takes as long as the longer of them.

The speedup grows with the part that moves up to `1 + ratio`, where both parts take the same time,
and falls towards `ratio` from there. It is at most `ratio`, then, only well before that point
(`speedup_le_ratio_iff`).
-/

namespace Library

section Offload

variable {K : Type*} [Field K] [LinearOrder K] [IsStrictOrderedRing K]

/-- How much faster a job gets whose parts take `keep` and `move` after the move. -/
def speedup (ratio keep move : K) : K := (keep + ratio * move) / max keep move

variable {ratio keep move move' : K}

/-- The part that stays takes as long as before, and the other gets faster. -/
theorem one_le_speedup (hratio : 1 ≤ ratio) (hkeep : 0 < keep) (hmove : 0 ≤ move) :
    1 ≤ speedup ratio keep move := by
  have hmoved : move ≤ ratio * move := le_mul_of_one_le_left hmove hratio
  rw [speedup, one_le_div (lt_max_of_lt_left hkeep)]
  apply max_le
  · linarith
  · linarith

/-- The more that moves, the faster the job, as long as what stays takes longer. -/
theorem speedup_le_speedup (hratio : 0 ≤ ratio) (hkeep : 0 < keep) (hle : move ≤ move')
    (hfits : move' ≤ keep) : speedup ratio keep move ≤ speedup ratio keep move' := by
  rw [speedup, speedup, max_eq_left hfits, max_eq_left (hle.trans hfits)]
  apply div_le_div_of_nonneg_right _ hkeep.le
  exact add_le_add_right (mul_le_mul_of_nonneg_left hle hratio) keep

/-- It never gets faster by more than the ratio and one. -/
theorem speedup_le_one_add_ratio (hratio : 0 ≤ ratio) (hkeep : 0 < keep) :
    speedup ratio keep move ≤ 1 + ratio := by
  have hmoved : ratio * move ≤ ratio * max keep move :=
    mul_le_mul_of_nonneg_left (le_max_right _ _) hratio
  rw [speedup, div_le_iff₀ (lt_max_of_lt_left hkeep), add_mul, one_mul]
  exact add_le_add (le_max_left _ _) hmoved

/-- The ratio bounds the speedup only where the part that stays takes that much longer. -/
theorem speedup_le_ratio_iff (hratio : 0 < ratio) (hkeep : 0 < keep) :
    speedup ratio keep move ≤ ratio ↔ ratio * move ≤ (ratio - 1) * keep := by
  rw [speedup, div_le_iff₀ (lt_max_of_lt_left hkeep)]
  rcases le_total move keep with hstays | hmoves
  · rw [max_eq_left hstays, sub_mul, one_mul, le_sub_iff_add_le']
  · -- the longer part is as long as the ratio says, and the other comes on top
    rw [max_eq_right hmoves]
    have hlonger : ratio * keep ≤ ratio * move := mul_le_mul_of_nonneg_left hmoves hratio.le
    constructor
    · intro hle
      linarith
    · intro hle
      linarith

end Offload

end Library
