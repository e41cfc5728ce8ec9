import Mathlib.Data.Int.Log
import Mathlib.Data.Rat.Floor
import Mathlib.Tactic.Linarith
import Mathlib.Tactic.Positivity

/-!
# Rounding

`roundHalfEven` is the nearest integer, and `roundToBits` the nearest number that so many bits
can write. A program that computes in floats gets rounded results, and which of two of them is
less can depend on the rounding. So such a program is written over a `FloatArithmetic`, and what
is proved of it holds for every arithmetic: for the exact one (`FloatArithmetic.exact`), and for
one with the 53 bits of a double (`FloatArithmetic.double`).
-/

namespace Library

/-! ## Integers -/

/-- The nearest integer, a tie going to the even one. -/
def roundHalfEven (q : ℚ) : ℤ :=
  let below := ⌊q⌋
  let rest := q - below
  if rest < 1 / 2 then below
  else if 1 / 2 < rest then below + 1
  else if below % 2 = 0 then below
  else below + 1

theorem roundHalfEven_le (q : ℚ) : (roundHalfEven q : ℚ) ≤ q + 1 / 2 := by
  have hfloor := Int.floor_le q
  simp only [roundHalfEven]
  split_ifs <;> push_cast <;> linarith

theorem le_roundHalfEven (q : ℚ) : q - 1 / 2 ≤ roundHalfEven q := by
  have hfloor := Int.lt_floor_add_one q
  simp only [roundHalfEven]
  split_ifs <;> push_cast <;> linarith

/-! ## Bits -/

/-- The value of the last of so many bits, where the first one is not zero. -/
def lastPlace (bits : ℕ) (q : ℚ) : ℚ := 2 ^ (Int.log 2 |q| + 1 - bits)

/-- The nearest number of so many bits. The exponent is not bounded. -/
def roundToBits (bits : ℕ) (q : ℚ) : ℚ :=
  roundHalfEven (q / lastPlace bits q) * lastPlace bits q

theorem lastPlace_pos (bits : ℕ) (q : ℚ) : 0 < lastPlace bits q := zpow_pos (by norm_num) _

/-- The last place is no larger than the number. -/
theorem lastPlace_le {bits : ℕ} (hbits : 0 < bits) {q : ℚ} (hq : 0 < q) :
    lastPlace bits q ≤ q := by
  rw [lastPlace, abs_of_pos hq]
  calc (2 : ℚ) ^ (Int.log 2 q + 1 - bits) ≤ 2 ^ Int.log 2 q :=
        zpow_le_zpow_right₀ (by norm_num) (by omega)
    _ ≤ q := Int.zpow_log_le_self (by decide) hq

@[simp] theorem roundToBits_zero (bits : ℕ) : roundToBits bits 0 = 0 := by
  simp [roundToBits, roundHalfEven]

theorem roundToBits_pos {bits : ℕ} (hbits : 0 < bits) {q : ℚ} (hq : 0 < q) :
    0 < roundToBits bits q := by
  have hone : 1 ≤ q / lastPlace bits q :=
    (one_le_div (lastPlace_pos bits q)).mpr (lastPlace_le hbits hq)
  have hround := le_roundHalfEven (q / lastPlace bits q)
  exact mul_pos (by linarith) (lastPlace_pos bits q)

/-! ## Arithmetics -/

/-- What the operations of a program on floats return: the exact result rounded, but for squares,
which a library computes and may round in its own way. -/
structure FloatArithmetic where
  round : ℚ → ℚ
  square : ℚ → ℚ
  round_zero : round 0 = 0
  round_pos : ∀ {q : ℚ}, 0 < q → 0 < round q

namespace FloatArithmetic

theorem round_nonneg (f : FloatArithmetic) {q : ℚ} (hq : 0 ≤ q) : 0 ≤ f.round q := by
  rcases hq.eq_or_lt with rfl | hpos
  · exact f.round_zero.ge
  · exact (f.round_pos hpos).le

/-- Nothing is rounded. -/
def exact : FloatArithmetic where
  round q := q
  square q := q ^ 2
  round_zero := rfl
  round_pos h := h

/-- Doubles, without a bound for the exponent. -/
def double : FloatArithmetic where
  round := roundToBits 53
  square q := roundToBits 53 (q ^ 2)
  round_zero := roundToBits_zero 53
  round_pos := roundToBits_pos (by decide)

end FloatArithmetic

end Library
