import Mathlib.Data.Nat.Init
import Mathlib.Tactic.Ring

/-!
# Numerals

Reading back a number that was printed in some base, from 2 to 16. A reader takes digits as
long as they come. So it gives back the number from its numeral, whatever follows that is no
digit, and zeros in front do not matter.
-/

namespace Library

/-- The value of a digit, of either case. -/
def digitOf (c : Char) : Option ℕ :=
  if '0' ≤ c ∧ c ≤ '9' then some (c.toNat - '0'.toNat)
  else if 'a' ≤ c ∧ c ≤ 'f' then some (c.toNat - 'a'.toNat + 10)
  else if 'A' ≤ c ∧ c ≤ 'F' then some (c.toNat - 'A'.toNat + 10)
  else none

/-- The value of a digit in a base. -/
def digitIn (base : ℕ) (c : Char) : Option ℕ := (digitOf c).filter fun d => decide (d < base)

/-- Digits are read into an accumulator. What is left starts with no digit. -/
def readDigits (base : ℕ) : ℕ → List Char → ℕ × List Char
  | acc, [] => (acc, [])
  | acc, c :: cs =>
    match digitIn base c with
    | some d => readDigits base (acc * base + d) cs
    | none => (acc, c :: cs)

/-- Zeros that fill a numeral up to a width. -/
def padZeros (width : ℕ) (cs : List Char) : List Char :=
  List.replicate (width - cs.length) '0' ++ cs

theorem digitOf_digitChar : ∀ d < 16, digitOf d.digitChar = some d := by decide

theorem digitIn_digitChar {base d : ℕ} (hbase : base ≤ 16) (h : d < base) :
    digitIn base d.digitChar = some d := by
  rw [digitIn, digitOf_digitChar d (by omega), Option.filter_some, if_pos (decide_eq_true h)]

@[simp] theorem readDigits_nil (base acc : ℕ) : readDigits base acc [] = (acc, []) := rfl

theorem readDigits_cons {base d : ℕ} {c : Char} (h : digitIn base c = some d) (acc : ℕ)
    (cs : List Char) : readDigits base acc (c :: cs) = readDigits base (acc * base + d) cs := by
  rw [readDigits, h]

/-- The digits of a number are read into the accumulator. -/
theorem readDigits_toDigits {base : ℕ} (hone : 1 < base) (hbase : base ≤ 16) (n acc : ℕ)
    (rest : List Char) :
    readDigits base acc (Nat.toDigits base n ++ rest) =
      readDigits base (acc * base ^ (Nat.toDigits base n).length + n) rest := by
  induction n using Nat.strong_induction_on generalizing rest with
  | _ n ih =>
    rcases Nat.lt_or_ge n base with hlt | hge
    · have hdigit := digitIn_digitChar hbase hlt
      rw [Nat.toDigits_of_lt_base hlt, List.singleton_append, readDigits_cons hdigit]
      simp
    · have hmod := digitIn_digitChar hbase (Nat.mod_lt n (by omega : 0 < base))
      have hdiv := ih (n / base) (Nat.div_lt_self (by omega) hone)
      rw [Nat.toDigits_of_base_le hone hge, List.append_assoc, hdiv, List.singleton_append,
        readDigits_cons hmod, List.length_append, List.length_singleton]
      have hsplit := Nat.div_add_mod n base
      have hvalue : (acc * base ^ (Nat.toDigits base (n / base)).length + n / base) * base +
          n % base = acc * base ^ ((Nat.toDigits base (n / base)).length + 1) + n := by
        calc _ = acc * base ^ ((Nat.toDigits base (n / base)).length + 1) +
              (base * (n / base) + n % base) := by ring
          _ = _ := by rw [hsplit]
      rw [hvalue]

theorem readDigits_zeros {base : ℕ} (hone : 1 < base) (k : ℕ) (cs : List Char) :
    readDigits base 0 (List.replicate k '0' ++ cs) = readDigits base 0 cs := by
  have hzero : digitIn base '0' = some 0 := by
    rw [digitIn, show digitOf '0' = some 0 from rfl, Option.filter_some,
      if_pos (decide_eq_true (by omega))]
  induction k with
  | zero => rfl
  | succ k ih =>
    rw [List.replicate_succ, List.cons_append, readDigits_cons hzero, Nat.zero_mul]
    exact ih

/-- **A numeral reads back**, with zeros in front. -/
theorem readDigits_padZeros {base : ℕ} (hone : 1 < base) (hbase : base ≤ 16) (width n : ℕ) :
    readDigits base 0 (padZeros width (Nat.toDigits base n)) = (n, []) := by
  have h := readDigits_toDigits hone hbase n 0 []
  rw [List.append_nil, Nat.zero_mul, Nat.zero_add] at h
  rw [padZeros, readDigits_zeros hone, h, readDigits_nil]

/-- Every character of a numeral is a digit. -/
theorem digit_of_mem_toDigits {base : ℕ} (hone : 1 < base) {n : ℕ} {c : Char}
    (hc : c ∈ Nat.toDigits base n) : ∃ d < base, c = d.digitChar := by
  induction n using Nat.strong_induction_on with
  | _ n ih =>
    rcases Nat.lt_or_ge n base with hlt | hge
    · rw [Nat.toDigits_of_lt_base hlt] at hc
      exact ⟨n, hlt, List.mem_singleton.mp hc⟩
    · rw [Nat.toDigits_of_base_le hone hge] at hc
      rcases List.mem_append.mp hc with hc | hc
      · exact ih (n / base) (Nat.div_lt_self (by omega) hone) hc
      · exact ⟨n % base, Nat.mod_lt n (by omega), List.mem_singleton.mp hc⟩

theorem digit_of_mem_padZeros {base : ℕ} (hone : 1 < base) {width n : ℕ} {c : Char}
    (hc : c ∈ padZeros width (Nat.toDigits base n)) : ∃ d < base, c = d.digitChar := by
  rcases List.mem_append.mp hc with hc | hc
  · exact ⟨0, by omega, (List.mem_replicate.mp hc).2⟩
  · exact digit_of_mem_toDigits hone hc

end Library
