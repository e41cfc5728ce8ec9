import Mathlib.Algebra.BigOperators.Group.List.Basic
import Mathlib.Algebra.Order.Ring.Int
import Mathlib.Data.Set.Function
import Mathlib.Tactic.Common
import Mathlib.Tactic.Ring

/-!
# Mixed radix

Numbers in a positional system where every position has a radix of its own. Positions are
named, and an order lists them from the least significant on. Reading the digits of a number
at its positions and adding up digits are inverse, whatever the order.
-/

namespace Library

variable {ι : Type*} (radix : ι → ℤ)

/-- The number with some digits: each is worth the radices of the positions before it. -/
def place (digits : ι → ℤ) : List ι → ℤ
  | [] => 0
  | i :: order => digits i + radix i * place digits order

/-- How many numbers there are. -/
def span (order : List ι) : ℤ := (order.map radix).prod

section

variable [DecidableEq ι]

/-- The digits of a number, written over what was at their positions. -/
def digitsAt : List ι → ℤ → (ι → ℤ) → ι → ℤ
  | [], _, old => old
  | i :: order, n, old => digitsAt order (n / radix i) (Function.update old i (n % radix i))

end

/-- Every digit is below its radix. -/
def Digits (digits : ι → ℤ) : Prop := ∀ i, 0 ≤ digits i ∧ digits i < radix i

variable {radix} {order : List ι} {digits old : ι → ℤ} {n : ℤ}

@[simp] theorem span_nil : span radix [] = 1 := rfl

@[simp] theorem span_cons (i : ι) (order : List ι) :
    span radix (i :: order) = radix i * span radix order := by
  rw [span, List.map_cons, List.prod_cons, span]

theorem span_perm {order' : List ι} (h : order.Perm order') :
    span radix order = span radix order' := (h.map radix).prod_eq

theorem place_nonneg (order : List ι) (h : Digits radix digits) :
    0 ≤ place radix digits order := by
  induction order with
  | nil => exact le_refl 0
  | cons i order ih =>
    have hradix : 0 ≤ radix i := (h i).1.trans (h i).2.le
    exact add_nonneg (h i).1 (mul_nonneg hradix ih)

theorem place_lt_span (order : List ι) (h : Digits radix digits) :
    place radix digits order < span radix order := by
  induction order with
  | nil => exact Int.zero_lt_one
  | cons i order ih =>
    have hradix : 0 ≤ radix i := (h i).1.trans (h i).2.le
    rw [place, span_cons]
    have hdigit := (h i).2
    calc digits i + radix i * place radix digits order
        < radix i + radix i * place radix digits order := by omega
      _ = radix i * (place radix digits order + 1) := by ring
      _ ≤ radix i * span radix order := mul_le_mul_of_nonneg_left ih hradix

section

variable [DecidableEq ι]

/-- Only listed positions are written. -/
theorem digitsAt_of_not_mem {i : ι} (hi : i ∉ order) (n : ℤ) (old : ι → ℤ) :
    digitsAt radix order n old i = old i := by
  induction order generalizing n old with
  | nil => rfl
  | cons j order ih =>
    have hne : i ≠ j := List.ne_of_not_mem_cons hi
    rw [digitsAt, ih (List.not_mem_of_not_mem_cons hi), Function.update_of_ne hne]

/-- The first position holds the lowest digit. -/
theorem digitsAt_head {i : ι} (hi : i ∉ order) (n : ℤ) (old : ι → ℤ) :
    digitsAt radix (i :: order) n old i = n % radix i := by
  rw [digitsAt, digitsAt_of_not_mem hi, Function.update_self]

/-- The digit at a position, by the positions before it. -/
theorem digitsAt_append_cons (hradix : ∀ i, 0 < radix i) {i : ι} {p q : List ι} (hi : i ∉ q)
    (n : ℤ) (old : ι → ℤ) :
    digitsAt radix (p ++ i :: q) n old i = n / span radix p % radix i := by
  induction p generalizing n old with
  | nil => rw [List.nil_append, digitsAt_head hi, span_nil, Int.ediv_one]
  | cons j p ih =>
    rw [List.cons_append, digitsAt, ih, span_cons, Int.ediv_ediv_of_nonneg (hradix j).le]

theorem digitsAt_bounds (hradix : ∀ i, 0 < radix i) (hnodup : order.Nodup) {i : ι} (hi : i ∈ order)
    (n : ℤ) (old : ι → ℤ) :
    0 ≤ digitsAt radix order n old i ∧ digitsAt radix order n old i < radix i := by
  induction order generalizing n old with
  | nil => exact absurd hi List.not_mem_nil
  | cons j order ih =>
    obtain ⟨hj, hnodup⟩ := List.nodup_cons.mp hnodup
    rcases List.mem_cons.mp hi with rfl | hi
    · rw [digitsAt_head hj]
      exact ⟨Int.emod_nonneg n (hradix i).ne', Int.emod_lt_of_pos n (hradix i)⟩
    · exact ih hnodup hi _ _

/-- The digits of a number make it up. -/
theorem place_digitsAt (hradix : ∀ i, 0 < radix i) (hnodup : order.Nodup) (hn : 0 ≤ n)
    (hlt : n < span radix order) (old : ι → ℤ) :
    place radix (digitsAt radix order n old) order = n := by
  induction order generalizing n old with
  | nil =>
    rw [span_nil] at hlt
    exact (le_antisymm (Int.lt_add_one_iff.mp hlt) hn).symm
  | cons i order ih =>
    obtain ⟨hi, hnodup⟩ := List.nodup_cons.mp hnodup
    rw [span_cons] at hlt
    have hrest := ih hnodup (Int.ediv_nonneg hn (hradix i).le)
      (Int.ediv_lt_of_lt_mul (hradix i) (by rwa [mul_comm] at hlt))
      (Function.update old i (n % radix i))
    rw [place, digitsAt_head hi, digitsAt, hrest]
    exact Int.emod_add_mul_ediv n (radix i)

/-- The number that digits make up has these digits. -/
theorem digitsAt_place (h : Digits radix digits) (hnodup : order.Nodup) {i : ι} (hi : i ∈ order)
    (old : ι → ℤ) : digitsAt radix order (place radix digits order) old i = digits i := by
  induction order generalizing old with
  | nil => exact absurd hi List.not_mem_nil
  | cons j order ih =>
    obtain ⟨hj, hnodup⟩ := List.nodup_cons.mp hnodup
    have hmod : (digits j + radix j * place radix digits order) % radix j = digits j := by
      rw [Int.add_mul_emod_self_left, Int.emod_eq_of_lt (h j).1 (h j).2]
    have hdiv : (digits j + radix j * place radix digits order) / radix j =
        place radix digits order := by
      have hradix : radix j ≠ 0 := ((h j).1.trans_lt (h j).2).ne'
      rw [Int.add_mul_ediv_left _ _ hradix, Int.ediv_eq_zero_of_lt (h j).1 (h j).2, zero_add]
    rcases List.mem_cons.mp hi with rfl | hi
    · rw [digitsAt_head hj, place, hmod]
    · rw [digitsAt, place, hdiv]
      exact ih hnodup hi _

/-- **Positional systems are bijections**, if an order lists every position once. -/
theorem bijOn_digitsAt (hradix : ∀ i, 0 < radix i) (hnodup : order.Nodup)
    (hall : ∀ i, i ∈ order) (old : ι → ℤ) :
    Set.BijOn (fun n => digitsAt radix order n old) {n | 0 ≤ n ∧ n < span radix order}
      {digits | Digits radix digits} := by
  have hinv : Set.InvOn (fun digits => place radix digits order)
      (fun n => digitsAt radix order n old) {n | 0 ≤ n ∧ n < span radix order}
      {digits | Digits radix digits} := by
    refine ⟨?_, ?_⟩
    · rintro n ⟨hn, hlt⟩
      exact place_digitsAt hradix hnodup hn hlt old
    · intro digits hdigits
      funext i
      exact digitsAt_place hdigits hnodup (hall i) old
  refine hinv.bijOn ?_ ?_
  · intro n _ i
    exact digitsAt_bounds hradix hnodup (hall i) n old
  · intro digits hdigits
    exact ⟨place_nonneg _ hdigits, place_lt_span _ hdigits⟩

end

end Library
