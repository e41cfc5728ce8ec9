import Mathlib.Algebra.BigOperators.Group.List.Basic
import Mathlib.Algebra.Order.BigOperators.Group.List
import Mathlib.Tactic.Common

/-!
# Buckets

A breakdown of a total: every item has a value and adds it to some buckets. A bucket is the
sum of other buckets when every item that adds to it adds to exactly one of them, and no
other item adds to any (`collect_eq_sum`). A bucket is at most another one when the items
that add to the first add to the second, and what else the second holds is not negative
(`collect_le`).
-/

namespace Library

universe u v w

variable {α : Type u} {K : Type v} {M : Type w} [DecidableEq K]
  (buckets : α → List K) (value : α → M)

/-- What the items put into a bucket. -/
def collect [AddCommMonoid M] (items : List α) (key : K) : M :=
  ((items.filter fun a => key ∈ buckets a).map value).sum

/-- A bucket is split into `parts` by an item: the item adds to exactly one of them if it
adds to the bucket, and to none otherwise. -/
def Splits (parts : List K) (key : K) (a : α) : Prop :=
  parts.countP (fun part => decide (part ∈ buckets a)) = if key ∈ buckets a then 1 else 0

instance (parts : List K) (key : K) (a : α) : Decidable (Splits buckets parts key a) :=
  inferInstanceAs (Decidable (_ = _))

variable {buckets value} {items : List α} {key : K}

section Sum

variable [AddCommMonoid M]

theorem collect_cons (a : α) (items : List α) (key : K) :
    collect buckets value (a :: items) key =
      (if key ∈ buckets a then value a else 0) + collect buckets value items key := by
  unfold collect
  by_cases h : key ∈ buckets a
  · simp [h]
  · simp [h]

/-- What one item adds to several buckets. -/
theorem sum_ite_mem (parts : List K) (a : α) :
    (parts.map fun part => if part ∈ buckets a then value a else 0).sum =
      parts.countP (fun part => decide (part ∈ buckets a)) • value a := by
  induction parts with
  | nil => simp
  | cons part parts ih =>
    rw [List.map_cons, List.sum_cons, ih, List.countP_cons]
    by_cases h : part ∈ buckets a
    · simp [h, succ_nsmul']
    · simp [h]

/-- **A bucket that every item splits** is the sum of its parts. -/
theorem collect_eq_sum {parts : List K} (h : ∀ a ∈ items, Splits buckets parts key a) :
    collect buckets value items key = (parts.map (collect buckets value items)).sum := by
  induction items with
  | nil =>
    have hparts : parts.map (collect buckets value []) = parts.map fun _ => 0 := rfl
    rw [hparts, List.sum_map_zero]
    rfl
  | cons a items ih =>
    obtain ⟨ha, hitems⟩ := List.forall_mem_cons.mp h
    have hparts : (parts.map (collect buckets value (a :: items))).sum =
        (parts.map fun part => if part ∈ buckets a then value a else 0).sum +
          (parts.map (collect buckets value items)).sum := by
      rw [← List.sum_map_add]
      exact congrArg List.sum (List.map_congr_left fun part _ => collect_cons a items part)
    rw [hparts, sum_ite_mem, ha, collect_cons, ih hitems]
    split_ifs
    · rw [one_nsmul]
    · rw [zero_nsmul]

end Sum

/-- A bucket that is filled with more than another one. -/
theorem collect_le [AddCommMonoid M] [PartialOrder M] [IsOrderedAddMonoid M] {key' : K}
    (h : ∀ a ∈ items, key ∈ buckets a → key' ∈ buckets a)
    (hrest : ∀ a ∈ items, key' ∈ buckets a → key ∉ buckets a → 0 ≤ value a) :
    collect buckets value items key ≤ collect buckets value items key' := by
  induction items with
  | nil => exact le_refl _
  | cons a items ih =>
    obtain ⟨ha, hitems⟩ := List.forall_mem_cons.mp h
    obtain ⟨hrest, hrests⟩ := List.forall_mem_cons.mp hrest
    rw [collect_cons, collect_cons]
    refine add_le_add ?_ (ih hitems hrests)
    by_cases hkey : key ∈ buckets a
    · rw [if_pos hkey, if_pos (ha hkey)]
    · rw [if_neg hkey]
      split_ifs with hkey'
      · exact hrest hkey' hkey
      · exact le_refl 0

end Library
