import Mathlib.Data.List.Forall2
import Mathlib.Data.List.Count
import Mathlib.Data.List.Infix
import Mathlib.Data.List.Nodup
import Mathlib.Algebra.GroupWithZero.Nat

/-!
# Lists, element by element

General facts about lists that are related element by element, or lie in one another.
-/

namespace Library

universe u v

section

variable {α : Type u} {R : α → α → Prop}

/-- A transitive relation is transitive element by element. -/
theorem forall₂_trans (hR : ∀ {a b c}, R a b → R b c → R a c) {as bs cs : List α}
    (h : List.Forall₂ R as bs) (h' : List.Forall₂ R bs cs) : List.Forall₂ R as cs := by
  induction h generalizing cs with
  | nil => exact h'
  | cons hab _ ih =>
    obtain ⟨c, cs, hbc, hbcs, rfl⟩ := List.forall₂_cons_left_iff.mp h'
    exact .cons (hR hab hbc) (ih hbcs)

end

variable {α : Type u} {β : Type v} {R : α → β → Prop}

/-- A list has a counterpart exactly when each of its elements has one. -/
theorem exists_forall₂_iff {as : List α} :
    (∃ bs, List.Forall₂ R as bs) ↔ ∀ a ∈ as, ∃ b, R a b := by
  induction as with
  | nil => exact ⟨fun _ a ha => absurd ha List.not_mem_nil, fun _ => ⟨[], .nil⟩⟩
  | cons a as ih =>
    rw [List.forall_mem_cons, ← ih]
    refine ⟨?_, ?_⟩
    · rintro ⟨_, h⟩
      obtain ⟨b, bs, hb, hbs, rfl⟩ := List.forall₂_cons_left_iff.mp h
      exact ⟨⟨b, hb⟩, bs, hbs⟩
    · rintro ⟨⟨b, hb⟩, bs, hbs⟩
      exact ⟨b :: bs, .cons hb hbs⟩

/-- Every element of the second list is the counterpart of one of the first. -/
theorem exists_of_forall₂_right {as : List α} {bs : List β} (h : List.Forall₂ R as bs) {b : β}
    (hb : b ∈ bs) : ∃ a ∈ as, R a b := by
  induction h with
  | nil => exact absurd hb List.not_mem_nil
  | @cons a b' as bs hab _ ih =>
    rcases List.mem_cons.mp hb with rfl | hb
    · exact ⟨a, List.mem_cons_self, hab⟩
    · obtain ⟨a', ha', h⟩ := ih hb
      exact ⟨a', List.mem_cons_of_mem _ ha', h⟩

/-- Lists whose elements have the same image, element by element, have the same images. -/
theorem map_eq_map_of_forall₂ {γ : Type*} {f : α → γ} {g : β → γ} {as : List α} {bs : List β}
    (h : List.Forall₂ R as bs) (hR : ∀ {a b}, R a b → g b = f a) : bs.map g = as.map f := by
  induction h with
  | nil => rfl
  | cons hab _ ih => rw [List.map_cons, List.map_cons, hR hab, ih]

/-- A list of two values, sorted by value. -/
theorem map_ite_perm (p : α → Bool) (x y : β) (as : List α) :
    (as.map fun a => if p a then x else y).Perm
      (List.replicate (as.countP p) x ++ List.replicate (as.length - as.countP p) y) := by
  induction as with
  | nil => exact .refl _
  | cons a as ih =>
    have hle : as.countP p ≤ as.length := List.countP_le_length
    cases ha : p a with
    | true =>
      rw [List.map_cons, if_pos ha, List.countP_cons_of_pos ha, List.replicate_succ,
        List.cons_append, List.length_cons, Nat.add_sub_add_right]
      exact ih.cons x
    | false =>
      have hlength : as.length + 1 - as.countP p = as.length - as.countP p + 1 := by omega
      rw [List.map_cons, if_neg (by simp [ha]), List.countP_cons_of_neg (by simp [ha]),
        List.length_cons, hlength, List.replicate_succ]
      exact (ih.cons y).trans List.perm_middle.symm

/-- Modifying the element at the end. -/
theorem modify_concat (f : α → α) (as : List α) (a : α) :
    (as ++ [a]).modify as.length f = as ++ [f a] := by
  induction as with
  | nil => rfl
  | cons b as ih =>
    rw [List.cons_append, List.length_cons, List.modify_succ_cons, ih]
    rfl

/-! ### Numbered lists -/

/-- Elements that tell their index are distinct. -/
theorem nodup_mapIdx {f : ℕ → α → β} (indexOf : β → ℕ) (h : ∀ i a, indexOf (f i a) = i)
    (as : List α) : (as.mapIdx f).Nodup := by
  refine List.pairwise_iff_getElem.mpr ?_
  intro i j hi hj hij heq
  rw [List.getElem_mapIdx, List.getElem_mapIdx] at heq
  have hindex := congrArg indexOf heq
  rw [h, h] at hindex
  omega

/-- The same for lists of lists, whose elements tell the index of their list. -/
theorem nodup_flatten_mapIdx {f : ℕ → α → List β} (indexOf : β → ℕ)
    (h : ∀ i a, ∀ b ∈ f i a, indexOf b = i) (hnodup : ∀ i a, (f i a).Nodup) (as : List α) :
    (as.mapIdx f).flatten.Nodup := by
  refine List.nodup_flatten.mpr ⟨?_, ?_⟩
  · intro bs hbs
    obtain ⟨i, hi, rfl⟩ := List.mem_mapIdx.mp hbs
    exact hnodup _ _
  · refine List.pairwise_iff_getElem.mpr ?_
    intro i j hi hj hij
    rw [List.getElem_mapIdx, List.getElem_mapIdx]
    intro b hbi hbj
    have hindex := (h _ _ b hbi).symm.trans (h _ _ b hbj)
    omega

/-! ### Windows -/

/-- Windows of `k` elements, one after the other, make up the list. -/
theorem flatMap_window (as : List α) (n k : ℕ) :
    ((List.range n).flatMap fun j => (as.drop (j * k)).take k) = as.take (n * k) := by
  induction n with
  | zero => simp
  | succ n ih =>
    rw [List.range_succ, List.flatMap_append, ih, List.flatMap_singleton, Nat.succ_mul,
      List.take_add]

/-- Enough of them make up the whole list. -/
theorem flatMap_window_of_length_le {as : List α} {n k : ℕ} (h : as.length ≤ n * k) :
    ((List.range n).flatMap fun j => (as.drop (j * k)).take k) = as := by
  rw [flatMap_window, List.take_of_length_le h]

/-- Fewer of them do not. -/
theorem flatMap_window_eq_iff {as : List α} {n k : ℕ} :
    ((List.range n).flatMap fun j => (as.drop (j * k)).take k) = as ↔ as.length ≤ n * k := by
  rw [flatMap_window, List.take_eq_self_iff]

theorem flatMap_nil (as : List α) : (as.flatMap fun _ => ([] : List β)) = [] :=
  List.flatMap_eq_nil_iff.mpr fun _ _ => rfl

/-- The first `n` lists, one after the other. -/
theorem flatMap_getD (lists : List (List α)) (n : ℕ) :
    ((List.range n).flatMap fun j => lists.getD j []) = (lists.take n).flatten := by
  induction n with
  | zero => rfl
  | succ n ih =>
    rw [List.range_succ, List.flatMap_append, ih, List.flatMap_singleton, List.take_add_one,
      List.flatten_append, List.getD_eq_getElem?_getD]
    rcases lists[n]? with _ | as
    · rfl
    · simp

/-! ### Counting -/

/-- A sum of ones and zeros counts the ones. -/
theorem sum_map_ite_one (p : α → Bool) (as : List α) :
    (as.map fun a => if p a then 1 else 0).sum = as.countP p := by
  induction as with
  | nil => rfl
  | cons a as ih =>
    rw [List.map_cons, List.sum_cons, ih, List.countP_cons, Nat.add_comm]

/-- A sum over a range, two terms at a time, and the last one if their number is odd. -/
theorem sum_range_pairs (f : ℕ → ℕ) (n : ℕ) :
    ((List.range (n / 2)).map fun p => f (2 * p) + f (2 * p + 1)).sum +
        (if n % 2 ≠ 0 then f (n - 1) else 0) = ((List.range n).map f).sum := by
  have heven : ∀ k, ((List.range k).map fun p => f (2 * p) + f (2 * p + 1)).sum =
      ((List.range (2 * k)).map f).sum := by
    intro k
    induction k with
    | zero => rfl
    | succ k ih =>
      have hdouble : 2 * (k + 1) = 2 * k + 1 + 1 := by omega
      rw [hdouble, List.range_succ (n := k), List.range_succ (n := 2 * k + 1),
        List.range_succ (n := 2 * k)]
      simp only [List.map_append, List.sum_append, ih]
      simp [Nat.add_assoc]
  rw [heven]
  by_cases hodd : n % 2 ≠ 0
  · have hn : n = 2 * (n / 2) + 1 := by omega
    have hlast : n - 1 = 2 * (n / 2) := by omega
    rw [if_pos hodd, hlast]
    nth_rewrite 3 [hn]
    rw [List.range_succ, List.map_append, List.sum_append]
    simp
  · have hn : 2 * (n / 2) = n := by omega
    rw [if_neg hodd, Nat.add_zero, hn]

/-- In a list that is a duplicate-free part and others, every element of the part occurs
once. -/
theorem count_eq_one_of_perm [BEq α] [LawfulBEq α] {out part rest : List α} {a : α}
    (hperm : out.Perm (part ++ rest)) (hnodup : part.Nodup) (hmem : a ∈ part) (hrest : a ∉ rest) :
    out.count a = 1 := by
  rw [hperm.count_eq, List.count_append, List.count_eq_zero_of_not_mem hrest,
    List.count_eq_one_of_mem hnodup hmem]

/-- What lies in a list and has no element of its extension, lies in front of it. -/
theorem infix_append_iff {key name suffix : List α} (hne : key ≠ [])
    (h : ∀ c ∈ key, c ∉ suffix) : key <:+: name ++ suffix ↔ key <:+: name := by
  refine ⟨?_, fun hkey => hkey.trans (List.prefix_append name suffix).isInfix⟩
  rintro ⟨front, back, hsplit⟩
  have hpre : front ++ key <+: name ++ suffix := ⟨back, hsplit⟩
  rcases List.prefix_or_prefix_of_prefix hpre (List.prefix_append name suffix) with
    hin | ⟨rest, hrest⟩
  · exact (List.suffix_append front key).isInfix.trans hin.isInfix
  · rcases hlast : rest.getLast? with _ | c
    · rw [List.getLast?_eq_none_iff.mp hlast, List.append_nil] at hrest
      rw [hrest]
      exact (List.suffix_append front key).isInfix
    · -- the end of the key lies in the suffix
      have hkey : key.getLast? = some c := by
        have hend := congrArg List.getLast? hrest
        rw [List.getLast?_append, List.getLast?_append, hlast, Option.some_or] at hend
        rcases hgetLast : key.getLast? with _ | d
        · exact absurd (List.getLast?_eq_none_iff.mp hgetLast) hne
        · rw [hgetLast] at hend
          exact hend.symm
      rw [← hrest] at hpre
      have hrestSuffix := (List.prefix_append_right_inj name).mp hpre
      exact absurd (hrestSuffix.subset (List.mem_of_getLast? hlast))
        (h c (List.mem_of_getLast? hkey))

end Library
