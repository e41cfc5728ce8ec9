import Mathlib.Data.List.MinMax
import Mathlib.Data.List.Perm.Basic
import AttAcc.Library.Except

/-!
# Loops that keep the least

A loop that compares each element with the best one so far, and replaces that one only by
a strictly better one, ends with the first element of least value: the `argmin` of what it
has gone through. How the loop stores its best element, and what it stores before there is
one, is up to the loop. It says so by a relation between its state and an optional element,
and the loop rules (`foldl_argmin`, `foldlM_argmin`) turn a lemma about one round into the
`argmin` of all of them.
-/

namespace Library

universe u v w

variable {α : Type u} {β : Type v} [LinearOrder β]

/-- One round: the element replaces the best one so far if its value is less. -/
def keepLeast (f : α → β) (best : Option α) (a : α) : Option α :=
  match best with
  | none => some a
  | some b => if f a < f b then some a else some b

@[simp] theorem keepLeast_none (f : α → β) (a : α) : keepLeast f none a = some a := rfl

@[simp] theorem keepLeast_some (f : α → β) (a b : α) :
    keepLeast f (some b) a = if f a < f b then some a else some b := rfl

theorem argmin_concat_eq_keepLeast (f : α → β) (as : List α) (a : α) :
    (as ++ [a]).argmin f = keepLeast f (as.argmin f) a := by
  rw [List.argmin_concat]
  rcases as.argmin f with _ | b
  · rfl
  · rfl

section Loops

variable {σ : Type w} (f : α → β) (Rep : σ → Option α → Prop)

/-- **The rule for loops.** A state that stands for the best element so far, and does so
again after a round, stands for the first least element in the end. -/
theorem foldl_argmin {step : σ → α → σ} {as : List α}
    (hstep : ∀ {s best}, Rep s best → ∀ a ∈ as, Rep (step s a) (keepLeast f best a)) {start : σ}
    (hstart : Rep start none) : Rep (as.foldl step start) (as.argmin f) := by
  induction as using List.reverseRecOn with
  | nil => exact hstart
  | append_singleton as a ih =>
    have hfront := ih fun hs b hb => hstep hs b (List.mem_append_left _ hb)
    rw [List.foldl_append, argmin_concat_eq_keepLeast]
    exact hstep hfront a (List.mem_append_right _ List.mem_cons_self)

/-- The same for a loop that may raise and leaves some elements out. -/
theorem foldlM_argmin {ε : Type*} {step : σ → α → Except ε σ} {p : α → Bool} {as : List α}
    (hskip : ∀ s, ∀ a ∈ as, p a = false → step s a = .ok s)
    (hstep : ∀ {s best}, Rep s best → ∀ a ∈ as, p a = true →
      ∃ s', step s a = .ok s' ∧ Rep s' (keepLeast f best a)) {start : σ}
    (hstart : Rep start none) :
    ∃ s, as.foldlM step start = .ok s ∧ Rep s ((as.filter p).argmin f) := by
  induction as using List.reverseRecOn with
  | nil => exact ⟨start, rfl, hstart⟩
  | append_singleton as a ih =>
    obtain ⟨s, hs, hrep⟩ := ih (fun s b hb => hskip s b (List.mem_append_left _ hb))
      (fun hs b hb => hstep hs b (List.mem_append_left _ hb))
    have ha : a ∈ as ++ [a] := List.mem_append_right _ List.mem_cons_self
    rw [List.foldlM_append, List.filter_append]
    cases hp : p a with
    | false =>
      refine ⟨s, bind_ok_iff.mpr ⟨s, hs, bind_ok_iff.mpr ⟨s, hskip s a ha hp, rfl⟩⟩, ?_⟩
      rw [List.filter_cons_of_neg (by simp [hp]), List.filter_nil, List.append_nil]
      exact hrep
    | true =>
      obtain ⟨s', hs', hrep'⟩ := hstep hrep a ha hp
      refine ⟨s', bind_ok_iff.mpr ⟨s, hs, bind_ok_iff.mpr ⟨s', hs', rfl⟩⟩, ?_⟩
      rw [List.filter_cons_of_pos (by simp [hp]), List.filter_nil, argmin_concat_eq_keepLeast]
      exact hrep'

end Loops

section Argmin

variable {f : α → β} {as : List α} {m : α}

/-- The first least element is one only if the list is not empty. -/
theorem exists_argmin (h : as ≠ []) : ∃ m, as.argmin f = some m := by
  rcases harg : as.argmin f with _ | m
  · exact absurd (List.argmin_eq_none.mp harg) h
  · exact ⟨m, rfl⟩

/-- An element is the first least one: it is less than what is before it, and no more than what
is behind it. -/
def FirstLeast (f : α → β) (as : List α) (m : α) : Prop :=
  ∃ front back, as = front ++ m :: back ∧ (∀ a ∈ front, f m < f a) ∧ ∀ a ∈ back, f m ≤ f a

/-- **The `argmin` is the first least element.** -/
theorem argmin_eq_some_iff_append : as.argmin f = some m ↔ FirstLeast f as m := by
  refine ⟨?_, ?_⟩
  · intro h
    induction as using List.reverseRecOn with
    | nil => cases h
    | append_singleton as a ih =>
      rw [argmin_concat_eq_keepLeast] at h
      rcases hbest : as.argmin f with _ | b
      · obtain rfl := List.argmin_eq_none.mp hbest
        rw [hbest, keepLeast_none] at h
        obtain rfl := Option.some.inj h
        exact ⟨[], [], rfl, nofun, nofun⟩
      · rw [hbest, keepLeast_some] at h
        split_ifs at h with hlt
        · -- the new element is less than the best one, so it is less than all of them
          obtain rfl := Option.some.inj h
          refine ⟨as, [], rfl, ?_, nofun⟩
          intro c hc
          exact lt_of_lt_of_le hlt (List.le_of_mem_argmin hc hbest)
        · obtain rfl := Option.some.inj h
          obtain ⟨front, back, rfl, hfront, hback⟩ := ih hbest
          refine ⟨front, back ++ [a], by simp, hfront, ?_⟩
          intro c hc
          rcases List.mem_append.mp hc with hc | hc
          · exact hback c hc
          · rw [List.mem_singleton.mp hc]
            exact not_lt.mp hlt
  · rintro ⟨front, back, rfl, hfront, hback⟩
    induction back using List.reverseRecOn with
    | nil =>
      rw [argmin_concat_eq_keepLeast]
      rcases hbest : front.argmin f with _ | b
      · rfl
      · rw [keepLeast_some, if_pos (hfront b (List.argmin_mem hbest))]
    | append_singleton back a ih =>
      have hm := ih fun c hc => hback c (List.mem_append_left _ hc)
      rw [← List.cons_append, ← List.append_assoc, argmin_concat_eq_keepLeast, hm, keepLeast_some,
        if_neg (not_lt.mpr (hback a (List.mem_append_right _ List.mem_cons_self)))]

/-- The least value does not depend on the order of the elements. -/
theorem apply_argmin_eq_of_perm {as' : List α} (hperm : as.Perm as') {m' : α}
    (h : as.argmin f = some m) (h' : as'.argmin f = some m') : f m = f m' :=
  le_antisymm (List.le_of_mem_argmin (hperm.mem_iff.mpr (List.argmin_mem h')) h)
    (List.le_of_mem_argmin (hperm.mem_iff.mp (List.argmin_mem h)) h')

end Argmin

end Library
