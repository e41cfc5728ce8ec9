import Mathlib.Data.List.DropRight
import Mathlib.Tactic.Common

/-!
# Runs of a state machine

A machine takes a state and an input to the next state. A run is a list of inputs; an
invariant holds throughout it if it holds of every state reached. Most invariants are kept
only by steps that meet a condition, so the induction is over runs that meet it all along.
-/

namespace Library

universe u v

variable {S : Type u} {I : Type v} (step : S → I → S)

/-- Every state of a run satisfies `P`, the first and the last included. -/
def Throughout (P : S → Prop) : S → List I → Prop
  | s, [] => P s
  | s, i :: is => P s ∧ Throughout P (step s i) is

/-- Every step of a run meets `C`, a condition on the state before it and the input. -/
def Along (C : S → I → Prop) : S → List I → Prop
  | _, [] => True
  | s, i :: is => C s i ∧ Along C (step s i) is

variable {step} {P : S → Prop} {C : S → I → Prop} {s : S} {is : List I}

theorem Throughout.head (h : Throughout step P s is) : P s := by
  cases is with
  | nil => exact h
  | cons i is => exact h.1

theorem Throughout.last (h : Throughout step P s is) : P (is.foldl step s) := by
  induction is generalizing s with
  | nil => exact h
  | cons i is ih => exact ih h.2

theorem Throughout.imp {P' : S → Prop} (hP : ∀ s, P s → P' s) (h : Throughout step P s is) :
    Throughout step P' s is := by
  induction is generalizing s with
  | nil => exact hP s h
  | cons i is ih => exact ⟨hP s h.1, ih h.2⟩

theorem along_true (is : List I) : Along step (fun _ _ => True) s is := by
  induction is generalizing s with
  | nil => exact trivial
  | cons i is ih => exact ⟨trivial, ih⟩

/-- A condition that follows from another one while an invariant holds. -/
theorem Along.imp_of_invariant {D : S → I → Prop} {J : S → Prop}
    (hinv : ∀ s i, J s → C s i → J (step s i)) (himp : ∀ s i, J s → C s i → D s i) (hJ : J s)
    (h : Along step C s is) : Along step D s is := by
  induction is generalizing s with
  | nil => exact trivial
  | cons i is ih => exact ⟨himp s i hJ h.1, ih (hinv s i hJ h.1) h.2⟩

/-- **The induction over runs**: what every step that meets `C` preserves holds throughout
a run of such steps. -/
theorem throughout_of_along (hstep : ∀ s i, P s → C s i → P (step s i)) (h0 : P s)
    (h : Along step C s is) : Throughout step P s is := by
  induction is generalizing s with
  | nil => exact h0
  | cons i is ih => exact ⟨h0, ih (hstep s i h0 h.1) h.2⟩

/-- What every step preserves holds after every run. -/
theorem foldl_of_step (hstep : ∀ s i, P s → P (step s i)) (h0 : P s) : P (is.foldl step s) :=
  (throughout_of_along (C := fun _ _ => True) (fun s i hs _ => hstep s i hs) h0
    (along_true is)).last

/-- Let some inputs refresh a copy of an observed value, and let the others leave the copy
alone. After a run the copy is the value that was observed when the last of them had been
made. -/
theorem copy_foldl {V : Type*} {source copy : S → V} (refreshes : I → Bool)
    (hrefresh : ∀ s i, refreshes i = true → copy (step s i) = source (step s i))
    (hkeep : ∀ s i, refreshes i = false → copy (step s i) = copy s) (h0 : copy s = source s) :
    copy (is.foldl step s) = source ((is.rdropWhile fun i => !refreshes i).foldl step s) := by
  induction is using List.reverseRecOn with
  | nil => exact h0
  | append_singleton is i ih =>
    rw [List.foldl_append, List.rdropWhile_concat]
    cases hi : refreshes i with
    | true => simp [hrefresh _ i hi]
    | false => simp [hkeep _ i hi, ih]

/-- Let an invariant `J` hold of all states. If of these, the steps that meet `C` are those
that keep `P`, then `P` holds throughout exactly the runs that meet `C` all along. -/
theorem throughout_iff_along_of_invariant {J : S → Prop} (hinv : ∀ s i, J s → J (step s i))
    (hstep : ∀ s i, J s → P s → (P (step s i) ↔ C s i)) (hJ : J s) (h0 : P s) :
    Throughout step P s is ↔ Along step C s is := by
  induction is generalizing s with
  | nil => exact iff_of_true h0 trivial
  | cons i is ih =>
    refine ⟨?_, ?_⟩
    · intro h
      have hnext : P (step s i) := h.2.head
      exact ⟨(hstep s i hJ h0).mp hnext, (ih (hinv s i hJ) hnext).mp h.2⟩
    · intro h
      have hnext : P (step s i) := (hstep s i hJ h0).mpr h.1
      exact ⟨h0, (ih (hinv s i hJ) hnext).mpr h.2⟩

/-- Without an invariant: the steps that meet `C` are those that keep `P`. -/
theorem throughout_iff_along (hstep : ∀ s i, P s → (P (step s i) ↔ C s i)) (h0 : P s) :
    Throughout step P s is ↔ Along step C s is :=
  throughout_iff_along_of_invariant (J := fun _ => True) (fun _ _ _ => trivial)
    (fun s i _ => hstep s i) trivial h0

end Library
