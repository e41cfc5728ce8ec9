import Mathlib.Algebra.BigOperators.Group.Finset.Basic
import Mathlib.Algebra.Order.BigOperators.Group.Finset
import Mathlib.Tactic.Linarith

/-!
# The demand of a queue on row buffers

Requests of a queue fall into classes. Each class has a row buffer, which is closed or holds a row,
and a request can be finished when its row is held. What the first request of a class still needs,
an activation or a precharge before it, is counted (`need`); the sum over the classes is the demand
of the queue. A command for the first request of a class lowers it by one, whatever requests of
other classes do.

A backlog that is worked off while new work arrives in rounds comes to an end if a round is less
than what is worked off until the next one (`countdown_lt`).
-/

namespace Library

universe u v

/-! ## Demand -/

section

variable {α : Type u} {κ : Type v} {ρ : Type*} [DecidableEq κ] [DecidableEq ρ]

/-- How many commands a request for a row needs first. -/
def missing (opened : Option ρ) (row : ρ) : ℕ :=
  match opened with
  | none => 1
  | some r => if r = row then 0 else 2

variable (classOf : α → Option κ) (row : α → ρ)

/-- The first request of a class. -/
def firstOf (k : κ) (queue : List α) : Option α := queue.find? fun x => decide (classOf x = some k)

/-- What the first request of a class needs. -/
def need (opened : κ → Option ρ) (queue : List α) (k : κ) : ℕ :=
  (firstOf classOf k queue).elim 0 fun x => missing (opened k) (row x)

/-- The demand of a queue. -/
def demand (classes : Finset κ) (opened : κ → Option ρ) (queue : List α) : ℕ :=
  ∑ k ∈ classes, need classOf row opened queue k

variable {classOf row} {classes : Finset κ} {opened opened' : κ → Option ρ} {queue : List α} {x : α}
  {k : κ}

/-- Where every row buffer is closed, a class needs at most an activation. -/
theorem demand_le_card (h : ∀ k ∈ classes, opened k = none) :
    demand classOf row classes opened queue ≤ classes.card := by
  rw [Finset.card_eq_sum_ones]
  refine Finset.sum_le_sum fun k hk => ?_
  rw [need, h k hk]
  cases firstOf classOf k queue with
  | none => exact Nat.zero_le 1
  | some x => exact le_refl 1

/-- **A command for the first request of a class lowers the demand** if it lowers what this one
misses and leaves the other classes alone. -/
theorem demand_lt (hk : k ∈ classes) (hfirst : firstOf classOf k queue = some x)
    (hsame : ∀ k' ∈ classes, k' ≠ k → opened' k' = opened k')
    (hless : missing (opened' k) (row x) < missing (opened k) (row x)) :
    demand classOf row classes opened' queue < demand classOf row classes opened queue := by
  refine Finset.sum_lt_sum (fun k' hk' => ?_) ⟨k, hk, ?_⟩
  · rcases eq_or_ne k' k with rfl | hne
    · rw [need, need, hfirst]
      exact hless.le
    · rw [need, need, hsame k' hk' hne]
  · rw [need, need, hfirst]
    exact hless

end

/-! ## Backlogs -/

/-- A ranking for a backlog and the time since the last round, where a round brings `round`. -/
def countdown (round backlog elapsed : ℕ) : ℕ := (round + 2) * backlog + (round + 1) * elapsed

/-- **The ranking goes down** with every unit of time, also when a round arrives. -/
theorem countdown_lt {round interval backlog backlog' elapsed elapsed' : ℕ}
    (hround : round < interval) (hpos : 0 < backlog)
    (h : elapsed' = elapsed + 1 ∧ backlog' ≤ backlog - 1 ∨
      elapsed + 1 = interval ∧ elapsed' = 0 ∧ backlog' ≤ backlog - 1 + round) :
    countdown round backlog' elapsed' < countdown round backlog elapsed := by
  obtain ⟨b, rfl⟩ : ∃ b, backlog = b + 1 := ⟨backlog - 1, (Nat.succ_pred_eq_of_pos hpos).symm⟩
  rw [Nat.add_sub_cancel] at h
  rw [countdown, countdown]
  rcases h with ⟨rfl, hle⟩ | ⟨hlast, rfl, hle⟩
  · have hbacklog : (round + 2) * backlog' ≤ (round + 2) * b := Nat.mul_le_mul_left _ hle
    linarith
  · -- what arrives is less than what was worked off since the last round
    have hbacklog : (round + 2) * backlog' ≤ (round + 2) * (b + round) := Nat.mul_le_mul_left _ hle
    have helapsed : (round + 1) * round ≤ (round + 1) * elapsed :=
      Nat.mul_le_mul_left _ (by omega)
    linarith

/-- A loop that stops behind its body, up to a number of turns. -/
def loopUntil {S : Type u} (body : S → S) (stop : S → Bool) : ℕ → S → S
  | 0, s => s
  | turns + 1, s => if stop (body s) then body s else loopUntil body stop turns (body s)

section

variable {S : Type u} {body : S → S} {stop : S → Bool} {s : S}

@[simp]
theorem loopUntil_one : loopUntil body stop 1 s = body s := by
  simp only [loopUntil, ite_self]

theorem loopUntil_succ {turns : ℕ} (h : ¬stop (body s) = true) :
    loopUntil body stop (turns + 1) s = loopUntil body stop turns (body s) := if_neg h

/-- **A loop reaches its end** if every turn reaches it or lowers a ranking, and the loop does not
stop before. -/
theorem exists_loopUntil {β : Type v} [LT β] [WellFoundedLT β] {rank : S → β} {P Q : S → Prop}
    (hstop : ∀ s, P s → stop s = true → Q s)
    (hstep : ∀ s, P s → ¬Q s → Q (body s) ∨ P (body s) ∧ rank (body s) < rank s)
    (hs : P s) (hnot : ¬Q s) : ∃ turns, Q (loopUntil body stop turns s) := by
  induction hrank : rank s using WellFoundedLT.induction generalizing s with
  | ind b ih =>
    subst hrank
    rcases hstep s hs hnot with hQ | ⟨hP, hlt⟩
    · exact ⟨1, by simpa using hQ⟩
    · by_cases hQ : Q (body s)
      · exact ⟨1, by simpa using hQ⟩
      · obtain ⟨turns, hturns⟩ := ih _ hlt hP hQ rfl
        refine ⟨turns + 1, ?_⟩
        rw [loopUntil_succ fun hstops => hQ (hstop _ hP hstops)]
        exact hturns

end

end Library
