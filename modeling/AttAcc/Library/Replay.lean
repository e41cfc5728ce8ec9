import Mathlib.Logic.Function.Iterate
import Mathlib.Tactic.Common

/-!
# Timed actions

A machine that ticks, and on which actions are done at some times. What has been done is a list
of actions with their times, the newest first, and the state follows from it (`replay`). A list is
legal if every action was allowed in the state in which it was done.

An action may keep others from being allowed for a while. Where a countdown of the machine sees to
this, legal lists keep the distance (`Legal.spaced`).
-/

namespace Library

universe u v

variable {S : Type u} {A : Type v} (tick : S → S) (act : S → A → S) (allowed : S → A → Prop)

/-- The state at a time, from what has been done. -/
def replay (s : S) : List (ℕ × A) → ℕ → S
  | [], clk => tick^[clk] s
  | (t, a) :: older, clk => tick^[clk - t] (act (replay s older t) a)

/-- Every action was allowed. -/
def Legal (s : S) : List (ℕ × A) → Prop
  | [] => True
  | (t, a) :: older =>
    ((∀ p ∈ older, p.1 ≤ t) ∧ allowed (replay tick act s older t) a) ∧ Legal s older

/-- A countdown that keeps some actions a number of ticks behind others. -/
structure Countdown (first second : A → Prop) (n : ℕ) where
  left : S → ℕ
  start : ∀ s a, first a → n ≤ left (act s a)
  act_le : ∀ s a, left s ≤ left (act s a)
  tick_le : ∀ s, left s ≤ left (tick s) + 1
  allowed : ∀ s a, allowed s a → second a → left s = 0

variable {tick act allowed} {s : S} {older newer log : List (ℕ × A)} {t clk : ℕ} {a : A}

@[simp]
theorem replay_self :
    replay tick act s ((t, a) :: older) t = act (replay tick act s older t) a := by
  rw [replay, Nat.sub_self, Function.iterate_zero_apply]

/-- A tick, after all that has been done. -/
theorem replay_succ (h : ∀ p ∈ log, p.1 ≤ clk) :
    replay tick act s log (clk + 1) = tick (replay tick act s log clk) := by
  cases log with
  | nil => exact Function.iterate_succ_apply' _ _ _
  | cons p older =>
    have hle : p.1 ≤ clk := h p List.mem_cons_self
    rw [replay, replay, Nat.succ_sub hle, Function.iterate_succ_apply']

/-- A part of a legal list. -/
theorem Legal.of_append (h : Legal tick act allowed s (newer ++ older)) :
    Legal tick act allowed s older := by
  induction newer with
  | nil => exact h
  | cons p newer ih => exact ih h.2

/-- Every action of a legal list was allowed. -/
theorem Legal.allowed_of_append (h : Legal tick act allowed s (newer ++ (t, a) :: older)) :
    allowed (replay tick act s older t) a := h.of_append.1.2

namespace Countdown

variable {first second : A → Prop} {n : ℕ} (c : Countdown tick act allowed first second n)
include c

theorem le_iterate (k : ℕ) (s : S) : c.left s ≤ c.left (tick^[k] s) + k := by
  induction k with
  | zero => exact Nat.le_refl _
  | succ k ih =>
    rw [Function.iterate_succ_apply']
    have htick := c.tick_le (tick^[k] s)
    omega

/-- The countdown has not run out yet. -/
theorem le_left (h : Legal tick act allowed s log) (hclk : ∀ p ∈ log, p.1 ≤ clk)
    (ha : (t, a) ∈ log) (hfirst : first a) :
    t + n ≤ clk + c.left (replay tick act s log clk) := by
  induction log generalizing clk with
  | nil => cases ha
  | cons p older ih =>
    obtain ⟨t', a'⟩ := p
    obtain ⟨⟨holder, -⟩, hlegal⟩ := h
    have hle : t' ≤ clk := hclk (t', a') List.mem_cons_self
    have hticks := c.le_iterate (clk - t') (act (replay tick act s older t') a')
    rw [replay]
    rcases List.mem_cons.mp ha with heq | ha
    · obtain ⟨rfl, rfl⟩ := Prod.mk.inj heq
      have hstart := c.start (replay tick act s older t) a hfirst
      omega
    · have hbefore := ih hlegal holder ha
      have hact := c.act_le (replay tick act s older t') a'
      omega

/-- A countdown between fewer actions. -/
def imp {first' second' : A → Prop} (hfirst : ∀ a, first' a → first a)
    (hsecond : ∀ a, second' a → second a) : Countdown tick act allowed first' second' n where
  left := c.left
  start s a ha := c.start s a (hfirst a ha)
  act_le := c.act_le
  tick_le := c.tick_le
  allowed s a hallowed ha := c.allowed s a hallowed (hsecond a ha)

end Countdown

/-- **Legal lists keep the distance of a countdown.** -/
theorem Legal.spaced {first second : A → Prop} {n : ℕ}
    (c : Countdown tick act allowed first second n) {t' : ℕ} {a' : A}
    (h : Legal tick act allowed s (newer ++ (t', a') :: older)) (ha : (t, a) ∈ older)
    (hfirst : first a) (hsecond : second a') : t + n ≤ t' := by
  obtain ⟨⟨holder, hallowed⟩, hlegal⟩ := h.of_append
  have hleft := c.le_left hlegal holder ha hfirst
  rw [c.allowed _ _ hallowed hsecond] at hleft
  exact hleft

/-- **Actions that are kept apart take their time.** -/
theorem Legal.countP_mul_le {p : A → Bool} {n : ℕ}
    (c : Countdown tick act allowed (fun a => p a = true) (fun a => p a = true) n)
    (h : Legal tick act allowed s log) (hclk : ∀ q ∈ log, p q.2 = true → q.1 ≤ clk) :
    log.countP (fun q => p q.2) * n ≤ clk + n := by
  induction log generalizing clk with
  | nil => simp
  | cons q older ih =>
    obtain ⟨t, a⟩ := q
    by_cases ha : p a = true
    · have ht : t ≤ clk := hclk (t, a) List.mem_cons_self ha
      have hlast : Legal tick act allowed s ([] ++ (t, a) :: older) := h
      have hspaced : ∀ q ∈ older, p q.2 = true → q.1 + n ≤ t :=
        fun q hq hp => hlast.spaced c hq hp ha
      have hcount : ((t, a) :: older).countP (fun q => p q.2) = older.countP (fun q => p q.2) + 1 :=
        List.countP_cons_of_pos ha
      rw [hcount, Nat.succ_mul]
      refine Nat.add_le_add_right ?_ n
      rcases Nat.eq_zero_or_pos (older.countP fun q => p q.2) with hnone | hsome
      · rw [hnone, Nat.zero_mul]
        exact Nat.zero_le _
      · -- There is time for the distance to the one before.
        obtain ⟨q, hq, hp⟩ := List.countP_pos_iff.mp hsome
        have hbefore : older.countP (fun q => p q.2) * n ≤ t - n + n :=
          ih h.2 fun q hq hp => Nat.le_sub_of_add_le (hspaced q hq hp)
        have hroom := hspaced q hq hp
        omega
    · have hcount : ((t, a) :: older).countP (fun q => p q.2) = older.countP (fun q => p q.2) :=
        List.countP_cons_of_neg ha
      rw [hcount]
      exact ih h.2 fun q hq hp => hclk q (List.mem_cons_of_mem _ hq) hp

end Library
