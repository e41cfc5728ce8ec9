import Mathlib.Data.List.Infix

/-!
# The calls of a computation

A computation that may raise, over a function it is given, can be run on a function that notes its
arguments. Such a run returns what it returns without the notes, and the notes are its calls, in
order (`Calls`). A raise keeps the notes made so far.
-/

namespace Library

universe u

variable {ε α β γ ι : Type u}

/-- A computation that may raise, next to notes. -/
abbrev Noting (ε α : Type u) := ExceptT ε (StateM (List α))

/-- A function that notes what it is called for. -/
def noting (f : α → Except ε β) (a : α) : Noting ε α β := do
  modify fun calls => calls ++ [a]
  ofExcept (f a)

/-- A computation that returns `r`, or raises it, after the calls `asked`. -/
def Calls (x : Noting ε α β) (r : Except ε β) (asked : List α) : Prop :=
  ∀ before, x.run.run before = (r, before ++ asked)

theorem calls_pure (b : β) : Calls (pure b : Noting ε α β) (.ok b) [] := by
  intro before
  rw [List.append_nil]
  rfl

theorem calls_ofExcept (r : Except ε β) : Calls (ofExcept r : Noting ε α β) r [] := by
  intro before
  rw [List.append_nil]
  cases r with
  | ok b => rfl
  | error e => rfl

/-- The function is called once. -/
theorem calls_noting (f : α → Except ε β) (a : α) : Calls (noting f a) (f a) [a] := by
  intro before
  rw [noting]
  cases f a with
  | ok b => rfl
  | error e => rfl

theorem Calls.bind_ok {x : Noting ε α β} {k : β → Noting ε α γ} {b : β} {r : Except ε γ}
    {asked asked' : List α} (hx : Calls x (.ok b) asked) (hk : Calls (k b) r asked') :
    Calls (x >>= k) r (asked ++ asked') := by
  intro before
  rw [ExceptT.run_bind, StateT.run_bind, hx before, ← List.append_assoc]
  exact hk (before ++ asked)

/-- A raise ends the computation. -/
theorem Calls.bind_error {x : Noting ε α β} {e : ε} {asked : List α}
    (hx : Calls x (.error e) asked) (k : β → Noting ε α γ) : Calls (x >>= k) (.error e) asked := by
  intro before
  rw [ExceptT.run_bind, StateT.run_bind, hx before]
  rfl

/-- What makes no calls can follow. -/
theorem Calls.bind {x : Noting ε α β} {k : β → Noting ε α γ} {s : β → Except ε γ}
    {r : Except ε β} {asked : List α} (hx : Calls x r asked) (hk : ∀ b, Calls (k b) (s b) []) :
    Calls (x >>= k) (r >>= s) asked := by
  cases r with
  | ok b => exact asked.append_nil ▸ hx.bind_ok (hk b)
  | error e => exact hx.bind_error k

/-- A computation for every item that makes one call makes the calls in order. Without a raise it
makes all of them, and a raise is that of the last. -/
theorem exists_calls_mapM {x : ι → Noting ε α γ} {y : ι → Except ε γ} {g : ι → α}
    (hx : ∀ i, Calls (x i) (y i) [g i]) (is : List ι) :
    ∃ asked, Calls (is.mapM x) (is.mapM y) asked ∧ asked <+: is.map g ∧
      (∀ cs, is.mapM y = .ok cs → asked = is.map g) ∧
      ∀ e, is.mapM y = .error e → ∃ i ∈ is, g i ∈ asked ∧ y i = .error e := by
  induction is with
  | nil => exact ⟨[], calls_pure [], List.nil_prefix, fun _ _ => rfl, nofun⟩
  | cons i is ih =>
    obtain ⟨asked, hcalls, hprefix, hok, herror⟩ := ih
    have hi := hx i
    rw [List.mapM_cons, List.mapM_cons, List.map_cons]
    cases hy : y i with
    | error e =>
      rw [hy] at hi
      refine ⟨[g i], hi.bind_error _, ?_, nofun, ?_⟩
      · exact List.prefix_append [g i] (is.map g)
      · intro e' he'
        obtain rfl := Except.error.inj he'
        exact ⟨i, List.mem_cons_self, List.mem_singleton_self _, hy⟩
    | ok c =>
      rw [hy] at hi
      refine ⟨g i :: asked, hi.bind_ok (hcalls.bind fun cs => calls_pure (c :: cs)), ?_, ?_, ?_⟩
      · exact (List.prefix_cons_inj (g i)).mpr hprefix
      · intro cs hcs
        cases hrest : is.mapM y with
        | ok cs' => rw [hok cs' hrest]
        | error e =>
          rw [hrest] at hcs
          cases hcs
      · intro e he
        cases hrest : is.mapM y with
        | ok cs' =>
          rw [hrest] at he
          cases he
        | error e' =>
          rw [hrest] at he
          obtain rfl := Except.error.inj he
          obtain ⟨j, hj, hasked, hraise⟩ := herror e' hrest
          exact ⟨j, List.mem_cons_of_mem i hj, List.mem_cons_of_mem _ hasked, hraise⟩

end Library
