import AttAcc.Library.Runs

/-!
# Components of a machine

A machine may be made of others, which take their own steps: a step of the whole is no step, one
step or several steps of a component. Where the runs of the whole are followed component by
component (`RunsTo`), what every step of a component preserves holds of it in the whole
(`RunsTo.keeps`).
-/

namespace Library

universe u v

variable {S : Type u} {I : Type v} {step : S → I → S}

/-- Some inputs lead from a state to another. -/
def RunsTo (step : S → I → S) (s s' : S) : Prop := ∃ is : List I, is.foldl step s = s'

namespace RunsTo

variable {s s' s'' : S}

theorem refl (s : S) : RunsTo step s s := ⟨[], rfl⟩

theorem single {i : I} (h : step s i = s') : RunsTo step s s' := ⟨[i], h⟩

theorem trans (h : RunsTo step s s') (h' : RunsTo step s' s'') : RunsTo step s s'' := by
  obtain ⟨is, rfl⟩ := h
  obtain ⟨is', rfl⟩ := h'
  exact ⟨is ++ is', List.foldl_append⟩

/-- What every step preserves. -/
theorem keeps (h : RunsTo step s s') {P : S → Prop} (hstep : ∀ s i, P s → P (step s i))
    (h0 : P s) : P s' := by
  obtain ⟨is, rfl⟩ := h
  exact foldl_of_step hstep h0

end RunsTo

end Library
