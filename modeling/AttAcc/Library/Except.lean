import Mathlib.Data.List.Forall2
import Mathlib.Algebra.BigOperators.Group.List.Basic

/-!
# Computations that may raise

Inversion rules for `Except`: what a computation that returned must have done. `bind`
returns when both parts do, `mapM` when every element does, and a property that every
step of a `foldlM` keeps holds of its result.
-/

namespace Library

universe u v w w'

variable {ε : Type u} {α : Type v} {β γ : Type w}

/-- A sequence returns when its first part returns and the rest returns from there. -/
theorem bind_ok_iff {m : Except ε β} {k : β → Except ε γ} {r : γ} :
    m >>= k = .ok r ↔ ∃ v, m = .ok v ∧ k v = .ok r := by
  rcases m with e | v
  · simp [bind, Except.bind]
  · simp [bind, Except.bind]

/-- `mapM` returns the list of results, element by element. -/
theorem mapM_ok_iff {f : α → Except ε β} {as : List α} {bs : List β} :
    as.mapM f = .ok bs ↔ List.Forall₂ (fun a b => f a = .ok b) as bs := by
  induction as generalizing bs with
  | nil =>
    rw [List.mapM_nil, List.forall₂_nil_left_iff]
    refine ⟨?_, ?_⟩
    · intro h
      exact (Except.ok.inj h).symm
    · rintro rfl
      rfl
  | cons a as ih =>
    rw [List.mapM_cons, bind_ok_iff, List.forall₂_cons_left_iff]
    refine ⟨?_, ?_⟩
    · rintro ⟨b, hb, h⟩
      obtain ⟨bs', hbs', h⟩ := bind_ok_iff.mp h
      exact ⟨b, bs', hb, ih.mp hbs', (Except.ok.inj h).symm⟩
    · rintro ⟨b, bs', hb, hbs', rfl⟩
      exact ⟨b, hb, bind_ok_iff.mpr ⟨bs', ih.mpr hbs', rfl⟩⟩

/-- `mapM` returns when every element does. -/
theorem exists_mapM_ok {f : α → Except ε β} {as : List α} (h : ∀ a ∈ as, ∃ b, f a = .ok b) :
    ∃ bs, as.mapM f = .ok bs := by
  induction as with
  | nil => exact ⟨[], rfl⟩
  | cons a as ih =>
    obtain ⟨⟨b, hb⟩, has⟩ := List.forall_mem_cons.mp h
    obtain ⟨bs, hbs⟩ := ih has
    rw [List.mapM_cons]
    exact ⟨b :: bs, bind_ok_iff.mpr ⟨b, hb, bind_ok_iff.mpr ⟨bs, hbs, rfl⟩⟩⟩

/-- A computation that only looks at a projection of its elements runs the same on lists
with the same projections. -/
theorem mapM_congr_of_map_eq {γ' : Type w} {g : α → γ'} {f : α → Except ε β}
    (hf : ∀ {a a'}, g a = g a' → f a = f a') {as as' : List α} (h : as.map g = as'.map g) :
    as.mapM f = as'.mapM f := by
  induction as generalizing as' with
  | nil =>
    obtain rfl := List.map_eq_nil_iff.mp h.symm
    rfl
  | cons a as ih =>
    obtain ⟨a', bs, rfl, ha, hbs⟩ := List.map_eq_cons_iff.mp h.symm
    rw [List.mapM_cons, List.mapM_cons, hf ha.symm, ih hbs.symm]

/-- A function of the final result can be pushed through a sequence, where the rest agrees. -/
theorem bind_map_map {β' γ' : Type w'} {m : Except ε β} {f : β → β'} {h : γ → γ'}
    {k : β → Except ε γ} {k' : β' → Except ε γ'} (hk : ∀ b, k' (f b) = (k b).map h) :
    m.map f >>= k' = (m >>= k).map h := by
  rcases m with e | b
  · rfl
  · exact hk b

/-- What is done to every result of a `mapM` can be done afterwards. -/
theorem mapM_map_result {β' : Type w'} {f : α → Except ε β} {h : β → β'} {as : List α} :
    (as.mapM fun a => (f a).map h) = (as.mapM f).map (List.map h) := by
  induction as with
  | nil => rfl
  | cons a as ih =>
    rw [List.mapM_cons, List.mapM_cons, ih]
    rcases f a with e | b
    · rfl
    · rcases as.mapM f with e | bs
      · rfl
      · rfl

/-- When every element that returns returns what `g` gives, `mapM` returns the map of `g`. -/
theorem eq_map_of_mapM {f : α → Except ε β} {g : α → β} {as : List α} {bs : List β}
    (hg : ∀ a ∈ as, ∀ b, f a = .ok b → b = g a) (h : as.mapM f = .ok bs) : bs = as.map g := by
  rw [mapM_ok_iff] at h
  induction h with
  | nil => rfl
  | @cons a b as bs hab _ ih =>
    obtain ⟨ha, has⟩ := List.forall_mem_cons.mp hg
    rw [ha b hab, ih has, List.map_cons]

/-- Every result of a `mapM` is the result of an element. -/
theorem exists_of_mem_mapM {f : α → Except ε β} {as : List α} {bs : List β}
    (h : as.mapM f = .ok bs) : ∀ b ∈ bs, ∃ a ∈ as, f a = .ok b := by
  rw [mapM_ok_iff] at h
  induction h with
  | nil => exact fun b hb => absurd hb List.not_mem_nil
  | @cons a b as bs hab _ ih =>
    intro c hc
    rcases List.mem_cons.mp hc with rfl | hc
    · exact ⟨a, List.mem_cons_self, hab⟩
    · obtain ⟨a', ha', h⟩ := ih c hc
      exact ⟨a', List.mem_cons_of_mem _ ha', h⟩

/-- The fold rule: what holds at the start and is kept by every step that returns holds
of the result. -/
theorem foldlM_ok_induction {f : β → α → Except ε β} {P : β → Prop}
    (hstep : ∀ {b a b'}, P b → f b a = .ok b' → P b') {as : List α} {b b' : β} (hb : P b)
    (h : as.foldlM f b = .ok b') : P b' := by
  induction as generalizing b with
  | nil =>
    obtain rfl := Except.ok.inj h
    exact hb
  | cons a as ih =>
    rw [List.foldlM_cons] at h
    obtain ⟨b₁, hb₁, h⟩ := bind_ok_iff.mp h
    exact ih (hstep hb hb₁) h

/-- The fold returns when every step does, from where the invariant holds. -/
theorem exists_foldlM_ok {f : β → α → Except ε β} {P : β → Prop} {as : List α}
    (hstep : ∀ b, P b → ∀ a ∈ as, ∃ b', f b a = .ok b' ∧ P b') {b : β} (hb : P b) :
    ∃ b', as.foldlM f b = .ok b' ∧ P b' := by
  induction as generalizing b with
  | nil => exact ⟨b, rfl, hb⟩
  | cons a as ih =>
    obtain ⟨b₁, hb₁, hP₁⟩ := hstep b hb a List.mem_cons_self
    obtain ⟨b', hb', hP'⟩ := ih (fun b hb a ha => hstep b hb a (List.mem_cons_of_mem _ ha)) hP₁
    exact ⟨b', bind_ok_iff.mpr ⟨b₁, hb₁, hb'⟩, hP'⟩

/-- Computations that return the same values have the same `toOption`. -/
theorem toOption_eq_of_ok_iff {m m' : Except ε β} (h : ∀ r, m = .ok r ↔ m' = .ok r) :
    m.toOption = m'.toOption := by
  rcases m with e | r
  · rcases m' with e' | r'
    · rfl
    · exact absurd ((h r').mpr rfl) nofun
  · rw [(h r).mp rfl]

/-- Folds whose steps return the same values return the same values. -/
theorem foldlM_ok_congr {f g : β → α → Except ε β} {as : List α}
    (h : ∀ b, ∀ a ∈ as, ∀ r, f b a = .ok r ↔ g b a = .ok r) (b r : β) :
    as.foldlM f b = .ok r ↔ as.foldlM g b = .ok r := by
  induction as generalizing b with
  | nil => exact Iff.rfl
  | cons a as ih =>
    have hrest := fun b => ih (fun b a' ha' => h b a' (List.mem_cons_of_mem a ha')) b
    simp only [List.foldlM_cons, bind_ok_iff, h b a List.mem_cons_self, hrest]

/-! ### Sums of computations

A loop that adds up what its elements yield returns exactly when they all do, and then
returns the sum: neither depends on the order of the elements. -/

section Sums

variable {M : Type w} [AddCommMonoid M]

/-- The value of a computation, zero if it raises. -/
def valueOf (m : Except ε M) : M :=
  match m with
  | .ok r => r
  | .error _ => 0

@[simp] theorem valueOf_ok (r : M) : valueOf (.ok r : Except ε M) = r := rfl

/-- A loop over elements that all yield something returns the sum. -/
theorem foldlM_add_of_ok {m : α → Except ε M} {value : α → M} {as : List α}
    (h : ∀ a ∈ as, m a = .ok (value a)) (start : M) :
    as.foldlM (fun acc a => m a >>= fun r => .ok (acc + r)) start =
      .ok (start + (as.map value).sum) := by
  induction as generalizing start with
  | nil =>
    rw [List.map_nil, List.sum_nil, add_zero]
    rfl
  | cons a as ih =>
    obtain ⟨ha, has⟩ := List.forall_mem_cons.mp h
    rw [List.foldlM_cons, ha, List.map_cons, List.sum_cons, ← add_assoc]
    exact ih has (start + value a)

end Sums

end Library
