import Mathlib.Data.List.Dedup

/-!
# Memo tables

A memo table is a list of entries, each a key with the value some function gave for it. It
is *sound* for the function when every entry is right. Looking a key up in a sound table
gives the function's value, whatever else the table holds and in whatever order.

A service that keeps a table answers queries one after another. When every answer is the
one a function gives, from any state that satisfies an invariant, the answers to a list of
queries are that function's, and the state can be forgotten (`answers_eq_map`).
-/

namespace Library

universe u v w

section Table

variable {ι : Type u} {κ : Type v} {β : Type w} {ε : Type*} (keyOf : ι → κ) (valueOf : ι → β)

/-- The value of the first entry with the given key. -/
def lookup [DecidableEq κ] (table : List ι) (key : κ) : Option β :=
  (table.find? fun entry => decide (keyOf entry = key)).map valueOf

/-- Every entry holds what the function gives for its key. -/
def SoundFor (f : κ → Except ε β) (table : List ι) : Prop :=
  ∀ entry ∈ table, f (keyOf entry) = .ok (valueOf entry)

variable {keyOf valueOf} {f : κ → Except ε β} {table : List ι} {key : κ} {value : β}

/-- A hit is the value of an entry with the key. -/
theorem mem_of_lookup [DecidableEq κ] (h : lookup keyOf valueOf table key = some value) :
    ∃ entry ∈ table, keyOf entry = key ∧ valueOf entry = value := by
  obtain ⟨entry, hfind, hvalue⟩ := Option.map_eq_some_iff.mp h
  have hkey : keyOf entry = key := by simpa using List.find?_some hfind
  exact ⟨entry, List.mem_of_find?_eq_some hfind, hkey, hvalue⟩

/-- A hit in a sound table is right. -/
theorem SoundFor.of_lookup [DecidableEq κ] (hsound : SoundFor keyOf valueOf f table)
    (h : lookup keyOf valueOf table key = some value) : f key = .ok value := by
  obtain ⟨entry, hmem, rfl, rfl⟩ := mem_of_lookup h
  exact hsound entry hmem

/-- An entry makes its key a hit. -/
theorem exists_lookup [DecidableEq κ] {entry : ι} (hmem : entry ∈ table) :
    ∃ value, lookup keyOf valueOf table (keyOf entry) = some value := by
  rcases hfind : table.find? fun e => decide (keyOf e = keyOf entry) with _ | found
  · exact absurd (decide_eq_true rfl) (List.find?_eq_none.mp hfind entry hmem)
  · exact ⟨valueOf found, by rw [lookup, hfind, Option.map_some]⟩

theorem soundFor_nil : SoundFor keyOf valueOf f [] :=
  fun _ hmem => absurd hmem List.not_mem_nil

/-- A new entry that is right keeps the table sound, and so does dropping duplicates. -/
theorem SoundFor.append_eraseDups [BEq ι] [LawfulBEq ι] (hsound : SoundFor keyOf valueOf f table)
    {entry : ι} (hentry : f (keyOf entry) = .ok (valueOf entry)) :
    SoundFor keyOf valueOf f (table ++ [entry]).eraseDups := by
  intro e hmem
  rcases List.mem_append.mp (List.mem_eraseDups.mp hmem) with hold | hnew
  · exact hsound e hold
  · rw [List.mem_singleton.mp hnew]
    exact hentry

end Table

section Service

variable {σ : Type u} {α : Type v} {β : Type w}

/-- The answers of a stateful service to a list of queries. -/
def answers (step : σ → α → β × σ) : σ → List α → List β
  | _, [] => []
  | s, a :: as => (step s a).1 :: answers step (step s a).2 as

/-- **A service whose answers do not depend on its state is a function.** The invariant
carries the induction over the queries. -/
theorem answers_eq_map {step : σ → α → β × σ} {I : σ → Prop} {f : α → β} {as : List α}
    (hstep : ∀ s, I s → ∀ a ∈ as, (step s a).1 = f a ∧ I (step s a).2) {s : σ} (hs : I s) :
    answers step s as = as.map f := by
  induction as generalizing s with
  | nil => rfl
  | cons a as ih =>
    obtain ⟨hanswer, hinv⟩ := hstep s hs a List.mem_cons_self
    have hrest := ih (fun s hs a' ha' => hstep s hs a' (List.mem_cons_of_mem a ha')) hinv
    rw [answers, hanswer, hrest, List.map_cons]

/-- Conversely, when the answers are a function's, each query was answered as by the function in
some state that satisfies the invariant. -/
theorem exists_of_answers_eq_map {step : σ → α → β × σ} {I : σ → Prop} {f : α → β} {as : List α}
    (hstep : ∀ s, I s → ∀ a ∈ as, I (step s a).2) {s : σ} (hs : I s)
    (h : answers step s as = as.map f) : ∀ a ∈ as, ∃ s, I s ∧ (step s a).1 = f a := by
  induction as generalizing s with
  | nil => exact fun a ha => absurd ha List.not_mem_nil
  | cons a as ih =>
    obtain ⟨hanswer, hrest⟩ := List.cons.inj h
    refine List.forall_mem_cons.mpr ⟨⟨s, hs, hanswer⟩, ?_⟩
    exact ih (fun s hs a' ha' => hstep s hs a' (List.mem_cons_of_mem a ha'))
      (hstep s hs a List.mem_cons_self) hrest

/-- Queries that are answered right in every state, and leave it as it is, do not matter. -/
theorem answers_eq_map_filter_iff {step : σ → α → β × σ} {f : α → β} {p : α → Bool}
    (hskip : ∀ s a, p a = false → step s a = (f a, s)) {s : σ} {as : List α} :
    answers step s as = as.map f ↔ answers step s (as.filter p) = (as.filter p).map f := by
  induction as generalizing s with
  | nil => exact Iff.rfl
  | cons a as ih =>
    rcases ha : p a with _ | _
    · rw [List.filter_cons_of_neg (by simp [ha]), answers, List.map_cons, hskip s a ha, ← ih,
        List.cons.injEq]
      exact and_iff_right rfl
    · rw [List.filter_cons_of_pos ha, answers, answers, List.map_cons, List.map_cons,
        List.cons.injEq, List.cons.injEq, ih]

end Service

end Library
