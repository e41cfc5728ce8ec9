import Mathlib.Data.List.Infix
import Mathlib.Tactic.Common

/-!
# Fences in a list

A list of commands in which a fence, itself a list of commands, is inserted now and then.
Between a producer and a consumer there should be a fence: `Fenced` says so of a relation,
`Followed` of everything that produces, `Preceded` of everything that consumes. All three can
be shown part by part.
-/

namespace Library

universe u

variable {α : Type u} {fence l l₁ l₂ : List α} {X : α → Prop} {R S : α → α → Prop}

/-- An element of two lists, one after the other, is in the first or in the second. -/
theorem append_eq_append_cons {p q : List α} {x : α} (h : l₁ ++ l₂ = p ++ x :: q) :
    (∃ q', l₁ = p ++ x :: q' ∧ q = q' ++ l₂) ∨ ∃ p', p = l₁ ++ p' ∧ l₂ = p' ++ x :: q := by
  rcases List.append_eq_append_iff.mp h with ⟨p', hp, hl₂⟩ | ⟨tail, hl₁, htail⟩
  · exact .inr ⟨p', hp, hl₂⟩
  · cases tail with
    | nil =>
      rw [List.append_nil] at hl₁
      exact .inr ⟨[], by rw [hl₁, List.append_nil], htail.symm⟩
    | cons y tail =>
      obtain ⟨rfl, rfl⟩ := List.cons.inj htail
      exact .inl ⟨tail, hl₁, rfl⟩

/-- A list is split at each of its elements. -/
theorem exists_split {i : ℕ} {x : α} (h : l[i]? = some x) :
    ∃ p q, l = p ++ x :: q ∧ p.length = i := by
  obtain ⟨hlt, rfl⟩ := List.getElem?_eq_some_iff.mp h
  refine ⟨l.take i, l.drop (i + 1), ?_, List.length_take_of_le hlt.le⟩
  rw [List.getElem_cons_drop, List.take_append_drop]

/-! ## What is followed by a fence -/

/-- Every `X` of a list is followed by a fence. -/
def Followed (fence : List α) (X : α → Prop) (l : List α) : Prop :=
  ∀ p x q, l = p ++ x :: q → X x → fence <:+: q

theorem followed_of_forall_not (h : ∀ x ∈ l, ¬X x) : Followed fence X l := by
  rintro p x q rfl hx
  exact absurd hx (h x (List.mem_append_right _ List.mem_cons_self))

theorem Followed.mono {Y : α → Prop} (h : Followed fence X l) (hXY : ∀ x ∈ l, Y x → X x) :
    Followed fence Y l := by
  rintro p x q rfl hx
  exact h p x q rfl (hXY x (List.mem_append_right _ List.mem_cons_self) hx)

theorem Followed.append (h₁ : Followed fence X l₁) (h₂ : Followed fence X l₂) :
    Followed fence X (l₁ ++ l₂) := by
  intro p x q hsplit hx
  rcases append_eq_append_cons hsplit with ⟨q', hl₁, rfl⟩ | ⟨p', -, hl₂⟩
  · exact (h₁ p x q' hl₁ hx).trans (List.prefix_append q' l₂).isInfix
  · exact h₂ p' x q hl₂ hx

/-- Everything in front of a fence is followed by it. -/
theorem followed_append_fence (hfence : ∀ x ∈ fence, ¬X x) : Followed fence X (l ++ fence) := by
  intro p x q hsplit hx
  rcases append_eq_append_cons hsplit with ⟨q', -, rfl⟩ | ⟨p', -, hfence'⟩
  · exact (List.suffix_append q' fence).isInfix
  · refine absurd hx (hfence x ?_)
    rw [hfence']
    exact List.mem_append_right _ List.mem_cons_self

theorem followed_flatMap {ι : Type*} {f : ι → List α} {is : List ι}
    (h : ∀ i ∈ is, Followed fence X (f i)) : Followed fence X (is.flatMap f) := by
  induction is with
  | nil => exact followed_of_forall_not fun x hx => absurd hx List.not_mem_nil
  | cons i is ih =>
    obtain ⟨hi, his⟩ := List.forall_mem_cons.mp h
    rw [List.flatMap_cons]
    exact hi.append (ih his)

/-! ## What is fenced off -/

/-- Between related elements of a list there is a fence. -/
def Fenced (fence : List α) (R : α → α → Prop) (l : List α) : Prop :=
  ∀ p x q y r, l = p ++ x :: (q ++ y :: r) → R x y → fence <:+: q

theorem fenced_of_forall_not (h : ∀ x ∈ l, ∀ y ∈ l, ¬R x y) : Fenced fence R l := by
  rintro p x q y r rfl hR
  exact absurd hR (h x (by simp) y (by simp))

/-- What has related elements in the next part is followed by a fence. -/
theorem Fenced.append (h₁ : Fenced fence R l₁) (h₂ : Fenced fence R l₂)
    (hcross : Followed fence (fun x => ∃ y ∈ l₂, R x y) l₁) : Fenced fence R (l₁ ++ l₂) := by
  intro p x q y r hsplit hR
  rcases append_eq_append_cons hsplit with ⟨q', hl₁, hq'⟩ | ⟨p', -, hl₂⟩
  · rcases append_eq_append_cons hq'.symm with ⟨r', rfl, -⟩ | ⟨q'', rfl, hl₂⟩
    · exact h₁ p x q y r' hl₁ hR
    · have hy : y ∈ l₂ := by
        rw [hl₂]
        exact List.mem_append_right _ List.mem_cons_self
      exact (hcross p x q' hl₁ ⟨y, hy, hR⟩).trans (List.prefix_append q' q'').isInfix
  · exact h₂ p' x q y r hl₂ hR

/-- Parts that are not related. -/
theorem Fenced.append_of_not (h₁ : Fenced fence R l₁) (h₂ : Fenced fence R l₂)
    (hcross : ∀ x ∈ l₁, ∀ y ∈ l₂, ¬R x y) : Fenced fence R (l₁ ++ l₂) := by
  refine h₁.append h₂ (followed_of_forall_not ?_)
  rintro x hx ⟨y, hy, hR⟩
  exact hcross x hx y hy hR

/-! ## What is preceded by a fence -/

/-- In front of an element, with a fence between, is everything it draws on. -/
def Preceded (fence : List α) (S : α → α → Prop) (l : List α) : Prop :=
  ∀ p y q, l = p ++ y :: q → ∀ x, S y x → ∃ p' q', p = p' ++ fence ++ q' ∧ x ∈ p'

theorem preceded_of_forall_not (h : ∀ y ∈ l, ∀ x, ¬S y x) : Preceded fence S l := by
  rintro p y q rfl x hS
  exact absurd hS (h y (List.mem_append_right _ List.mem_cons_self) x)

theorem Preceded.append (h₁ : Preceded fence S l₁) (h₂ : Preceded fence S l₂) :
    Preceded fence S (l₁ ++ l₂) := by
  intro p y q hsplit x hS
  rcases append_eq_append_cons hsplit with ⟨q', hl₁, -⟩ | ⟨p', rfl, hl₂⟩
  · exact h₁ p y q' hl₁ x hS
  · obtain ⟨front, back, rfl, hx⟩ := h₂ p' y q hl₂ x hS
    exact ⟨l₁ ++ front, back, by simp, List.mem_append_right _ hx⟩

/-- A part that draws on what is in front of a fence at the end of the part before. -/
theorem Preceded.append_fenced (h₁ : Preceded fence S (l ++ fence))
    (h₂ : ∀ y ∈ l₂, ∀ x, S y x → x ∈ l) : Preceded fence S (l ++ fence ++ l₂) := by
  intro p y q hsplit x hS
  rcases append_eq_append_cons hsplit with ⟨q', hl₁, -⟩ | ⟨p', rfl, hl₂⟩
  · exact h₁ p y q' hl₁ x hS
  · have hy : y ∈ l₂ := by
      rw [hl₂]
      exact List.mem_append_right _ List.mem_cons_self
    exact ⟨l, p', rfl, h₂ y hy x hS⟩

/-! ## Fences behind a front

A list begins with a front in which there is no part of a fence. Elements that are left out of the
front do not change where the fences are. -/

section Front

variable {front rest p q : List α} {keep : α → Bool}

/-- A fence is behind a front that has no part of it. -/
theorem fence_behind_front (hfence : fence ≠ []) (hfront : ∀ x ∈ fence, x ∉ front)
    (h : front ++ rest = p ++ fence ++ q) : ∃ p', p = front ++ p' ∧ rest = p' ++ fence ++ q := by
  obtain ⟨x, tail, rfl⟩ := List.exists_cons_of_ne_nil hfence
  rw [List.append_assoc, List.cons_append] at h
  rcases append_eq_append_cons h with ⟨q', rfl, -⟩ | ⟨p', rfl, hrest⟩
  · exact absurd (List.mem_append_right _ List.mem_cons_self) (hfront x List.mem_cons_self)
  · exact ⟨p', rfl, by rw [hrest, List.append_assoc, List.cons_append]⟩

theorem infix_behind_front (hfence : fence ≠ []) (hfront : ∀ x ∈ fence, x ∉ front)
    (h : fence <:+: front ++ rest) : fence <:+: rest := by
  obtain ⟨p, q, hsplit⟩ := h
  obtain ⟨p', -, hrest⟩ := fence_behind_front hfence hfront hsplit.symm
  exact ⟨p', q, hrest.symm⟩

theorem not_mem_filter (hfront : ∀ x ∈ fence, x ∉ front) : ∀ x ∈ fence, x ∉ front.filter keep :=
  fun x hx hmem => hfront x hx (List.mem_filter.mp hmem).1

/-- Whatever is left out of the front draws on nothing. -/
theorem Preceded.of_filter (hfence : fence ≠ []) (hfront : ∀ x ∈ fence, x ∉ front)
    (hkeep : ∀ y x, S y x → keep y = true) (h : Preceded fence S (front.filter keep ++ rest)) :
    Preceded fence S (front ++ rest) := by
  intro p y q hsplit x hS
  rcases append_eq_append_cons hsplit with ⟨q', rfl, -⟩ | ⟨p₁, rfl, hrest⟩
  · -- in the front there is no fence to draw on something behind it
    have hfiltered : (p ++ y :: q').filter keep ++ rest =
        p.filter keep ++ y :: (q'.filter keep ++ rest) := by
      rw [List.filter_append, List.filter_cons_of_pos (hkeep y x hS), List.append_assoc,
        List.cons_append]
    obtain ⟨front', back, hp, -⟩ := h _ y _ hfiltered x hS
    obtain ⟨z, tail, rfl⟩ := List.exists_cons_of_ne_nil hfence
    have hz : z ∈ p.filter keep := by
      rw [hp]
      simp
    exact absurd (List.mem_append_left _ (List.mem_filter.mp hz).1) (hfront z List.mem_cons_self)
  · have hfiltered : front.filter keep ++ rest = (front.filter keep ++ p₁) ++ y :: q := by
      rw [hrest, List.append_assoc]
    obtain ⟨front', back, hp, hx⟩ := h _ y q hfiltered x hS
    obtain ⟨p₂, rfl, rfl⟩ := fence_behind_front hfence (not_mem_filter hfront) hp
    refine ⟨front ++ p₂, back, by simp, ?_⟩
    rcases List.mem_append.mp hx with hx | hx
    · exact List.mem_append_left _ (List.mem_filter.mp hx).1
    · exact List.mem_append_right _ hx

/-- What is fenced off behind the front is, also from what is kept of the front. -/
theorem Fenced.of_filter (hfence : fence ≠ []) (hfront : ∀ x ∈ fence, x ∉ front)
    (hkeep : ∀ x y, R x y → keep x = true) (h : Fenced fence R (front.filter keep ++ rest))
    {x y : α} {r : List α} (hsplit : front ++ rest = p ++ x :: (q ++ y :: r)) (hR : R x y)
    (hbehind : front.length ≤ p.length + q.length + 1) : fence <:+: q := by
  rcases append_eq_append_cons hsplit with ⟨q', rfl, hq⟩ | ⟨p₁, rfl, hrest⟩
  · rcases append_eq_append_cons hq.symm with ⟨r', rfl, -⟩ | ⟨q₁, rfl, hrest⟩
    · simp only [List.length_append, List.length_cons] at hbehind
      omega
    · have hfiltered : (p ++ x :: q').filter keep ++ rest =
          p.filter keep ++ x :: ((q'.filter keep ++ q₁) ++ y :: r) := by
        rw [hrest, List.filter_append, List.filter_cons_of_pos (hkeep x y hR)]
        simp
      have hnot : ∀ z ∈ fence, z ∉ q'.filter keep :=
        not_mem_filter fun z hz hmem =>
          hfront z hz (List.mem_append_right _ (List.mem_cons_of_mem _ hmem))
      exact (infix_behind_front hfence hnot (h _ x _ y r hfiltered hR)).trans
        (List.suffix_append _ _).isInfix
  · have hfiltered :
        front.filter keep ++ rest = (front.filter keep ++ p₁) ++ x :: (q ++ y :: r) := by
      rw [hrest, List.append_assoc]
    exact h _ x q y r hfiltered hR

end Front

end Library
