import AttAcc.Trace.Coverage
import AttAcc.Library.Fences

/-!
# The order of a trace

Two heads are interleaved, and the moves of a round drain the MACs of the round before. What
keeps a consumer behind its producers are the barriers: the MACs that a group of moves drains
are in front of it, and so are the vectors that MACs work on, with a barrier between. The
softmax of a head is between its score moves and its context vector.

Every loop keeps this order by itself, and the loops follow each other so that it holds of a
pair; different iterations have nothing to do with each other. The dummy MACs are left out.
-/

namespace AttAcc.Trace

open Library

variable {α : Type*}

/-! ## What has to be in order -/

/-- The list and the iteration of a command. -/
abbrev Kind := Phase × ℕ

/-- The kind of a command. -/
def kind (c : Tag × α) : Kind := (c.1.phase, c.1.itr)

/-- The first kind of command writes the vector that the second one works on. -/
def Kind.Feeds (x y : Kind) : Prop :=
  x.2 = y.2 ∧ (x.1 = .scoreWrgb ∧ y.1 = .scoreMac ∨ x.1 = .contextMvgb ∧ y.1 = .contextMac)

/-- The first kind of command is before the softmax of an iteration, the second one is it, or
the first one is it, and the second one after it. -/
def Kind.Softmax (x y : Kind) : Prop :=
  x.2 = y.2 ∧ (x.1 = .scoreMvsb ∧ y.1 = .sfm ∨ x.1 = .sfm ∧ y.1 = .contextMvgb)

/-- The group of score moves that drains a row: as many groups are generated before it. -/
def Generator.groupOf (g : Generator) (a : Args) (nIdx : ℕ) : ℕ :=
  ((g.drainRows a).filter fun d => d < nIdx).length

/-- The moves of the first tag drain the MACs of the second. -/
def Tag.Drains (g : Generator) (a : Args) (y x : Tag) : Prop :=
  x.itr = y.itr ∧ (y.phase = .scoreMvsb ∧ x.phase = .scoreMac ∧ g.groupOf a x.row = y.row ∨
    y.phase = .contextMvsb ∧ x.phase = .contextMac ∧ x.row = y.row)

/-- What a move draws on: the generated MACs that it drains. -/
def Draws (g : Generator) (a : Args) (cmds : List (Iteration α)) (y x : Tag × α) : Prop :=
  y.1.Drains g a x.1 ∧ ∃ it ∈ tagAll cmds, x ∈ it.scoreMac.flatten ∨ x ∈ it.contextMac.flatten

/-- A trace without the MACs in front of its first barrier. -/
def withoutDummies (trace : List (Tag × α)) : List (Tag × α) :=
  (trace.takeWhile fun c => decide (c.1.phase ≠ .barrier)).filter
    (fun c => decide (c.1.phase ≠ .scoreMac)) ++ afterWarmUp trace

/-- The commands of a trace are in order. -/
structure DependencyOrdered (g : Generator) (a : Args) (cmds : List (Iteration α))
    (barrier trace : List (Tag × α)) : Prop where
  /-- In front of moves are the MACs that they drain, with a barrier between. -/
  drained : Preceded barrier (Draws g a cmds) trace
  /-- Vectors are in front of the MACs that work on them, with a barrier between. -/
  fed : trace.Pairwise fun y x => ¬(kind x).Feeds (kind y)
  fenced : Fenced barrier (fun x y => (kind x).Feeds (kind y)) trace
  /-- The softmax is behind the score moves and in front of the context vector. -/
  softmax : trace.Pairwise fun y x => ¬(kind x).Softmax (kind y)

/-! ## What a loop keeps -/

section Pipeline

variable {rows : ℕ → Except PyError (List α)} {groups : List (List α)} {bus : ℕ → List α}
  {barrier out : List α} {length : ℕ} {X : α → Prop} {S : α → α → Prop}

/-- Moves come a round, hence a barrier, after the MACs that they draw on. -/
theorem preceded_pipeline (hrows : ∀ j mac, rows j = .ok mac → ∀ y ∈ mac, ∀ x, ¬S y x)
    (hbus : ∀ j, ∀ y ∈ bus j, ∀ x, ¬S y x) (hbarrier : ∀ y ∈ barrier, ∀ x, ¬S y x)
    (hdraws : ∀ j mac, rows j = .ok mac → ∀ y ∈ groups.getD j [], ∀ x, S y x → x ∈ mac)
    (h : pipeline rows groups bus barrier length = .ok out) : Preceded barrier S out := by
  obtain ⟨macs, hmacs, rfl⟩ := pipeline_eq_ok h
  -- After `k` rounds everything is in order, and in front of the last barrier are the MACs
  -- that the next moves draw on.
  have hrounds : ∀ k ≤ length, ∀ after, (∀ y ∈ after, ∀ x, S y x → y ∈ moves groups k) →
      Preceded barrier S (((List.range k).flatMap
        fun j => macs j ++ moves groups j ++ bus j ++ barrier) ++ after) := by
    intro k
    induction k with
    | zero =>
      intro _ after hafter
      refine preceded_of_forall_not ?_
      intro y hy x hS
      exact absurd (hafter y hy x hS) List.not_mem_nil
    | succ k ih =>
      intro hk after hafter
      have hround := ih (by omega) (macs k ++ moves groups k ++ bus k ++ barrier) ?_
      · rw [List.range_succ, List.flatMap_append, List.flatMap_singleton]
        rw [← List.append_assoc] at hround ⊢
        refine hround.append_fenced ?_
        intro y hy x hS
        have hmove : y ∈ groups.getD k [] := hafter y hy x hS
        have hx := hdraws k (macs k) (hmacs k (by omega)) y hmove x hS
        simp only [List.mem_append]
        exact .inr (.inl (.inl hx))
      · intro y hy x hS
        rw [List.mem_append, List.mem_append, List.mem_append] at hy
        rcases hy with ((hy | hy) | hy) | hy
        · exact absurd hS (hrows k (macs k) (hmacs k (by omega)) y hy x)
        · exact hy
        · exact absurd hS (hbus k y hy x)
        · exact absurd hS (hbarrier y hy x)
  refine hrounds length le_rfl _ ?_
  intro y hy x hS
  rcases List.mem_append.mp hy with hy | hy
  · exact hy
  · exact absurd hS (hbus length y hy x)

/-- What is not in the last round is followed by a barrier. -/
theorem followed_pipeline (hbarrier : ∀ x ∈ barrier, ¬X x)
    (hmoves : ∀ x ∈ moves groups length, ¬X x) (hbus : ∀ x ∈ bus length, ¬X x)
    (h : pipeline rows groups bus barrier length = .ok out) : Followed barrier X out := by
  obtain ⟨macs, -, rfl⟩ := pipeline_eq_ok h
  refine (followed_flatMap fun j _ => followed_append_fence hbarrier).append
    (followed_of_forall_not ?_)
  intro x hx
  rcases List.mem_append.mp hx with hx | hx
  · exact hmoves x hx
  · exact hbus x hx

/-- What only the first round has on its bus comes before what follows it there. -/
theorem pairwise_pipeline {Y : α → Prop} {first second : ℕ → List α}
    (hrows : ∀ j mac, rows j = .ok mac → ∀ c ∈ mac, ¬X c ∧ ¬Y c)
    (hgroups : ∀ j, ∀ c ∈ moves groups j, ¬X c ∧ ¬Y c) (hbarrier : ∀ c ∈ barrier, ¬X c ∧ ¬Y c)
    (hfirst : ∀ c ∈ first 0, ¬Y c) (hrest : ∀ j, first (j + 1) = [])
    (hsecond : ∀ j, ∀ c ∈ second j, ¬X c)
    (h : pipeline rows groups (fun j => first j ++ second j) barrier length = .ok out) :
    out.Pairwise fun y x => ¬(Y y ∧ X x) := by
  obtain ⟨macs, hmacs, rfl⟩ := pipeline_eq_ok h
  -- it is enough to cut the output where no `Y` is in front and no `X` behind
  have hsplit : ∀ front back : List α, (∀ c ∈ front, ¬Y c) → (∀ c ∈ back, ¬X c) →
      (front ++ back).Pairwise fun y x => ¬(Y y ∧ X x) := by
    intro front back hfront hback
    refine List.pairwise_append.mpr ⟨?_, ?_, ?_⟩
    · exact List.pairwise_of_forall_mem_list fun y hy x _ hYX => hfront y hy hYX.1
    · exact List.pairwise_of_forall_mem_list fun y _ x hx hYX => hback x hx hYX.2
    · exact fun y hy x _ hYX => hfront y hy hYX.1
  cases length with
  | zero =>
    have hmoves : moves groups 0 = [] := rfl
    rw [List.range_zero, List.flatMap_nil, List.nil_append, hmoves, List.nil_append]
    exact hsplit _ _ hfirst (hsecond 0)
  | succ n =>
    have hround : ∀ j, ∀ c ∈ macs (j + 1) ++ moves groups (j + 1) ++
        (first (j + 1) ++ second (j + 1)) ++ barrier, j + 1 < n + 1 → ¬X c := by
      intro j c hc hj
      rw [hrest, List.nil_append] at hc
      simp only [List.mem_append] at hc
      rcases hc with ((hc | hc) | hc) | hc
      · exact (hrows _ _ (hmacs _ hj) c hc).1
      · exact (hgroups _ c hc).1
      · exact hsecond _ c hc
      · exact (hbarrier c hc).1
    have hout : ((List.range (n + 1)).flatMap fun j => macs j ++ moves groups j ++
          (first j ++ second j) ++ barrier) ++
          (moves groups (n + 1) ++ (first (n + 1) ++ second (n + 1))) =
        (macs 0 ++ first 0) ++ (second 0 ++ barrier ++ ((List.range n).flatMap fun j =>
          macs (j + 1) ++ moves groups (j + 1) ++ (first (j + 1) ++ second (j + 1)) ++ barrier) ++
          (moves groups (n + 1) ++ second (n + 1))) := by
      rw [List.range_succ_eq_map, List.flatMap_cons, List.flatMap_map, hrest n]
      simp [moves]
    rw [hout]
    refine hsplit _ _ ?_ ?_
    · intro c hc
      rcases List.mem_append.mp hc with hc | hc
      · exact (hrows 0 _ (hmacs 0 (Nat.succ_pos n)) c hc).2
      · exact hfirst c hc
    · intro c hc
      rw [List.mem_append, List.mem_append, List.mem_append, List.mem_append] at hc
      rcases hc with ((hc | hc) | hc) | hc | hc
      · exact hsecond 0 c hc
      · exact (hbarrier c hc).1
      · obtain ⟨j, hj, hc⟩ := List.mem_flatMap.mp hc
        exact hround j c hc (Nat.succ_lt_succ (List.mem_range.mp hj))
      · exact (hgroups _ c hc).1
      · exact hsecond _ c hc

end Pipeline

/-! ## What moves draw on -/

section Draws

variable {g : Generator} {a : Args} {cmds : List (Iteration α)} {it : Iteration α} {i : ℕ}

/-- Sixteen rows make a group. -/
theorem groupOf_eq {nIdx : ℕ} (h : nIdx < g.seqRows a) : g.groupOf a nIdx = nIdx / 16 := by
  obtain ⟨rest, hrest⟩ := Nat.exists_eq_add_of_le h.le
  have hfront : (List.range nIdx).countP
      (fun d => decide (d < nIdx) && decide (d % 16 = 15 ∨ d + 1 = nIdx + rest)) = nIdx / 16 := by
    rw [← countP_sixteenth]
    refine List.countP_congr fun d hd => ?_
    have hlt := List.mem_range.mp hd
    simp only [Bool.and_eq_true, decide_eq_true_eq]
    omega
  have hback : ((List.range rest).map fun d => nIdx + d).countP
      (fun d => decide (d < nIdx) && decide (d % 16 = 15 ∨ d + 1 = nIdx + rest)) = 0 := by
    refine List.countP_eq_zero.mpr ?_
    intro d hd
    obtain ⟨d', -, rfl⟩ := List.mem_map.mp hd
    simp
  rw [Generator.groupOf, Generator.drainRows, List.filter_filter, ← List.countP_eq_length_filter,
    hrest, List.range_add, List.countP_append, hfront, hback, Nat.add_zero]

/-- What the moves of an iteration draw on is in its own MACs. -/
theorem mem_of_draws (hit : cmds[i]? = some it) {y x : Tag × α} (hy : y.1.itr = i)
    (h : Draws g a cmds y x) :
    x ∈ (it.tag i).scoreMac.flatten ∨ x ∈ (it.tag i).contextMac.flatten := by
  obtain ⟨⟨hitr, -⟩, tagged, htagged, hx⟩ := h
  obtain ⟨k, hk, rfl⟩ := List.mem_mapIdx.mp htagged
  have hxk : x.1.itr = k := by
    rcases hx with hx | hx
    · exact (mem_flatten_tagRows hx).2
    · exact (mem_flatten_tagRows hx).2
  obtain rfl : k = i := hxk.symm.trans (hitr.trans hy)
  obtain rfl : cmds[k] = it := Option.some.inj ((List.getElem?_eq_getElem hk).symm.trans hit)
  exact hx

/-- A row of a tagged list. -/
theorem mem_getElem_of_mem_tagRows {phase : Phase} {rows : List (List α)} {x : Tag × α}
    (h : x ∈ (tagRows phase i rows).flatten) : ∃ row, (tagRows phase i rows)[x.1.row]? = some row ∧
      x ∈ row ∧ x.1.row < rows.length := by
  obtain ⟨row, hrow, hx⟩ := List.mem_flatten.mp h
  obtain ⟨n, hn, rfl⟩ := List.mem_mapIdx.mp hrow
  obtain ⟨-, -, hxn⟩ := mem_tagRow hx
  refine ⟨_, ?_, hx, ?_⟩
  · rw [hxn, tagRows, List.getElem?_mapIdx, List.getElem?_eq_getElem hn]
    rfl
  · rw [hxn]
    exact hn

/-- An element of a tagged row tells which one it is. -/
theorem of_mem_getD_tagRows {phase : Phase} {rows : List (List α)} {j : ℕ} {y : Tag × α}
    (h : y ∈ (tagRows phase i rows).getD j []) :
    y.1.phase = phase ∧ y.1.itr = i ∧ y.1.row = j := by
  rw [List.getD_eq_getElem?_getD, tagRows, List.getElem?_mapIdx] at h
  cases hrow : rows[j]? with
  | none =>
    rw [hrow] at h
    exact absurd h List.not_mem_nil
  | some row =>
    rw [hrow] at h
    exact mem_tagRow h

/-- A group of score moves draws on the MACs of one round. -/
theorem mem_scoreRound_of_draws (hit : cmds[i]? = some it)
    (hrows : it.scoreMac.length = g.seqRows a) {j : ℕ} {mac : List (Tag × α)}
    (hmac : (it.tag i).scoreRound j = .ok mac) {y x : Tag × α}
    (hy : y ∈ (it.tag i).scoreMvsb.getD j []) (h : Draws g a cmds y x) : x ∈ mac := by
  obtain rfl := Except.ok.inj hmac
  obtain ⟨hphase, hitr, hrow⟩ := of_mem_getD_tagRows hy
  have hmem := mem_of_draws hit hitr h
  obtain ⟨⟨-, hdrains⟩, -⟩ := h
  rcases hdrains with ⟨-, hxphase, hgroup⟩ | ⟨hcontext, -⟩
  · rcases hmem with hmem | hmem
    · obtain ⟨row, hget, hx, hlt⟩ := mem_getElem_of_mem_tagRows hmem
      rw [groupOf_eq (hrows ▸ hlt), hrow] at hgroup
      refine List.mem_flatten.mpr ⟨row, ?_, hx⟩
      refine List.mem_of_getElem? (i := x.1.row - j * 16) ?_
      rw [window, List.getElem?_take_of_lt (by omega), List.getElem?_drop]
      have hindex : j * 16 + (x.1.row - j * 16) = x.1.row := by omega
      rw [hindex]
      exact hget
    · rw [(mem_flatten_tagRows hmem).1] at hxphase
      cases hxphase
  · rw [hphase] at hcontext
    cases hcontext

/-- A group of context moves draws on the MACs of one row. -/
theorem mem_contextRound_of_draws (hit : cmds[i]? = some it) {j : ℕ} {mac : List (Tag × α)}
    (hmac : (it.tag i).contextRound j = .ok mac) {y x : Tag × α}
    (hy : y ∈ (it.tag i).contextMvsb.getD j []) (h : Draws g a cmds y x) : x ∈ mac := by
  obtain ⟨hphase, hitr, hrow⟩ := of_mem_getD_tagRows hy
  have hmem := mem_of_draws hit hitr h
  obtain ⟨⟨-, hdrains⟩, -⟩ := h
  rcases hdrains with ⟨hscore, -⟩ | ⟨-, hxphase, hxrow⟩
  · rw [hphase] at hscore
    cases hscore
  · rcases hmem with hmem | hmem
    · rw [(mem_flatten_tagRows hmem).1] at hxphase
      cases hxphase
    · obtain ⟨row, hget, hx, -⟩ := mem_getElem_of_mem_tagRows hmem
      have hindex := index_eq_ok.mp hmac
      rw [hxrow, hrow] at hget
      obtain rfl := Option.some.inj (hget.symm.trans hindex)
      exact hx

end Draws

/-! ## Parts of a trace in order -/

section Parts

variable {g : Generator} {a : Args} {cmds : List (Iteration α)} {barrier l l₁ l₂ : List (Tag × α)}
  {K K₁ K₂ : List Kind}

/-- The commands of a list are of some kinds. -/
def Kinds (K : List Kind) (l : List (Tag × α)) : Prop := ∀ c ∈ l, kind c ∈ K

theorem Kinds.append (h₁ : Kinds K₁ l₁) (h₂ : Kinds K₂ l₂) : Kinds (K₁ ++ K₂) (l₁ ++ l₂) := by
  intro c hc
  rcases List.mem_append.mp hc with hc | hc
  · exact List.mem_append_left _ (h₁ c hc)
  · exact List.mem_append_right _ (h₂ c hc)

theorem Kinds.mono (h : Kinds K₁ l) (hsub : ∀ k ∈ K₁, k ∈ K₂) : Kinds K₂ l :=
  fun c hc => hsub _ (h c hc)

/-- Nothing of the second kinds may be in front of something of the first. -/
def Later (K₁ K₂ : List Kind) : Prop :=
  ∀ y ∈ K₁, ∀ x ∈ K₂, ¬Kind.Feeds x y ∧ ¬Kind.Softmax x y

/-- One kind of a part feeds the next part. -/
theorem feeds_only (hK₁ : Kinds K₁ l₁) (hK₂ : Kinds K₂ l₂) {k : Kind}
    (hno : ∀ x ∈ K₁, ∀ y ∈ K₂, Kind.Feeds x y → x = k) :
    ∀ x ∈ l₁, (∃ y ∈ l₂, (kind x).Feeds (kind y)) → kind x = k := by
  rintro x hx ⟨y, hy, hfeeds⟩
  exact hno _ (hK₁ x hx) _ (hK₂ y hy) hfeeds

namespace DependencyOrdered

/-- Two parts in order follow each other. -/
theorem append (h₁ : DependencyOrdered g a cmds barrier l₁)
    (h₂ : DependencyOrdered g a cmds barrier l₂) (hK₁ : Kinds K₁ l₁) (hK₂ : Kinds K₂ l₂)
    (hlater : Later K₁ K₂)
    (hfollowed : Followed barrier (fun x => ∃ y ∈ l₂, (kind x).Feeds (kind y)) l₁) :
    DependencyOrdered g a cmds barrier (l₁ ++ l₂) where
  drained := h₁.drained.append h₂.drained
  fed := List.pairwise_append.mpr ⟨h₁.fed, h₂.fed, fun y hy x hx =>
    (hlater _ (hK₁ y hy) _ (hK₂ x hx)).1⟩
  fenced := h₁.fenced.append h₂.fenced hfollowed
  softmax := List.pairwise_append.mpr ⟨h₁.softmax, h₂.softmax, fun y hy x hx =>
    (hlater _ (hK₁ y hy) _ (hK₂ x hx)).2⟩

/-- Parts of which the first writes no vector for the second. -/
theorem append_of_not (h₁ : DependencyOrdered g a cmds barrier l₁)
    (h₂ : DependencyOrdered g a cmds barrier l₂) (hK₁ : Kinds K₁ l₁) (hK₂ : Kinds K₂ l₂)
    (hlater : Later K₁ K₂) (hnot : ∀ x ∈ K₁, ∀ y ∈ K₂, ¬Kind.Feeds x y) :
    DependencyOrdered g a cmds barrier (l₁ ++ l₂) := by
  refine h₁.append h₂ hK₁ hK₂ hlater (followed_of_forall_not ?_)
  rintro x hx ⟨y, hy, hfeeds⟩
  exact hnot _ (hK₁ x hx) _ (hK₂ y hy) hfeeds

/-- Parts that share no iteration. -/
theorem append_of_itr (h₁ : DependencyOrdered g a cmds barrier l₁)
    (h₂ : DependencyOrdered g a cmds barrier l₂)
    (hitr : ∀ x ∈ l₁, ∀ y ∈ l₂, x.1.phase = .barrier ∨ y.1.phase = .barrier ∨ x.1.itr ≠ y.1.itr) :
    DependencyOrdered g a cmds barrier (l₁ ++ l₂) := by
  have hcross : ∀ x ∈ l₁, ∀ y ∈ l₂, ¬(kind x).Feeds (kind y) ∧ ¬(kind y).Feeds (kind x) ∧
      ¬(kind y).Softmax (kind x) := by
    intro x hx y hy
    rcases hitr x hx y hy with hphase | hphase | hne
    · simp [kind, Kind.Feeds, Kind.Softmax, hphase]
    · simp [kind, Kind.Feeds, Kind.Softmax, hphase]
    · simp [kind, Kind.Feeds, Kind.Softmax, hne, hne.symm]
  exact ⟨h₁.drained.append h₂.drained,
    List.pairwise_append.mpr ⟨h₁.fed, h₂.fed, fun y hy x hx => (hcross y hy x hx).2.1⟩,
    h₁.fenced.append_of_not h₂.fenced fun x hx y hy => (hcross x hx y hy).1,
    List.pairwise_append.mpr ⟨h₁.softmax, h₂.softmax, fun y hy x hx => (hcross y hy x hx).2.2⟩⟩

/-- Commands of kinds that have nothing to do with each other, and no moves. -/
theorem of_kinds (hK : Kinds K l) (hlater : Later K K)
    (hmoves : ∀ k ∈ K, k.1 ≠ .scoreMvsb ∧ k.1 ≠ .contextMvsb) :
    DependencyOrdered g a cmds barrier l := by
  have hpair : ∀ y ∈ l, ∀ x ∈ l, ¬(kind x).Feeds (kind y) ∧ ¬(kind x).Softmax (kind y) :=
    fun y hy x hx => hlater _ (hK y hy) _ (hK x hx)
  refine ⟨preceded_of_forall_not ?_, ?_, ?_, ?_⟩
  · intro y hy x hdraws
    obtain ⟨hscore, hcontext⟩ := hmoves _ (hK y hy)
    rcases hdraws.1.2 with ⟨hphase, -⟩ | ⟨hphase, -⟩
    · exact hscore hphase
    · exact hcontext hphase
  · exact List.pairwise_of_forall_mem_list fun y hy x hx => (hpair y hy x hx).1
  · exact fenced_of_forall_not fun x hx y hy => (hpair y hy x hx).1
  · exact List.pairwise_of_forall_mem_list fun y hy x hx => (hpair y hy x hx).2

end DependencyOrdered

end Parts

/-! ## The loops -/

section Loops

variable {g : Generator} {a : Args} {cmds : List (Iteration α)} {barrier : List α}
  {out : List (Tag × α)} {it it0 it1 : Iteration α} {i k : ℕ}

theorem kind_barrier : Kinds [(.barrier, 0)] (tagBarrier barrier) := by
  intro c hc
  obtain ⟨hphase, hitr, -⟩ := mem_tagRow hc
  rw [kind, hphase, hitr]
  exact List.mem_singleton_self _

theorem kind_tagRow {phase : Phase} {row : ℕ} {cs : List α} :
    Kinds [(phase, i)] (tagRow phase i row cs) := by
  intro c hc
  obtain ⟨hphase, hitr, -⟩ := mem_tagRow hc
  rw [kind, hphase, hitr]
  exact List.mem_singleton_self _

theorem kind_moves {phase : Phase} {rows : List (List α)} {j : ℕ} :
    Kinds [(phase, i)] (moves (tagRows phase i rows) j) := by
  intro c hc
  rw [moves] at hc
  split_ifs at hc
  · exact absurd hc List.not_mem_nil
  · obtain ⟨hphase, hitr, -⟩ := of_mem_getD_tagRows hc
    rw [kind, hphase, hitr]
    exact List.mem_singleton_self _

theorem kind_scoreRound {j : ℕ} {mac : List (Tag × α)} (h : (it.tag i).scoreRound j = .ok mac) :
    Kinds [(.scoreMac, i)] mac := by
  obtain rfl := Except.ok.inj h
  intro c hc
  obtain ⟨row, hrow, hc⟩ := List.mem_flatten.mp hc
  obtain ⟨hphase, hitr⟩ := mem_tagRows (mem_of_mem_window hrow) c hc
  rw [kind, hphase, hitr]
  exact List.mem_singleton_self _

theorem kind_contextRound {j : ℕ} {mac : List (Tag × α)}
    (h : (it.tag i).contextRound j = .ok mac) : Kinds [(.contextMac, i)] mac := by
  intro c hc
  obtain ⟨hphase, hitr⟩ := mem_tagRows (List.mem_of_getElem? (index_eq_ok.mp h)) c hc
  rw [kind, hphase, hitr]
  exact List.mem_singleton_self _

theorem kind_sfmRound {j : ℕ} : Kinds [(.sfm, i)] ((it.tag i).sfmRound j) := by
  intro c hc
  rw [Iteration.sfmRound] at hc
  split_ifs at hc
  · exact kind_tagRow c hc
  · exact absurd hc List.not_mem_nil

theorem kind_wrgbRound {n length j : ℕ} :
    Kinds [(.scoreWrgb, i)] ((it.tag i).wrgbRound n length j) := by
  intro c hc
  rw [Iteration.wrgbRound] at hc
  split_ifs at hc
  · exact absurd hc List.not_mem_nil
  · exact kind_tagRow c (mem_of_mem_window hc)

theorem kind_mvgbRound {n length j : ℕ} :
    Kinds [(.contextMvgb, i)] ((it.tag i).mvgbRound n length j) := by
  intro c hc
  rw [Iteration.mvgbRound] at hc
  split_ifs at hc
  · exact absurd hc List.not_mem_nil
  · exact kind_tagRow c (mem_of_mem_window hc)

section Pipeline

variable {rows : ℕ → Except PyError (List (Tag × α))} {groups : List (List (Tag × α))}
  {bus : ℕ → List (Tag × α)} {length : ℕ} {mac move : Kind} {B : List Kind}

/-- The kinds of commands of a loop. -/
theorem kinds_pipeline (hrows : ∀ j row, rows j = .ok row → Kinds [mac] row)
    (hmoves : ∀ j, Kinds [move] (moves groups j)) (hbus : ∀ j, Kinds B (bus j))
    (h : pipeline rows groups bus (tagBarrier barrier) length = .ok out) :
    Kinds (mac :: move :: (.barrier, 0) :: B) out := by
  refine forall_mem_pipeline (P := fun c => kind c ∈ mac :: move :: (.barrier, 0) :: B)
    ?_ ?_ ?_ ?_ h
  · intro j row hrow c hc
    rw [List.mem_singleton.mp (hrows j row hrow c hc)]
    exact List.mem_cons_self
  · intro group hgroup c hc
    obtain ⟨j, hj, rfl⟩ := List.mem_iff_getElem.mp hgroup
    have hmove : c ∈ moves groups (j + 1) := by
      rw [moves, if_neg (Nat.succ_ne_zero j), Nat.add_sub_cancel, List.getD_eq_getElem?_getD,
        List.getElem?_eq_getElem hj]
      exact hc
    rw [List.mem_singleton.mp (hmoves _ c hmove)]
    simp
  · intro j c hc
    exact List.mem_cons_of_mem _ (List.mem_cons_of_mem _ (List.mem_cons_of_mem _ (hbus j c hc)))
  · intro c hc
    rw [List.mem_singleton.mp (kind_barrier c hc)]
    simp

/-- A loop is in order, if its moves draw on the round before, and nothing in it feeds its
MACs. -/
theorem ordered_pipeline (hrows : ∀ j row, rows j = .ok row → Kinds [mac] row)
    (hmoves : ∀ j, Kinds [move] (moves groups j)) (hbus : ∀ j, Kinds B (bus j))
    (hmac : mac.1 ≠ .scoreMvsb ∧ mac.1 ≠ .contextMvsb)
    (hB : ∀ b ∈ B, b.1 ≠ .scoreMvsb ∧ b.1 ≠ .contextMvsb)
    (hdraws : ∀ j row, rows j = .ok row → ∀ y ∈ groups.getD j [], ∀ x, Draws g a cmds y x → x ∈ row)
    (hfeeds : ∀ x ∈ mac :: move :: (.barrier, 0) :: B, ∀ y ∈ mac :: move :: (.barrier, 0) :: B,
      ¬Kind.Feeds x y)
    (hsoftmax : out.Pairwise fun y x => ¬(kind x).Softmax (kind y))
    (h : pipeline rows groups bus (tagBarrier barrier) length = .ok out) :
    DependencyOrdered g a cmds (tagBarrier barrier) out := by
  have hkinds := kinds_pipeline hrows hmoves hbus h
  have hnot : ∀ {y : Tag × α}, y.1.phase ≠ .scoreMvsb ∧ y.1.phase ≠ .contextMvsb →
      ∀ x, ¬Draws g a cmds y x := by
    rintro y ⟨hscore, hcontext⟩ x ⟨⟨-, ⟨hphase, -⟩ | ⟨hphase, -⟩⟩, -⟩
    · exact hscore hphase
    · exact hcontext hphase
  refine ⟨preceded_pipeline ?_ ?_ ?_ hdraws h, ?_, ?_, hsoftmax⟩
  · intro j row hrow y hy
    refine hnot ?_
    have hkind : kind y = mac := List.mem_singleton.mp (hrows j row hrow y hy)
    rw [← hkind] at hmac
    exact hmac
  · intro j y hy
    exact hnot (hB _ (hbus j y hy))
  · intro y hy
    refine hnot ?_
    rw [(mem_tagRow hy).1]
    decide
  · exact List.pairwise_of_forall_mem_list fun y hy x hx => hfeeds _ (hkinds x hx) _ (hkinds y hy)
  · exact fenced_of_forall_not fun x hx y hy => hfeeds _ (hkinds x hx) _ (hkinds y hy)

/-- A loop without a softmax. -/
theorem softmax_of_kinds {K : List Kind} {l : List (Tag × α)} (hK : Kinds K l)
    (hno : ∀ x ∈ K, ∀ y ∈ K, ¬Kind.Softmax x y) :
    l.Pairwise fun y x => ¬(kind x).Softmax (kind y) :=
  List.pairwise_of_forall_mem_list fun y hy x hx => hno _ (hK x hx) _ (hK y hy)

/-- A loop with the softmax and the context vector of iteration `k` on its bus. -/
theorem softmax_pipeline {n : ℕ} (hrows : ∀ j row, rows j = .ok row → Kinds [mac] row)
    (hmoves : ∀ j, Kinds [move] (moves groups j))
    (hmac : mac.1 ≠ .sfm ∧ mac.1 ≠ .contextMvgb ∧ mac.1 ≠ .scoreMvsb)
    (hmove : move.1 ≠ .sfm ∧ move.1 ≠ .contextMvgb ∧ move.2 ≠ k)
    (h : pipeline rows groups (fun j => (it.tag k).sfmRound j ++ (it.tag k).mvgbRound n length j)
      (tagBarrier barrier) length = .ok out) :
    out.Pairwise fun y x => ¬(kind x).Softmax (kind y) := by
  have hsfm : ∀ j, Kinds [(.sfm, k)] ((it.tag k).sfmRound j) := fun _ => kind_sfmRound
  have hkinds := kinds_pipeline hrows hmoves
    (fun j => (hsfm j).append kind_mvgbRound) h
  have hpairwise := pairwise_pipeline (X := fun c => (kind c).1 = .sfm)
    (Y := fun c => (kind c).1 = .contextMvgb) ?_ ?_ ?_ ?_ ?_ ?_ h
  · refine List.Pairwise.imp_of_mem ?_ hpairwise
    intro y x hy hx hnot hsoftmax
    obtain ⟨hitr, ⟨hxphase, hyphase⟩ | ⟨hxphase, hyphase⟩⟩ := hsoftmax
    · -- The score moves in the loop are of another iteration.
      have hxmove : kind x = move := by
        rcases List.mem_cons.mp (hkinds x hx) with hmac' | hx'
        · exact absurd (hmac' ▸ hxphase) hmac.2.2
        · rcases List.mem_cons.mp hx' with hmove' | hx'
          · exact hmove'
          · simp [Prod.ext_iff, hxphase] at hx'
      have hysfm : kind y = (.sfm, k) := by
        rcases List.mem_cons.mp (hkinds y hy) with hmac' | hy'
        · exact absurd (hmac' ▸ hyphase) hmac.1
        · rcases List.mem_cons.mp hy' with hmove' | hy'
          · exact absurd (hmove' ▸ hyphase) hmove.1
          · simpa [Prod.ext_iff, hyphase] using hy'
      rw [hxmove, hysfm] at hitr
      exact hmove.2.2 hitr
    · exact hnot ⟨hyphase, hxphase⟩
  · intro j row hrow c hc
    rw [List.mem_singleton.mp (hrows j row hrow c hc)]
    exact ⟨hmac.1, hmac.2.1⟩
  · intro j c hc
    rw [List.mem_singleton.mp (hmoves j c hc)]
    exact ⟨hmove.1, hmove.2.1⟩
  · intro c hc
    rw [List.mem_singleton.mp (kind_barrier c hc)]
    exact ⟨nofun, nofun⟩
  · intro c hc
    rw [List.mem_singleton.mp (kind_sfmRound c hc)]
    nofun
  · intro j
    rfl
  · intro j c hc
    rw [List.mem_singleton.mp (kind_mvgbRound c hc)]
    nofun

end Pipeline

/-! ### The loops of a pair and of a last iteration -/

variable {bus : ℕ → List (Tag × α)} {B : List Kind} {length : ℕ}

/-- A score loop is in order. -/
theorem ordered_score (hit : cmds[i]? = some it) (hrows : it.scoreMac.length = g.seqRows a)
    (hbus : ∀ j, Kinds B (bus j)) (hB : ∀ b ∈ B, b.1 ≠ .scoreMvsb ∧ b.1 ≠ .contextMvsb)
    (hfeeds : ∀ x ∈ (.scoreMac, i) :: (.scoreMvsb, i) :: (.barrier, 0) :: B,
      ∀ y ∈ (.scoreMac, i) :: (.scoreMvsb, i) :: (.barrier, 0) :: B, ¬Kind.Feeds x y)
    (hsoftmax : out.Pairwise fun y x => ¬(kind x).Softmax (kind y))
    (h : pipeline (it.tag i).scoreRound (it.tag i).scoreMvsb bus (tagBarrier barrier) length =
      .ok out) : DependencyOrdered g a cmds (tagBarrier barrier) out :=
  ordered_pipeline (fun _ _ hrow => kind_scoreRound hrow) (fun _ => kind_moves) hbus
    ⟨nofun, nofun⟩ hB
    (fun _ _ hrow _ hy _ hdraws => mem_scoreRound_of_draws hit hrows hrow hy hdraws)
    hfeeds hsoftmax h

/-- A context loop is in order. -/
theorem ordered_context (hit : cmds[i]? = some it) (hbus : ∀ j, Kinds B (bus j))
    (hB : ∀ b ∈ B, b.1 ≠ .scoreMvsb ∧ b.1 ≠ .contextMvsb)
    (hfeeds : ∀ x ∈ (.contextMac, i) :: (.contextMvsb, i) :: (.barrier, 0) :: B,
      ∀ y ∈ (.contextMac, i) :: (.contextMvsb, i) :: (.barrier, 0) :: B, ¬Kind.Feeds x y)
    (hsoftmax : out.Pairwise fun y x => ¬(kind x).Softmax (kind y))
    (h : pipeline (it.tag i).contextRound (it.tag i).contextMvsb bus (tagBarrier barrier) length =
      .ok out) : DependencyOrdered g a cmds (tagBarrier barrier) out :=
  ordered_pipeline (fun _ _ hrow => kind_contextRound hrow) (fun _ => kind_moves) hbus
    ⟨nofun, nofun⟩ hB
    (fun _ _ hrow _ hy _ hdraws => mem_contextRound_of_draws hit hrow hy hdraws)
    hfeeds hsoftmax h

/-- The first loop of a pair. -/
theorem ordered_score0 (hit : cmds[i]? = some it0) (hrows : it0.scoreMac.length = g.seqRows a)
    (h : g.score0 a (tagBarrier barrier) (it0.tag i) (it1.tag (i + 1)) = .ok out) :
    DependencyOrdered g a cmds (tagBarrier barrier) out ∧
      Kinds [(.scoreMac, i), (.scoreMvsb, i), (.barrier, 0), (.scoreWrgb, i + 1)] out ∧
      Followed (tagBarrier barrier) (fun c => kind c = (.scoreWrgb, i + 1)) out := by
  have hkinds := kinds_pipeline (fun _ _ hrow => kind_scoreRound hrow) (fun _ => kind_moves)
    (fun _ => kind_wrgbRound) h
  refine ⟨ordered_score hit hrows (fun _ => kind_wrgbRound) (by simp) (by simp [Kind.Feeds])
    (softmax_of_kinds hkinds (by simp [Kind.Softmax])) h, hkinds, followed_pipeline ?_ ?_ ?_ h⟩
  · intro c hc
    rw [List.mem_singleton.mp (kind_barrier c hc)]
    nofun
  · intro c hc
    rw [List.mem_singleton.mp (kind_moves c hc)]
    nofun
  · intro c hc
    rw [Iteration.wrgbRound, if_pos rfl] at hc
    exact absurd hc List.not_mem_nil

/-- The second loop of a pair. -/
theorem ordered_score1 (hit : cmds[i + 1]? = some it1) (hrows : it1.scoreMac.length = g.seqRows a)
    (h : g.score1 a (tagBarrier barrier) (it0.tag i) (it1.tag (i + 1)) = .ok out) :
    DependencyOrdered g a cmds (tagBarrier barrier) out ∧
      Kinds [(.scoreMac, i + 1), (.scoreMvsb, i + 1), (.barrier, 0), (.sfm, i), (.contextMvgb, i)]
        out ∧
      Followed (tagBarrier barrier) (fun c => kind c = (.contextMvgb, i)) out := by
  have hbus : ∀ j, Kinds [(.sfm, i), (.contextMvgb, i)] ((it0.tag i).sfmRound j ++
      (it0.tag i).mvgbRound (g.mvgbCmds a) (g.scoreLength a) j) :=
    fun _ => kind_sfmRound.append kind_mvgbRound
  have hmacs : ∀ j row, (it1.tag (i + 1)).scoreRound j = .ok row → Kinds [(.scoreMac, i + 1)] row :=
    fun _ _ hrow => kind_scoreRound hrow
  have hmoves : ∀ j, Kinds [(.scoreMvsb, i + 1)] (moves (it1.tag (i + 1)).scoreMvsb j) :=
    fun _ => kind_moves
  have hkinds := kinds_pipeline hmacs hmoves hbus h
  have hsoftmax := softmax_pipeline hmacs hmoves ⟨by simp, by simp, by simp⟩
    ⟨by simp, by simp, by simp⟩ h
  refine ⟨ordered_score hit hrows hbus (by simp) (by simp [Kind.Feeds]) hsoftmax h, hkinds,
    followed_pipeline ?_ ?_ ?_ h⟩
  · intro c hc
    rw [List.mem_singleton.mp (kind_barrier c hc)]
    simp
  · intro c hc
    rw [List.mem_singleton.mp (kind_moves c hc)]
    simp
  · intro c hc
    rw [Iteration.mvgbRound, if_pos (.inl rfl), List.append_nil] at hc
    rw [List.mem_singleton.mp (kind_sfmRound c hc)]
    simp

/-- The third loop of a pair. -/
theorem ordered_context0 (hit : cmds[i]? = some it0)
    (h : g.context0 a (tagBarrier barrier) (it0.tag i) (it1.tag (i + 1)) = .ok out) :
    DependencyOrdered g a cmds (tagBarrier barrier) out ∧
      Kinds [(.contextMac, i), (.contextMvsb, i), (.barrier, 0), (.sfm, i + 1),
        (.contextMvgb, i + 1)] out := by
  have hbus : ∀ j, Kinds [(.sfm, i + 1), (.contextMvgb, i + 1)] ((it1.tag (i + 1)).sfmRound j ++
      (it1.tag (i + 1)).mvgbRound (g.mvgbCmds a) (g.contextLength a) j) :=
    fun _ => kind_sfmRound.append kind_mvgbRound
  have hmacs : ∀ j row, (it0.tag i).contextRound j = .ok row → Kinds [(.contextMac, i)] row :=
    fun _ _ hrow => kind_contextRound hrow
  have hmoves : ∀ j, Kinds [(.contextMvsb, i)] (moves (it0.tag i).contextMvsb j) :=
    fun _ => kind_moves
  have hkinds := kinds_pipeline hmacs hmoves hbus h
  have hsoftmax := softmax_pipeline hmacs hmoves ⟨nofun, nofun, nofun⟩ ⟨nofun, nofun, by simp⟩ h
  exact ⟨ordered_context hit hbus (by simp) (by simp [Kind.Feeds]) hsoftmax h, hkinds⟩

/-- A loop with nothing else on its bus. -/
theorem kinds_nil (j : ℕ) : Kinds [] ((fun _ => []) j : List (Tag × α)) :=
  fun _ hc => absurd hc List.not_mem_nil

/-- The fourth loop of a pair, and the second loop of a last iteration. -/
theorem ordered_context1 (hit : cmds[i]? = some it)
    (h : g.context1 a (tagBarrier barrier) (it.tag i) = .ok out) :
    DependencyOrdered g a cmds (tagBarrier barrier) out ∧
      Kinds [(.contextMac, i), (.contextMvsb, i), (.barrier, 0)] out := by
  have hkinds := kinds_pipeline (fun _ _ hrow => kind_contextRound hrow) (fun _ => kind_moves)
    kinds_nil h
  exact ⟨ordered_context hit kinds_nil (by simp) (by simp [Kind.Feeds])
    (softmax_of_kinds hkinds (by simp [Kind.Softmax])) h, hkinds⟩

/-- The first loop of a last iteration. -/
theorem ordered_scoreLast (hit : cmds[i]? = some it) (hrows : it.scoreMac.length = g.seqRows a)
    (h : pipeline (it.tag i).scoreRound (it.tag i).scoreMvsb (fun _ => []) (tagBarrier barrier)
      length = .ok out) :
    DependencyOrdered g a cmds (tagBarrier barrier) out ∧
      Kinds [(.scoreMac, i), (.scoreMvsb, i), (.barrier, 0)] out := by
  have hkinds := kinds_pipeline (fun _ _ hrow => kind_scoreRound hrow) (fun _ => kind_moves)
    kinds_nil h
  exact ⟨ordered_score hit hrows kinds_nil (by simp) (by simp [Kind.Feeds])
    (softmax_of_kinds hkinds (by simp [Kind.Softmax])) h, hkinds⟩

/-! ### Pairs and the last iteration -/

/-- The commands in front of a first barrier are dropped by both. -/
theorem withoutDummies_append (hbarrier : barrier ≠ []) {front dummies rest : List (Tag × α)}
    (hfront : ∀ c ∈ front, c.1.phase = .scoreWrgb)
    (hdummies : ∀ c ∈ dummies, c.1.phase = .scoreMac) :
    withoutDummies (front ++ dummies ++ (tagBarrier barrier ++ rest)) =
      front ++ (tagBarrier barrier ++ rest) := by
  have hwarm : ∀ c ∈ front ++ dummies, decide (c.1.phase ≠ .barrier) = true := by
    intro c hc
    rcases List.mem_append.mp hc with hc | hc
    · rw [hfront c hc]
      rfl
    · rw [hdummies c hc]
      rfl
  obtain ⟨cmd, others, rfl⟩ := List.exists_cons_of_ne_nil hbarrier
  have hcons : tagBarrier (cmd :: others) ++ rest =
      (⟨.barrier, 0, 0, 0⟩, cmd) :: ((tagBarrier (cmd :: others)).tail ++ rest) := by
    rw [tagBarrier, tagRow, List.mapIdx_cons]
    rfl
  -- the warm-up ends at the first barrier, with all the dummies in front of it
  have htake : (front ++ dummies ++ (tagBarrier (cmd :: others) ++ rest)).takeWhile
      (fun c => decide (c.1.phase ≠ .barrier)) = front ++ dummies := by
    rw [List.takeWhile_append_of_pos hwarm, hcons, List.takeWhile_cons_of_neg (by simp),
      List.append_nil]
  have hdrop : afterWarmUp (front ++ dummies ++ (tagBarrier (cmd :: others) ++ rest)) =
      tagBarrier (cmd :: others) ++ rest := by
    rw [afterWarmUp, List.dropWhile_append_of_pos hwarm, hcons]
    exact List.dropWhile_cons_of_neg (by simp)
  have hkeep : (front ++ dummies).filter (fun c => decide (c.1.phase ≠ .scoreMac)) = front := by
    have hall : front.filter (fun c => decide (c.1.phase ≠ .scoreMac)) = front := by
      refine List.filter_eq_self.mpr ?_
      intro c hc
      rw [hfront c hc]
      rfl
    have hnone : dummies.filter (fun c => decide (c.1.phase ≠ .scoreMac)) = [] := by
      refine List.filter_eq_nil_iff.mpr ?_
      intro c hc
      rw [hdummies c hc]
      decide
    rw [List.filter_append, hall, hnone, List.append_nil]
  rw [withoutDummies, htake, hdrop, hkeep]

/-- The kinds of a pair. -/
def pairKinds (i : ℕ) : List Kind :=
  [(.scoreWrgb, i), (.scoreMac, i), (.scoreMvsb, i), (.sfm, i), (.contextMvgb, i),
    (.contextMac, i), (.contextMvsb, i), (.scoreWrgb, i + 1), (.scoreMac, i + 1),
    (.scoreMvsb, i + 1), (.sfm, i + 1), (.contextMvgb, i + 1), (.barrier, 0)]

theorem phase_of_dummyMacs {n : ℕ} {dummies : List (Tag × α)}
    (h : (it.tag i).dummyMacs n = .ok dummies) : ∀ c ∈ dummies, c.1.phase = .scoreMac := by
  intro c hc
  rw [Iteration.dummyMacs] at h
  split_ifs at h
  · obtain ⟨j, -, hj⟩ := exists_of_mem_mapM h c hc
    obtain ⟨row, hrow, hc⟩ := bind_ok_iff.mp hj
    exact (mem_tagRows (List.mem_of_getElem? (index_eq_ok.mp hrow)) c
      (List.mem_of_getElem? (index_eq_ok.mp hc))).1
  · obtain rfl := Except.ok.inj h
    exact absurd hc List.not_mem_nil

/-- **A pair is in order.** -/
theorem ordered_emitPair
    (hrows : ∀ (j : ℕ) (it : Iteration α), cmds[j]? = some it → it.scoreMac.length = g.seqRows a)
    (h : g.emitPair a (tagBarrier barrier) (tagAll cmds) i = .ok out) :
    ∃ front dummies body, out = front ++ dummies ++ (tagBarrier barrier ++ body) ∧
      (∀ c ∈ front, c.1.phase = .scoreWrgb) ∧ (∀ c ∈ dummies, c.1.phase = .scoreMac) ∧
      (i ≠ 0 → dummies = []) ∧
      DependencyOrdered g a cmds (tagBarrier barrier) (front ++ (tagBarrier barrier ++ body)) ∧
      Kinds (pairKinds i) (front ++ (tagBarrier barrier ++ body)) := by
  obtain ⟨head0, hhead0, h⟩ := bind_ok_iff.mp h
  obtain ⟨head1, hhead1, h⟩ := bind_ok_iff.mp h
  obtain ⟨dummies, hdummies, h⟩ := bind_ok_iff.mp h
  obtain ⟨score0, hscore0, h⟩ := bind_ok_iff.mp h
  obtain ⟨score1, hscore1, h⟩ := bind_ok_iff.mp h
  obtain ⟨context0, hcontext0, h⟩ := bind_ok_iff.mp h
  obtain ⟨context1, hcontext1, h⟩ := bind_ok_iff.mp h
  obtain rfl := Except.ok.inj h
  obtain ⟨-, it0, hit0, rfl⟩ := index_tagAll hhead0
  obtain ⟨-, it1, hit1, rfl⟩ := index_tagAll hhead1
  obtain ⟨hordered0, hkinds0, hfollowed0⟩ :=
    ordered_score0 hit0 (hrows i it0 hit0) hscore0
  obtain ⟨hordered1, hkinds1, hfollowed1⟩ := ordered_score1 hit1 (hrows _ it1 hit1) hscore1
  obtain ⟨hordered2, hkinds2⟩ := ordered_context0 hit0 hcontext0
  obtain ⟨hordered3, hkinds3⟩ := ordered_context1 hit0 hcontext1
  have hwrgb :
      Kinds [(.scoreWrgb, i), (.barrier, 0)] ((it0.tag i).scoreWrgb ++ tagBarrier barrier) :=
    kind_tagRow.append kind_barrier
  -- The loops follow each other; the vectors are followed by a barrier.
  have hcontext := hordered2.append_of_not hordered3 hkinds2 hkinds3
    (by simp [Later, Kind.Feeds, Kind.Softmax]) (by simp [Kind.Feeds])
  have hscore1' := hordered1.append hcontext hkinds1 (hkinds2.append hkinds3)
    (by simp [Later, Kind.Feeds, Kind.Softmax])
    (hfollowed1.mono (feeds_only hkinds1 (hkinds2.append hkinds3) (by simp [Kind.Feeds])))
  have hbody := hordered0.append hscore1' hkinds0 (hkinds1.append (hkinds2.append hkinds3))
    (by simp [Later, Kind.Feeds, Kind.Softmax])
    (hfollowed0.mono (feeds_only hkinds0 (hkinds1.append (hkinds2.append hkinds3))
      (by simp [Kind.Feeds])))
  have hfront := (DependencyOrdered.of_kinds hwrgb (by simp [Later, Kind.Feeds, Kind.Softmax])
    (by simp)).append hbody hwrgb (hkinds0.append (hkinds1.append (hkinds2.append hkinds3)))
    (by simp [Later, Kind.Feeds, Kind.Softmax]) 
    ((followed_append_fence ?_).mono (feeds_only hwrgb
      (hkinds0.append (hkinds1.append (hkinds2.append hkinds3))) (k := (.scoreWrgb, i))
      (by simp [Kind.Feeds])))
  · refine ⟨(it0.tag i).scoreWrgb, dummies, score0 ++ (score1 ++ (context0 ++ context1)), ?_, ?_,
      phase_of_dummyMacs hdummies, ?_, ?_, ?_⟩
    · simp
    · exact fun c hc => (mem_tagRow hc).1
    · intro hi
      rw [Iteration.dummyMacs, if_neg hi] at hdummies
      exact (Except.ok.inj hdummies).symm
    · rw [← List.append_assoc]
      exact hfront
    · rw [← List.append_assoc]
      exact (hwrgb.append (hkinds0.append (hkinds1.append (hkinds2.append hkinds3)))).mono
        (by simp [pairKinds])
  · intro c hc
    rw [List.mem_singleton.mp (kind_barrier c hc)]
    simp

/-- **A last iteration is in order.** -/
theorem ordered_emitLast
    (hrows : ∀ (j : ℕ) (it : Iteration α), cmds[j]? = some it → it.scoreMac.length = g.seqRows a)
    (h : g.emitLast a (tagBarrier barrier) (tagAll cmds) i = .ok out) :
    ∃ front body, out = front ++ (tagBarrier barrier ++ body) ∧
      (∀ c ∈ front, c.1.phase = .scoreWrgb) ∧
      DependencyOrdered g a cmds (tagBarrier barrier) out ∧ Kinds (pairKinds i) out := by
  obtain ⟨head, hhead, h⟩ := bind_ok_iff.mp h
  obtain ⟨score, hscore, h⟩ := bind_ok_iff.mp h
  obtain ⟨context, hcontext, h⟩ := bind_ok_iff.mp h
  obtain rfl := Except.ok.inj h
  obtain ⟨-, it, hit, rfl⟩ := index_tagAll hhead
  obtain ⟨hordered0, hkinds0⟩ := ordered_scoreLast hit (hrows i it hit) hscore
  obtain ⟨hordered1, hkinds1⟩ := ordered_context1 (g := g) (a := a) hit hcontext
  have hwrgb :
      Kinds [(.scoreWrgb, i), (.barrier, 0)] ((it.tag i).scoreWrgb ++ tagBarrier barrier) :=
    kind_tagRow.append kind_barrier
  have hsfm : Kinds [(.sfm, i)] (it.tag i).sfm := kind_tagRow
  have hmvgb : Kinds [(.contextMvgb, i), (.barrier, 0)]
      ((it.tag i).contextMvgb ++ tagBarrier barrier) := kind_tagRow.append kind_barrier
  have hfence : ∀ {k : Kind}, k.1 ≠ .barrier → ∀ c ∈ tagBarrier barrier, ¬kind c = k := by
    intro k hk c hc heq
    rw [List.mem_singleton.mp (kind_barrier c hc)] at heq
    exact hk (heq ▸ rfl)
  -- put together from the back, each part with the fence that the parts behind it need
  have hmvgb' := (DependencyOrdered.of_kinds hmvgb (by simp [Later, Kind.Feeds, Kind.Softmax])
    (by simp)).append hordered1 hmvgb hkinds1 (by simp [Later, Kind.Feeds, Kind.Softmax])
    ((followed_append_fence (hfence (k := (.contextMvgb, i)) nofun)).mono
      (feeds_only hmvgb hkinds1 (by simp [Kind.Feeds])))
  have hsfm' := (DependencyOrdered.of_kinds hsfm (by simp [Later, Kind.Feeds, Kind.Softmax])
    (by simp)).append_of_not hmvgb' hsfm (hmvgb.append hkinds1)
    (by simp [Later, Kind.Feeds, Kind.Softmax]) (by simp [Kind.Feeds])
  have hbody := hordered0.append_of_not hsfm' hkinds0 (hsfm.append (hmvgb.append hkinds1))
    (by simp [Later, Kind.Feeds, Kind.Softmax]) (by simp [Kind.Feeds])
  have hkinds := hkinds0.append (hsfm.append (hmvgb.append hkinds1))
  have hfront := (DependencyOrdered.of_kinds hwrgb (by simp [Later, Kind.Feeds, Kind.Softmax])
    (by simp)).append hbody hwrgb hkinds (by simp [Later, Kind.Feeds, Kind.Softmax])
    ((followed_append_fence (hfence (k := (.scoreWrgb, i)) nofun)).mono
      (feeds_only hwrgb hkinds (by simp [Kind.Feeds])))
  have hout : (it.tag i).scoreWrgb ++ tagBarrier barrier ++ score ++ (it.tag i).sfm ++
      (it.tag i).contextMvgb ++ tagBarrier barrier ++ context =
      (it.tag i).scoreWrgb ++ tagBarrier barrier ++
        (score ++ ((it.tag i).sfm ++
          ((it.tag i).contextMvgb ++ tagBarrier barrier ++ context))) := by
    simp
  refine ⟨(it.tag i).scoreWrgb, score ++ ((it.tag i).sfm ++
    ((it.tag i).contextMvgb ++ tagBarrier barrier ++ context)), by simp, ?_, ?_, ?_⟩
  · exact fun c hc => (mem_tagRow hc).1
  · rw [hout]
    exact hfront
  · rw [hout]
    exact (hwrgb.append hkinds).mono (by simp [pairKinds])

end Loops

/-! ## The whole trace -/

section Whole

variable {g : Generator} {a : Args} {cmds : List (Iteration α)} {barrier : List α}

/-- A block holds barriers, and commands of its own iterations. -/
def OfBlock (p : ℕ) (block : List (Tag × α)) : Prop :=
  ∀ c ∈ block, c.1.phase = .barrier ∨ c.1.itr / 2 = p

theorem ofBlock_of_kinds {p i : ℕ} {block : List (Tag × α)} (hi : i = 2 * p)
    (h : Kinds (pairKinds i) block) : OfBlock p block := by
  intro c hc
  have hkind := h c hc
  simp only [pairKinds, kind, List.mem_cons, Prod.mk.injEq, List.not_mem_nil, or_false] at hkind
  rcases hkind with h | h | h | h | h | h | h | h | h | h | h | h | h
  all_goals first
    | exact .inl h.1
    | exact .inr (by omega)

/-- Blocks in order make up a trace in order. -/
theorem ordered_blocks {ps : List ℕ} {blocks : List (List (Tag × α))}
    (h : List.Forall₂ (fun p block => DependencyOrdered g a cmds (tagBarrier barrier) block ∧
      OfBlock p block) ps blocks) (hps : ps.Nodup) :
    DependencyOrdered g a cmds (tagBarrier barrier) blocks.flatten ∧
      ∀ c ∈ blocks.flatten, c.1.phase = .barrier ∨ c.1.itr / 2 ∈ ps := by
  induction h with
  | nil =>
    refine ⟨.of_kinds (K := []) (fun _ hc => absurd hc List.not_mem_nil) ?_ ?_, ?_⟩
    · exact fun _ hy => absurd hy List.not_mem_nil
    · exact fun _ hk => absurd hk List.not_mem_nil
    · exact fun _ hc => absurd hc List.not_mem_nil
  | @cons p block ps blocks hblock _ ih =>
    obtain ⟨hp, hps⟩ := List.nodup_cons.mp hps
    obtain ⟨hrest, hitrs⟩ := ih hps
    obtain ⟨hordered, hof⟩ := hblock
    rw [List.flatten_cons]
    refine ⟨hordered.append_of_itr hrest ?_, ?_⟩
    · intro x hx y hy
      rcases hof x hx with hbarrier | hxp
      · exact .inl hbarrier
      · rcases hitrs y hy with hbarrier | hyps
        · exact .inr (.inl hbarrier)
        · refine .inr (.inr ?_)
          intro hitr
          rw [← hitr, hxp] at hyps
          exact hp hyps
    · intro c hc
      rcases List.mem_append.mp hc with hc | hc
      · rcases hof c hc with hbarrier | hcp
        · exact .inl hbarrier
        · exact .inr (hcp ▸ List.mem_cons_self)
      · rcases hitrs c hc with hbarrier | hmem
        · exact .inl hbarrier
        · exact .inr (List.mem_cons_of_mem _ hmem)

/-- The pairs but for the first are blocks. -/
theorem blocks_of_pairs (hrows : ∀ (j : ℕ) (it : Iteration α), cmds[j]? = some it →
      it.scoreMac.length = g.seqRows a) {ps : List ℕ} (hpos : ∀ p ∈ ps, p ≠ 0)
    {pairs : List (List (Tag × α))} (hpairs : List.Forall₂
      (fun p out => g.emitPair a (tagBarrier barrier) (tagAll cmds) (2 * p) = .ok out) ps pairs) :
    List.Forall₂ (fun p block => DependencyOrdered g a cmds (tagBarrier barrier) block ∧
      OfBlock p block) ps pairs := by
  induction hpairs with
  | nil => exact .nil
  | @cons p out ps pairs hpair _ ih =>
    obtain ⟨hp, hpos⟩ := List.forall_mem_cons.mp hpos
    refine .cons ?_ (ih hpos)
    obtain ⟨front, dummies, body, rfl, -, -, hnone, hordered, hkinds⟩ :=
      ordered_emitPair hrows hpair
    rw [hnone (by omega), List.append_nil]
    exact ⟨hordered, ofBlock_of_kinds rfl hkinds⟩

/-- The tail is a block, and without dummies. -/
theorem block_of_tail (hbarrier : barrier ≠ []) (hrows : ∀ (j : ℕ) (it : Iteration α),
      cmds[j]? = some it → it.scoreMac.length = g.seqRows a) {tail : List (Tag × α)}
    (h : g.emitTail a (tagBarrier barrier) (tagAll cmds) = .ok tail) :
    (DependencyOrdered g a cmds (tagBarrier barrier) tail ∧ OfBlock (a.numItr / 2) tail) ∧
      withoutDummies tail = tail := by
  rw [Generator.emitTail] at h
  split_ifs at h with hodd
  · obtain ⟨front, body, rfl, hfront, hordered, hkinds⟩ := ordered_emitLast hrows h
    refine ⟨⟨hordered, ofBlock_of_kinds (by omega) hkinds⟩, ?_⟩
    have hwithout : withoutDummies (front ++ [] ++ (tagBarrier barrier ++ body)) =
        front ++ (tagBarrier barrier ++ body) :=
      withoutDummies_append hbarrier hfront fun c hc => absurd hc List.not_mem_nil
    rwa [List.append_nil] at hwithout
  · obtain rfl := Except.ok.inj h
    refine ⟨⟨.of_kinds (K := []) (fun _ hc => absurd hc List.not_mem_nil) ?_ ?_, ?_⟩, rfl⟩
    · exact fun _ hy => absurd hy List.not_mem_nil
    · exact fun _ hk => absurd hk List.not_mem_nil
    · exact fun _ hc => absurd hc List.not_mem_nil

/-- **An emitted trace is in order.** -/
theorem ordered_emit (hbarrier : barrier ≠ []) (hrows : ∀ (j : ℕ) (it : Iteration α),
      cmds[j]? = some it → it.scoreMac.length = g.seqRows a) {trace : List (Tag × α)}
    (h : g.emit a (tagBarrier barrier) (tagAll cmds) = .ok trace) :
    DependencyOrdered g a cmds (tagBarrier barrier) (withoutDummies trace) := by
  obtain ⟨pairs, hpairs, h⟩ := bind_ok_iff.mp h
  obtain ⟨tail, htail, h⟩ := bind_ok_iff.mp h
  obtain rfl := Except.ok.inj h
  obtain ⟨hlast, htailDummies⟩ := block_of_tail hbarrier hrows htail
  have hpairs := mapM_ok_iff.mp hpairs
  generalize hn : a.numItr / 2 = n at hpairs hlast
  cases n with
  | zero =>
    obtain rfl := List.forall₂_nil_left_iff.mp hpairs
    rw [List.flatten_nil, List.nil_append, htailDummies]
    exact hlast.1
  | succ n =>
    rw [List.range_succ_eq_map] at hpairs
    obtain ⟨out, rest, hout, hrest, rfl⟩ := List.forall₂_cons_left_iff.mp hpairs
    obtain ⟨front, dummies, body, rfl, hfront, hdummies, -, hordered, hkinds⟩ :=
      ordered_emitPair hrows hout
    -- only the first pair has dummies, so the other blocks are as they are
    have hblocks := List.rel_append (blocks_of_pairs hrows (by simp) hrest)
      (List.Forall₂.cons hlast .nil)
    have hfirst :
        DependencyOrdered g a cmds (tagBarrier barrier) (front ++ (tagBarrier barrier ++ body)) ∧
        OfBlock 0 (front ++ (tagBarrier barrier ++ body)) :=
      ⟨hordered, ofBlock_of_kinds rfl hkinds⟩
    have hnodup : (0 :: ((List.range n).map Nat.succ ++ [n + 1])).Nodup := by
      have hrange : 0 :: ((List.range n).map Nat.succ ++ [n + 1]) = List.range (n + 2) := by
        rw [List.range_succ, List.range_succ_eq_map, List.cons_append]
      rw [hrange]
      exact List.nodup_range
    obtain ⟨htrace, -⟩ := ordered_blocks (.cons hfirst hblocks) hnodup
    have hsplit : ((front ++ dummies ++ (tagBarrier barrier ++ body)) :: rest).flatten ++ tail =
        front ++ dummies ++ (tagBarrier barrier ++ (body ++ (rest ++ [tail]).flatten)) := by
      simp
    rw [hsplit, withoutDummies_append hbarrier hfront hdummies]
    simpa using htrace

end Whole

/-- **The dependency order of a trace**: for every generator and all arguments for which it
writes a trace, the trace without its dummy MACs is in order. Moves come behind the MACs that
they drain, and MACs behind the vectors that they work on, in both cases with a barrier of all
16 channels between; and the softmax is between the score moves and the context vector. -/
theorem dependency_order (g : Generator) (a : Args) {cmds : List (Iteration Command)}
    {trace : List Command} (h : g.runAttention a [] = .ok (cmds, trace)) :
    ∃ tagged, g.emit a (tagBarrier Generator.barrier) (tagAll cmds) = .ok tagged ∧
      tagged.map Prod.snd = trace ∧
      DependencyOrdered g a cmds (tagBarrier Generator.barrier) (withoutDummies tagged) := by
  obtain ⟨rfl, -, tagged, hout, htrace⟩ := exists_tagged h
  refine ⟨tagged, hout, htrace, ordered_emit (by decide) ?_ hout⟩
  intro j it hit
  rw [List.getElem?_map] at hit
  obtain ⟨itr, -, rfl⟩ := Option.map_eq_some_iff.mp hit
  simp [Generator.iteration, Generator.commands]

/-- The trace of 33 heads, a pair and a last one, is in order. -/
theorem dependency_order_thirty_three : ∃ cmds trace tagged,
    bank.runAttention (shortArgs 33) [] = .ok (cmds, trace) ∧ tagged.map Prod.snd = trace ∧
      DependencyOrdered bank (shortArgs 33) cmds (tagBarrier Generator.barrier)
        (withoutDummies tagged) := by
  obtain ⟨cmds, trace, hrun⟩ := exists_run_short 33 (by decide +kernel)
  obtain ⟨tagged, -, htrace, hordered⟩ := dependency_order bank (shortArgs 33) hrun
  exact ⟨cmds, trace, tagged, hrun, htrace, hordered⟩

end AttAcc.Trace
