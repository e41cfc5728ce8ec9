import AttAcc.Controller.Tick

/-!
# What a pass can do

A pass only drops barriers from the heads of buffers and sets its two flags; where it finds a
request, that one is eligible, ready and of the type that is asked for.
-/

namespace AttAcc.Controller

open Dram (Command)

variable {D : Device} {w : Watermarks} {s s' s'' : State D}

/-- Barriers may be gone from the head of a list of requests. -/
def Dropped (before after : List Request) : Prop :=
  ∃ barriers : List Request, (∀ r ∈ barriers, r.isBarrier = true) ∧ before = barriers ++ after

theorem Dropped.refl (l : List Request) : Dropped l l := ⟨[], by simp, rfl⟩

theorem Dropped.trans {a b c : List Request} (h : Dropped a b) (h' : Dropped b c) :
    Dropped a c := by
  obtain ⟨front, hfront, rfl⟩ := h
  obtain ⟨back, hback, rfl⟩ := h'
  refine ⟨front ++ back, ?_, (List.append_assoc _ _ _).symm⟩
  intro r hr
  rcases List.mem_append.mp hr with hr | hr
  · exact hfront r hr
  · exact hback r hr

theorem dropped_dropBarrier (l : List Request) : Dropped l (dropBarrier l) := by
  rcases dropBarrier_eq_or l with heq | ⟨head, hbarrier, hcons⟩
  · rw [heq]
    exact .refl l
  · refine ⟨[head], ?_, hcons⟩
    intro r hr
    rw [List.mem_singleton.mp hr]
    exact hbarrier

/-- Nothing but heads of buffers and the flags of the passes has changed. -/
structure Pruned (s s' : State D) : Prop where
  clk : s'.clk = s.clk
  pending : s'.pending = s.pending
  dram : s'.dram = s.dram
  accepted : s'.accepted = s.accepted
  log : s'.log = s.log
  maxSize : ∀ id, (s'.buffers id).maxSize = (s.buffers id).maxSize
  buffer : ∀ id, Dropped (s.buffer id) (s'.buffer id)

theorem Pruned.refl (s : State D) : Pruned s s :=
  ⟨rfl, rfl, rfl, rfl, rfl, fun _ => rfl, fun _ => .refl _⟩

theorem Pruned.trans (h : Pruned s s') (h' : Pruned s' s'') : Pruned s s'' where
  clk := h'.clk.trans h.clk
  pending := h'.pending.trans h.pending
  dram := h'.dram.trans h.dram
  accepted := h'.accepted.trans h.accepted
  log := h'.log.trans h.log
  maxSize id := (h'.maxSize id).trans (h.maxSize id)
  buffer id := (h.buffer id).trans (h'.buffer id)

namespace State

@[simp]
theorem buffers_setBuffer_self (id : BufferId) (b : ReqBuffer) :
    (s.setBuffer id b).buffers id = b := Function.update_self _ _ _

theorem buffers_setBuffer_of_ne {id id' : BufferId} (h : id' ≠ id) (b : ReqBuffer) :
    (s.setBuffer id b).buffers id' = s.buffers id' := Function.update_of_ne h _ _

/-- A buffer that the scheduler has looked at has lost the barrier at its head. -/
theorem buffer_prune (id : BufferId) : (s.prune id).buffer id = dropBarrier (s.buffer id) := by
  rw [buffer, prune, buffers_setBuffer_self]
  exact getBestRequest_fst _

theorem pruned_prune (s : State D) (id : BufferId) : Pruned s (s.prune id) := by
  refine ⟨rfl, rfl, rfl, rfl, rfl, ?_, ?_⟩
  · intro id'
    rcases eq_or_ne id' id with rfl | hne
    · rw [prune, buffers_setBuffer_self]
    · rw [prune, buffers_setBuffer_of_ne hne]
  · intro id'
    rcases eq_or_ne id' id with rfl | hne
    · rw [buffer_prune]
      exact dropped_dropBarrier _
    · rw [buffer, buffer, prune, buffers_setBuffer_of_ne hne]
      exact .refl _

theorem pruned_isPim (s : State D) (b : Bool) : Pruned s { s with isPim := b } :=
  ⟨rfl, rfl, rfl, rfl, rfl, fun _ => rfl, fun _ => .refl _⟩

theorem setWriteMode_eq (s : State D) :
    ∃ b, s.setWriteMode w = { s with isWriteMode := b } := by
  simp only [setWriteMode]
  split_ifs
  · exact ⟨_, rfl⟩
  · exact ⟨s.isWriteMode, rfl⟩
  · exact ⟨_, rfl⟩
  · exact ⟨s.isWriteMode, rfl⟩

/-- The best request of a buffer is in it once the buffer is pruned, with its command. -/
theorem best_eq_some {id : BufferId} {c : Cursor} (h : s.best id = some c) :
    c.id = id ∧ c.command = command s.dram c.req ∧
      Eligible s.dram ((s.prune id).buffer id) (c.pos, c.req) := by
  obtain ⟨it, hit, rfl⟩ := Option.map_eq_some_iff.mp h
  refine ⟨rfl, rfl, ?_⟩
  rw [buffer_prune]
  exact getBestRequest_eligible hit

end State

/-- What is known of a request that a pass has found, in the state that the pass leaves. -/
structure Chosen (s : State D) (fits : Command → Bool) (c : Cursor) : Prop where
  command : c.command = Controller.command s.dram c.req
  eligible : Eligible s.dram (s.buffer c.id) (c.pos, c.req)
  ready : s.isReady c = true
  fits : fits c.command = true
  /-- A request of the PIM buffer is known as one. -/
  isPim : c.id = .pim → s.isPim = true

namespace State

variable {fits : Command → Bool}

/-- What a stage of the cascade does. -/
def StageSpec (s : State D) (fits : Command → Bool) (r : State D × Outcome) : Prop :=
  Pruned s r.1 ∧ ∀ c, r.2 = .found c → Chosen r.1 fits c

theorem StageSpec.of_pruned {r : State D × Outcome} (hpruned : Pruned s s')
    (h : StageSpec s' fits r) : StageSpec s fits r :=
  ⟨hpruned.trans h.1, h.2⟩

/-- A stage ends at the best request of a buffer. -/
theorem chosen_of_best {id : BufferId} {c : Cursor} (h : s.best id = some c)
    (htakes : (fits c.command && s.isReady c) = true) (hid : id ≠ .pim) :
    Chosen (s.prune id) fits c := by
  obtain ⟨rfl, hcommand, heligible⟩ := best_eq_some h
  obtain ⟨hfits, hready⟩ := Bool.and_eq_true_iff.mp htakes
  exact ⟨hcommand, heligible, hready, hfits, fun hpim => absurd hpim hid⟩

theorem scheduleReadWrite_spec (s : State D) : StageSpec s fits (s.scheduleReadWrite w fits) := by
  obtain ⟨b, hb⟩ := s.setWriteMode_eq (w := w)
  have hmode : Pruned s (s.setWriteMode w) := by
    rw [hb]
    exact ⟨rfl, rfl, rfl, rfl, rfl, fun _ => rfl, fun _ => .refl _⟩
  refine .of_pruned hmode ?_
  rw [scheduleReadWrite]
  generalize s.setWriteMode w = s
  have hid : (if s.isWriteMode then BufferId.write else .read) ≠ .pim := by
    split_ifs
    · decide
    · decide
  generalize (if s.isWriteMode then BufferId.write else .read) = id at hid
  cases hbest : s.best id with
  | none => exact ⟨s.pruned_prune id, fun c hc => by cases hc⟩
  | some c =>
    simp only
    refine ⟨s.pruned_prune id, ?_⟩
    intro c' hc'
    split_ifs at hc' with htakes
    · obtain rfl := Outcome.found.inj hc'
      exact chosen_of_best hbest htakes hid

theorem schedulePim_spec (s : State D) : StageSpec s fits (s.schedulePim w fits) := by
  refine .of_pruned (s.pruned_isPim false) ?_
  rw [schedulePim]
  generalize ({ s with isPim := false } : State D) = s
  cases hbest : s.best .pim with
  | none =>
    simp only
    exact .of_pruned (s.pruned_prune .pim) (scheduleReadWrite_spec _)
  | some c =>
    simp only
    split_ifs with htakes
    · refine ⟨(s.pruned_prune .pim).trans (pruned_isPim _ true), ?_⟩
      intro c' hc'
      obtain rfl := Outcome.found.inj hc'
      obtain ⟨hid, hcommand, heligible⟩ := best_eq_some hbest
      obtain ⟨hfits, hready⟩ := Bool.and_eq_true_iff.mp htakes
      have hpim : Eligible s.dram ((s.prune .pim).buffer c.id) (c.pos, c.req) := by
        rw [hid]
        exact heligible
      exact ⟨hcommand, hpim, hready, hfits, fun _ => rfl⟩
    · exact .of_pruned (s.pruned_prune .pim) (scheduleReadWrite_spec _)

theorem schedulePriority_spec (s : State D) : StageSpec s fits (s.schedulePriority w fits) := by
  rw [schedulePriority]
  cases hbuffer : s.buffer .priority with
  | nil => exact schedulePim_spec s
  | cons req rest =>
    simp only
    split_ifs with hfits hready
    · refine ⟨s.pruned_isPim false, ?_⟩
      intro c' hc'
      obtain rfl := Outcome.found.inj hc'
      refine ⟨rfl, ⟨?_, .inl ?_⟩, hready, hfits, fun hpim => by cases hpim⟩
      · show (s.buffer .priority)[0]? = some req
        rw [hbuffer]
        rfl
      · intro j r hj hle _
        exact absurd hle (Nat.not_le.mpr hj)
    · exact ⟨.refl s, fun c' hc' => by cases hc'⟩
    · exact schedulePim_spec s

theorem scheduleActive_spec (s : State D) (w : Watermarks) (fits : Command → Bool) :
    StageSpec s fits (s.scheduleActive w fits) := by
  rw [scheduleActive]
  cases hbest : s.best .active with
  | none => exact .of_pruned (s.pruned_prune .active) (schedulePriority_spec _)
  | some c =>
    simp only
    split_ifs with htakes
    · refine ⟨s.pruned_prune .active, ?_⟩
      intro c' hc'
      obtain rfl := Outcome.found.inj hc'
      exact chosen_of_best hbest htakes (by decide)
    · exact .of_pruned (s.pruned_prune .active) (schedulePriority_spec _)

/-- **What a pass can do**: it prunes buffers, and what it finds to serve is eligible, ready
and fits. -/
theorem schedule_spec (s : State D) (w : Watermarks) (fits : Command → Bool) :
    StageSpec s fits (s.schedule w fits) := by
  have hactive := s.scheduleActive_spec w fits
  rw [schedule]
  rcases hpass : s.scheduleActive w fits with ⟨s', c | reqIt⟩
  · rw [hpass] at hactive
    refine ⟨hactive.1, ?_⟩
    intro c' hc'
    simp only at hc'
    split_ifs at hc' with hinterrupts
    · obtain rfl := Outcome.found.inj hc'
      exact hactive.2 c rfl
  · rw [hpass] at hactive
    exact ⟨hactive.1, fun c' hc' => by cases hc'⟩

end State

end AttAcc.Controller
