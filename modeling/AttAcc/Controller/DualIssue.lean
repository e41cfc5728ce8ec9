import AttAcc.Controller.Barrier

/-!
# Dual issue

A cycle may issue a second command, if the first is a row command and the second a column
command or the other way round. The second pass compares its candidates with the command of
`req_it`, where the first pass has ended, and does not ask whether that command was issued.
So it may issue a command alone, such as a PIM command while a refresh waits (`guarded_iff`).

`Serves` says in terms of the buffers which request a pass finds.
-/

namespace AttAcc.Controller

open Dram (Command)

variable {D : Device} {w : Watermarks} {s s' : State D} {fits : Command → Bool} {c : Cursor}

/-- One of two commands is a row command and the other a column command. -/
def OppositeKinds (first second : Command) : Prop :=
  getCommandType first = some .row ∧ getCommandType second = some .col ∨
    getCommandType first = some .col ∧ getCommandType second = some .row

theorem oppositeKinds_iff {first second : Command} :
    compareCommandType (some first) second = true ↔ OppositeKinds first second := by
  rw [compareCommandType, Option.bind_some, OppositeKinds]
  rcases getCommandType first with _ | _ | _
  · simp
  · rcases getCommandType second with _ | _ | _
    · simp
    · simp
    · simp
  · rcases getCommandType second with _ | _ | _
    · simp
    · simp
    · simp

/-! ## Which request a pass finds -/

/-- The best request of a buffer fits and is ready. -/
def Offers (s : State D) (fits : Command → Bool) (id : BufferId) (c : Cursor) : Prop :=
  s.best id = some c ∧ (fits c.command && s.isReady c) = true

/-- The buffer of reads or of writes, after `set_write_mode`. -/
def readWriteId (w : Watermarks) (s : State D) : BufferId :=
  if (s.setWriteMode w).isWriteMode then .write else .read

/-- The head of the priority buffer, as a request to serve. -/
def headCursor (s : State D) (req : Request) : Cursor := ⟨.priority, 0, req, command s.dram req⟩

/-- The request that the cascade over the buffers reaches. -/
inductive Reaches (w : Watermarks) (s : State D) (fits : Command → Bool) : Cursor → Prop where
  | active {c : Cursor} : Offers s fits .active c → Reaches w s fits c
  | priority {req : Request} {rest : List Request} : (∀ c, ¬Offers s fits .active c) →
      s.buffer .priority = req :: rest → fits (headCursor s req).command = true →
      s.isReady (headCursor s req) = true → Reaches w s fits (headCursor s req)
  | pim {c : Cursor} : (∀ c, ¬Offers s fits .active c) →
      (∀ req rest, s.buffer .priority = req :: rest →
        fits (headCursor s req).command = false) →
      Offers s fits .pim c → Reaches w s fits c
  | readWrite {c : Cursor} : (∀ c, ¬Offers s fits .active c) →
      (∀ req rest, s.buffer .priority = req :: rest →
        fits (headCursor s req).command = false) →
      (∀ c, ¬Offers s fits .pim c) → Offers s fits (readWriteId w s) c → Reaches w s fits c

/-- The command closes the row of a request in the active buffer. -/
def Interrupts (s : State D) (c : Cursor) : Prop :=
  c.command.isClosing = true ∧
    ∃ it ∈ dropBarrier (s.buffer .active), bankAddrVec it = bankAddrVec c.req

/-- The request that a pass finds. -/
def Serves (w : Watermarks) (s : State D) (fits : Command → Bool) (c : Cursor) : Prop :=
  Reaches w s fits c ∧ ¬Interrupts s c

/-- What the scheduler says of a buffer depends on the buffer and the device. -/
theorem offers_congr {id : BufferId} (hdram : s'.dram = s.dram)
    (hbuffer : s'.buffers id = s.buffers id) : Offers s' fits id c ↔ Offers s fits id c := by
  rw [Offers, Offers, State.best, State.best, State.buffer, State.buffer, State.isReady,
    State.isReady, hdram, hbuffer]

/-- A stage of the cascade at a buffer ends there exactly if that offers a request. -/
theorem not_offers_of_none {id : BufferId} (h : s.best id = none) (c : Cursor) :
    ¬Offers s fits id c := by
  rintro ⟨hbest, -⟩
  rw [h] at hbest
  cases hbest

theorem not_offers_of_some {id : BufferId} {c : Cursor} (h : s.best id = some c)
    (hno : ¬(fits c.command && s.isReady c) = true) (c' : Cursor) : ¬Offers s fits id c' := by
  rintro ⟨hbest, htakes⟩
  rw [h] at hbest
  obtain rfl := Option.some.inj hbest
  exact hno htakes

theorem offers_unique {id : BufferId} {c c' : Cursor} (h : Offers s fits id c)
    (h' : Offers s fits id c') : c = c' :=
  Option.some.inj (h.1.symm.trans h'.1)

theorem readWriteId_congr (hread : s'.buffers .read = s.buffers .read)
    (hwrite : s'.buffers .write = s.buffers .write) (hmode : s'.isWriteMode = s.isWriteMode) :
    readWriteId w s' = readWriteId w s := by
  simp only [readWriteId, State.setWriteMode, State.buffer, hread, hwrite, hmode]
  split_ifs
  all_goals simp_all

theorem readWriteId_eq_or (w : Watermarks) (s : State D) :
    readWriteId w s = .write ∨ readWriteId w s = .read := by
  rw [readWriteId]
  split_ifs
  · exact .inl rfl
  · exact .inr rfl

theorem scheduleReadWrite_found_iff :
    (s.scheduleReadWrite w fits).2 = .found c ↔ Offers s fits (readWriteId w s) c := by
  obtain ⟨b, hb⟩ := s.setWriteMode_eq (w := w)
  have hoffers : Offers s fits (readWriteId w s) c ↔
      Offers (s.setWriteMode w) fits (readWriteId w s) c := by
    rw [hb]
    exact (offers_congr rfl rfl).symm
  have hid : (if (s.setWriteMode w).isWriteMode then BufferId.write else .read) =
      readWriteId w s := rfl
  rw [hoffers, State.scheduleReadWrite]
  simp only [hid]
  generalize s.setWriteMode w = s₁
  cases hbest : s₁.best (readWriteId w s) with
  | none =>
    refine iff_of_false ?_ (not_offers_of_none hbest c)
    simp
  | some c₁ =>
    simp only
    split_ifs with htakes
    · refine ⟨?_, ?_⟩
      · intro hc
        obtain rfl := Outcome.found.inj hc
        exact ⟨hbest, htakes⟩
      · intro hc
        rw [offers_unique ⟨hbest, htakes⟩ hc]
    · refine iff_of_false ?_ (not_offers_of_some hbest htakes c)
      simp

theorem schedulePim_found_iff : (s.schedulePim w fits).2 = .found c ↔
    Offers s fits .pim c ∨
      (∀ c', ¬Offers s fits .pim c') ∧ Offers s fits (readWriteId w s) c := by
  have hpim : ∀ c', Offers ({ s with isPim := false } : State D) fits .pim c' ↔
      Offers s fits .pim c' := fun c' => offers_congr rfl rfl
  -- Pruning the PIM buffer does not change what is read and written.
  have hread : (((({ s with isPim := false } : State D).prune .pim).scheduleReadWrite w fits).2 =
      .found c ↔ Offers s fits (readWriteId w s) c) := by
    rw [scheduleReadWrite_found_iff]
    have hne : ∀ {id : BufferId}, id ≠ .pim →
        (({ s with isPim := false } : State D).prune .pim).buffers id = s.buffers id :=
      fun hid => State.buffers_setBuffer_of_ne hid _
    rw [readWriteId_congr (hne (by decide)) (hne (by decide)) rfl]
    rcases readWriteId_eq_or w s with hid | hid
    · rw [hid]
      exact offers_congr rfl (hne (by decide))
    · rw [hid]
      exact offers_congr rfl (hne (by decide))
  rw [State.schedulePim]
  simp only [← hpim]
  generalize ({ s with isPim := false } : State D) = s₁ at hread
  cases hbest : s₁.best .pim with
  | none =>
    simp only
    rw [hread]
    simp only [not_offers_of_none hbest, false_or, not_false_eq_true, implies_true, true_and]
  | some c₁ =>
    simp only
    split_ifs with htakes
    · refine ⟨?_, ?_⟩
      · intro hc
        obtain rfl := Outcome.found.inj hc
        exact .inl ⟨hbest, htakes⟩
      · rintro (hc | ⟨hno, -⟩)
        · rw [offers_unique ⟨hbest, htakes⟩ hc]
        · exact absurd ⟨hbest, htakes⟩ (hno c₁)
    · rw [hread]
      simp only [not_offers_of_some hbest htakes, false_or, not_false_eq_true, implies_true,
        true_and]

theorem schedulePriority_found_iff : (s.schedulePriority w fits).2 = .found c ↔
    (∃ req rest, s.buffer .priority = req :: rest ∧ fits (headCursor s req).command = true ∧
      s.isReady (headCursor s req) = true ∧ c = headCursor s req) ∨
    (∀ req rest, s.buffer .priority = req :: rest → fits (headCursor s req).command = false) ∧
      (s.schedulePim w fits).2 = .found c := by
  rw [State.schedulePriority]
  cases hbuffer : s.buffer .priority with
  | nil => simp
  | cons req rest =>
    simp only [List.cons.injEq]
    show (if fits (headCursor s req).command = true then
      if s.isReady (headCursor s req) = true then
        (({ s with isPim := false } : State D), Outcome.found (headCursor s req))
      else (s, .stopped (some (headCursor s req)))
      else s.schedulePim w fits).2 = _ ↔ _
    split_ifs with hfits hready
    · refine ⟨?_, ?_⟩
      · intro hc
        exact .inl ⟨req, rest, ⟨rfl, rfl⟩, hfits, hready, (Outcome.found.inj hc).symm⟩
      · rintro (⟨_, _, ⟨rfl, rfl⟩, -, -, rfl⟩ | ⟨hno, -⟩)
        · rfl
        · rw [hno req rest ⟨rfl, rfl⟩] at hfits
          cases hfits
    · refine iff_of_false (by simp) ?_
      rintro (⟨_, _, ⟨rfl, rfl⟩, -, hready', -⟩ | ⟨hno, -⟩)
      · exact hready hready'
      · rw [hno req rest ⟨rfl, rfl⟩] at hfits
        cases hfits
    · have hfalse : fits (headCursor s req).command = false := Bool.eq_false_iff.mpr hfits
      refine ⟨?_, ?_⟩
      · intro hc
        refine .inr ⟨?_, hc⟩
        rintro _ _ ⟨rfl, rfl⟩
        exact hfalse
      · rintro (⟨_, _, ⟨rfl, rfl⟩, htrue, -, -⟩ | ⟨-, hc⟩)
        · exact absurd htrue hfits
        · exact hc

/-- Pruning the active buffer does not change what the other buffers offer. -/
theorem schedulePriority_prune_active :
    (((s.prune .active).schedulePriority w fits).2 = .found c ↔
      (s.schedulePriority w fits).2 = .found c) := by
  have hne : ∀ {id : BufferId}, id ≠ .active → (s.prune .active).buffers id = s.buffers id :=
    fun hid => State.buffers_setBuffer_of_ne hid _
  have hpriority : (s.prune .active).buffer .priority = s.buffer .priority := by
    rw [State.buffer, hne (by decide)]
  have hpim : ∀ c', Offers (s.prune .active) fits .pim c' ↔ Offers s fits .pim c' :=
    fun c' => offers_congr rfl (hne (by decide))
  have hreadWrite : Offers (s.prune .active) fits (readWriteId w s) c ↔
      Offers s fits (readWriteId w s) c := by
    rcases readWriteId_eq_or w s with hid | hid
    · rw [hid]
      exact offers_congr rfl (hne (by decide))
    · rw [hid]
      exact offers_congr rfl (hne (by decide))
  rw [schedulePriority_found_iff, schedulePriority_found_iff, schedulePim_found_iff,
    schedulePim_found_iff, hpriority,
    readWriteId_congr (hne (by decide)) (hne (by decide)) rfl, hreadWrite]
  simp only [hpim]
  rfl

/-- The cascade ends at the request that it reaches. -/
theorem scheduleActive_found_iff :
    (s.scheduleActive w fits).2 = .found c ↔ Reaches w s fits c := by
  -- the stages below the active buffer, once that offers nothing
  have hbelow : (∀ c', ¬Offers s fits .active c') →
      ((s.schedulePriority w fits).2 = .found c ↔ Reaches w s fits c) := by
    intro hno
    rw [schedulePriority_found_iff, schedulePim_found_iff]
    refine ⟨?_, ?_⟩
    · rintro (⟨req, rest, hbuffer, hfits, hready, rfl⟩ | ⟨hpasses, hpim | ⟨hnoPim, hreadWrite⟩⟩)
      · exact .priority hno hbuffer hfits hready
      · exact .pim hno hpasses hpim
      · exact .readWrite hno hpasses hnoPim hreadWrite
    · intro hreaches
      cases hreaches with
      | active hactive => exact absurd hactive (hno c)
      | priority _ hbuffer hfits hready => exact .inl ⟨_, _, hbuffer, hfits, hready, rfl⟩
      | pim _ hpasses hpim => exact .inr ⟨hpasses, .inl hpim⟩
      | readWrite _ hpasses hnoPim hreadWrite => exact .inr ⟨hpasses, .inr ⟨hnoPim, hreadWrite⟩⟩
  rw [State.scheduleActive]
  cases hbest : s.best .active with
  | none =>
    simp only
    rw [schedulePriority_prune_active]
    exact hbelow (not_offers_of_none hbest)
  | some c₁ =>
    simp only
    split_ifs with htakes
    · refine ⟨?_, ?_⟩
      · intro hc
        obtain rfl := Outcome.found.inj hc
        exact .active ⟨hbest, htakes⟩
      · intro hreaches
        have hoffers : Offers s fits .active c₁ := ⟨hbest, htakes⟩
        cases hreaches with
        | active hactive => rw [offers_unique hoffers hactive]
        | priority hno => exact absurd hoffers (hno c₁)
        | pim hno => exact absurd hoffers (hno c₁)
        | readWrite hno => exact absurd hoffers (hno c₁)
    · rw [schedulePriority_prune_active]
      exact hbelow (not_offers_of_some hbest htakes)

/-- The stages below the active buffer leave it alone. -/
theorem buffer_active_scheduleReadWrite (s : State D) :
    (s.scheduleReadWrite w fits).1.buffer .active = s.buffer .active := by
  obtain ⟨b, hb⟩ := s.setWriteMode_eq (w := w)
  have hid : BufferId.active ≠ readWriteId w s := by
    rcases readWriteId_eq_or w s with h | h
    · rw [h]
      decide
    · rw [h]
      decide
  have hprune : ((s.setWriteMode w).prune (readWriteId w s)).buffer .active = s.buffer .active := by
    rw [State.buffer, State.prune, State.buffers_setBuffer_of_ne hid, hb]
  have hmode : (if (s.setWriteMode w).isWriteMode then BufferId.write else .read) =
      readWriteId w s := rfl
  rw [State.scheduleReadWrite]
  simp only [hmode]
  cases (s.setWriteMode w).best (readWriteId w s) with
  | none => exact hprune
  | some c => exact hprune

theorem buffer_active_schedulePim (s : State D) :
    (s.schedulePim w fits).1.buffer .active = s.buffer .active := by
  have hprune : ∀ s₁ : State D, (s₁.prune .pim).buffer .active = s₁.buffer .active :=
    fun s₁ => congrArg ReqBuffer.buffer (State.buffers_setBuffer_of_ne (by decide) _)
  rw [State.schedulePim]
  cases hbest : ({ s with isPim := false } : State D).best .pim with
  | none => exact (buffer_active_scheduleReadWrite _).trans (hprune _)
  | some c =>
    simp only
    split_ifs
    · exact hprune _
    · exact (buffer_active_scheduleReadWrite _).trans (hprune _)

theorem buffer_active_schedulePriority (s : State D) :
    (s.schedulePriority w fits).1.buffer .active = s.buffer .active := by
  rw [State.schedulePriority]
  cases s.buffer .priority with
  | nil => exact buffer_active_schedulePim s
  | cons req rest =>
    simp only
    split_ifs
    · rfl
    · rfl
    · exact buffer_active_schedulePim s

theorem buffer_active_scheduleActive (s : State D) (w : Watermarks)
    (fits : Command → Bool) :
    (s.scheduleActive w fits).1.buffer .active = dropBarrier (s.buffer .active) := by
  rw [State.scheduleActive]
  cases s.best .active with
  | none => exact (buffer_active_schedulePriority _).trans (State.buffer_prune .active)
  | some c =>
    simp only
    split_ifs
    · exact State.buffer_prune .active
    · exact (buffer_active_schedulePriority _).trans (State.buffer_prune .active)

/-- **Which request a pass finds.** -/
theorem schedule_found_iff : (s.schedule w fits).2 = .found c ↔ Serves w s fits c := by
  have hactive := buffer_active_scheduleActive s w fits
  have hfound : ∀ c, (s.scheduleActive w fits).2 = .found c ↔ Reaches w s fits c :=
    fun c => scheduleActive_found_iff
  rw [Serves, ← hfound, State.schedule]
  rcases hpass : s.scheduleActive w fits with ⟨s₁, c₁ | reqIt⟩
  · rw [hpass] at hactive
    have hinterrupts : s₁.interrupts c₁ = true ↔ Interrupts s c₁ := by
      have hbuffer : s₁.buffer .active = dropBarrier (s.buffer .active) := hactive
      rw [State.interrupts, Interrupts, hbuffer]
      simp
    simp only
    split_ifs with hstop
    · refine iff_of_false (by simp) ?_
      rintro ⟨hc, hno⟩
      obtain rfl := Outcome.found.inj hc
      exact hno (hinterrupts.mp hstop)
    · refine ⟨?_, And.left⟩
      intro hc
      obtain rfl := Outcome.found.inj hc
      exact ⟨rfl, fun hstop' => hstop (hinterrupts.mpr hstop')⟩
  · simp

/-! ## Where the first pass ends -/

/-- A pass for any command. -/
abbrev anyCommand : Command → Bool := fun _ => true

/-- The PIM buffer and the ones below are looked at. -/
def lookedBelow (s : State D) : State D :=
  ({ s.prune .active with isPim := false } : State D).prune .pim

/-- What a pass that ends at a buffer has looked at. -/
def looked (w : Watermarks) (s : State D) : BufferId → State D
  | .active => s.prune .active
  | .priority => { s.prune .active with isPim := false }
  | .pim => { lookedBelow s with isPim := true }
  | .read | .write => ((lookedBelow s).setWriteMode w).prune (readWriteId w s)

/-- The command of `req_it` where the first pass has found nothing, and what it leaves: it
ends at the head of the priority buffer, which is not ready, at the best read or write, which
is not, or at a request that would interrupt one of the active buffer. -/
inductive StopsAt (w : Watermarks) (s : State D) (stale : Option Command) :
    Option Command → State D → Prop where
  | priority {req : Request} {rest : List Request} : (∀ c, ¬Offers s anyCommand .active c) →
      s.buffer .priority = req :: rest → s.isReady (headCursor s req) = false →
      StopsAt w s stale (some (headCursor s req).command) (s.prune .active)
  | readWrite : (∀ c, ¬Offers s anyCommand .active c) → s.buffer .priority = [] →
      (∀ c, ¬Offers s anyCommand .pim c) → (∀ c, ¬Offers s anyCommand (readWriteId w s) c) →
      StopsAt w s stale ((s.best (readWriteId w s)).elim stale fun c => some c.command)
        (looked w s (readWriteId w s))
  | interrupt {c : Cursor} : Reaches w s anyCommand c → Interrupts s c →
      StopsAt w s stale (some c.command) (looked w s c.id)

/-- The first pass ends at a request that it does not serve, and the second serves one of the
other type. -/
def SecondServes (w : Watermarks) (s : State D) (stale : Option Command) : Prop :=
  ∃ first after, StopsAt w s stale first after ∧
    ∃ c, Serves w after (compareCommandType first) c

theorem best_setWriteMode (s : State D) (id : BufferId) :
    (s.setWriteMode w).best id = s.best id := by
  obtain ⟨b, hb⟩ := s.setWriteMode_eq (w := w)
  rw [hb]
  rfl

/-- The stage of reads and writes, with the buffer that is picked. -/
theorem scheduleReadWrite_eq (s : State D) : s.scheduleReadWrite w fits =
    match s.best (readWriteId w s) with
    | some c => ((s.setWriteMode w).prune (readWriteId w s),
        if fits c.command && (s.setWriteMode w).isReady c then .found c else .stopped (some c))
    | none => ((s.setWriteMode w).prune (readWriteId w s), .stopped none) := by
  rw [← best_setWriteMode (w := w)]
  rfl

theorem isReady_setWriteMode (s : State D) (c : Cursor) :
    (s.setWriteMode w).isReady c = s.isReady c := by
  obtain ⟨b, hb⟩ := s.setWriteMode_eq (w := w)
  rw [hb]
  rfl

theorem scheduleReadWrite_stopped (stale : Option Command)
    (hno : ∀ c, ¬Offers s fits (readWriteId w s) c) :
    ∃ reqIt, s.scheduleReadWrite w fits =
        ((s.setWriteMode w).prune (readWriteId w s), .stopped reqIt) ∧
      (Outcome.stopped reqIt).command stale =
        (s.best (readWriteId w s)).elim stale fun c => some c.command := by
  rw [scheduleReadWrite_eq]
  cases hbest : s.best (readWriteId w s) with
  | none => exact ⟨none, rfl, rfl⟩
  | some c =>
    refine ⟨some c, ?_, rfl⟩
    simp only
    rw [isReady_setWriteMode, if_neg]
    intro htakes
    exact hno c ⟨hbest, htakes⟩

theorem scheduleReadWrite_of_offers (h : Offers s fits (readWriteId w s) c) :
    s.scheduleReadWrite w fits = ((s.setWriteMode w).prune (readWriteId w s), .found c) := by
  rw [scheduleReadWrite_eq, h.1]
  simp only
  rw [isReady_setWriteMode, if_pos h.2]

theorem schedulePim_of_not_offers (hno : ∀ c, ¬Offers s fits .pim c) :
    s.schedulePim w fits =
      (({ s with isPim := false } : State D).prune .pim).scheduleReadWrite w fits := by
  rw [State.schedulePim]
  cases hbest : ({ s with isPim := false } : State D).best .pim with
  | none => rfl
  | some c =>
    simp only
    refine if_neg ?_
    intro htakes
    exact hno c ⟨hbest, htakes⟩

theorem schedulePriority_of_passes (hpasses : ∀ req rest, s.buffer .priority = req :: rest →
    fits (headCursor s req).command = false) :
    s.schedulePriority w fits = s.schedulePim w fits := by
  rw [State.schedulePriority]
  cases hbuffer : s.buffer .priority with
  | nil => rfl
  | cons req rest =>
    refine if_neg ?_
    intro hfits
    have hfalse := hpasses req rest hbuffer
    rw [show fits (headCursor s req).command = true from hfits] at hfalse
    cases hfalse

theorem scheduleActive_of_not_offers (hno : ∀ c, ¬Offers s fits .active c) :
    s.scheduleActive w fits = (s.prune .active).schedulePriority w fits := by
  rw [State.scheduleActive]
  cases hbest : s.best .active with
  | none => rfl
  | some c =>
    simp only
    refine if_neg ?_
    intro htakes
    exact hno c ⟨hbest, htakes⟩

/-! Pruning the active buffer leaves the stages below it alone, and pruning the PIM buffer
those below that. -/

theorem buffers_prune_active {id : BufferId} (hid : id ≠ .active) :
    (s.prune .active).buffers id = s.buffers id := State.buffers_setBuffer_of_ne hid _

theorem buffers_lookedBelow {id : BufferId} (hid : id ≠ .active) (hpim : id ≠ .pim) :
    (lookedBelow s).buffers id = s.buffers id :=
  (State.buffers_setBuffer_of_ne hpim _).trans (buffers_prune_active hid)

theorem buffers_lookedBelow_readWriteId (w : Watermarks) (s : State D) :
    (lookedBelow s).buffers (readWriteId w s) = s.buffers (readWriteId w s) := by
  rcases readWriteId_eq_or w s with hid | hid
  · rw [hid]
    exact buffers_lookedBelow (by decide) (by decide)
  · rw [hid]
    exact buffers_lookedBelow (by decide) (by decide)

theorem offers_lookedBelow : Offers (lookedBelow s) fits (readWriteId w s) c ↔
    Offers s fits (readWriteId w s) c :=
  offers_congr rfl (buffers_lookedBelow_readWriteId w s)

theorem readWriteId_lookedBelow (w : Watermarks) (s : State D) :
    readWriteId w (lookedBelow s) = readWriteId w s :=
  readWriteId_congr (buffers_lookedBelow (by decide) (by decide))
    (buffers_lookedBelow (by decide) (by decide)) rfl

theorem looked_readWriteId (w : Watermarks) (s : State D) :
    looked w s (readWriteId w s) = ((lookedBelow s).setWriteMode w).prune (readWriteId w s) := by
  rcases readWriteId_eq_or w s with hid | hid
  · rw [hid, looked, hid]
  · rw [hid, looked, hid]

/-- A cascade that gets to the reads and writes. -/
theorem scheduleActive_of_below (hno : ∀ c, ¬Offers s fits .active c)
    (hpasses : ∀ req rest, s.buffer .priority = req :: rest →
      fits (headCursor s req).command = false)
    (hnoPim : ∀ c, ¬Offers s fits .pim c) :
    s.scheduleActive w fits = (lookedBelow s).scheduleReadWrite w fits := by
  have hpriority : (s.prune .active).buffer .priority = s.buffer .priority :=
    congrArg ReqBuffer.buffer (buffers_prune_active (by decide))
  have hpim : ∀ c, Offers (s.prune .active) fits .pim c ↔ Offers s fits .pim c :=
    fun c => offers_congr rfl (buffers_prune_active (by decide))
  rw [scheduleActive_of_not_offers hno, schedulePriority_of_passes,
    schedulePim_of_not_offers fun c hc => hnoPim c ((hpim c).mp hc)]
  · rfl
  · rw [hpriority]
    exact hpasses

/-- What a cascade leaves that ends at a request. -/
theorem scheduleActive_of_reaches (h : Reaches w s fits c) :
    s.scheduleActive w fits = (looked w s c.id, .found c) := by
  have hfound := scheduleActive_found_iff.mpr h
  refine Prod.ext ?_ hfound
  cases h with
  | active hactive =>
    obtain ⟨hid, -⟩ := State.best_eq_some hactive.1
    rw [hid, State.scheduleActive, hactive.1]
    simp only
    rw [if_pos hactive.2]
    rfl
  | @priority req rest hno hbuffer hfits hready =>
    have hpriority : (s.prune .active).buffer .priority = req :: rest :=
      (congrArg ReqBuffer.buffer (buffers_prune_active (by decide))).trans hbuffer
    rw [scheduleActive_of_not_offers hno, State.schedulePriority, hpriority]
    show (if fits (headCursor s req).command = true then
      if s.isReady (headCursor s req) = true then _ else _ else _ : State D × Outcome).1 = _
    rw [if_pos hfits, if_pos hready]
    rfl
  | pim hno hpasses hpim =>
    obtain ⟨hid, -⟩ := State.best_eq_some hpim.1
    have hpriority : (s.prune .active).buffer .priority = s.buffer .priority :=
      congrArg ReqBuffer.buffer (buffers_prune_active (by decide))
    have hbest : ({ s.prune .active with isPim := false } : State D).best .pim = some c := by
      rw [← hpim.1, State.best, State.best, State.buffer, State.buffer]
      show (getBestRequest s.dram ((s.prune .active).buffers .pim).buffer).2.map _ = _
      rw [buffers_prune_active (by decide)]
      rfl
    rw [hid, scheduleActive_of_not_offers hno, schedulePriority_of_passes, State.schedulePim, hbest]
    · simp only
      have htakes : (fits c.command && s.isReady c) = true := hpim.2
      exact congrArg Prod.fst (if_pos htakes)
    · rw [hpriority]
      exact hpasses
  | readWrite hno hpasses hnoPim hreadWrite =>
    obtain ⟨hid, -⟩ := State.best_eq_some hreadWrite.1
    have hoffers : Offers (lookedBelow s) fits (readWriteId w (lookedBelow s)) c := by
      rw [readWriteId_lookedBelow]
      exact offers_lookedBelow.mpr hreadWrite
    rw [scheduleActive_of_below hno hpasses hnoPim, scheduleReadWrite_of_offers hoffers, hid,
      looked_readWriteId, readWriteId_lookedBelow]

/-- Where `StopsAt` says so, the first pass ends. -/
theorem scheduleRequest_of_stopsAt {stale first : Option Command} {after : State D}
    (h : StopsAt w s stale first after) :
    ∃ reqIt, s.scheduleRequest w = (after, .stopped reqIt) ∧
      (Outcome.stopped reqIt).command stale = first := by
  have hstop : ∀ {reqIt : Option Cursor} {s₁ : State D},
      s.scheduleActive w anyCommand = (s₁, .stopped reqIt) →
      s.scheduleRequest w = (s₁, .stopped reqIt) := by
    intro reqIt s₁ hactive
    rw [State.scheduleRequest, State.schedule, hactive]
  cases h with
  | @priority req rest hno hbuffer hready =>
    have hpriority : (s.prune .active).buffer .priority = req :: rest :=
      (congrArg ReqBuffer.buffer (buffers_prune_active (by decide))).trans hbuffer
    refine ⟨some (headCursor s req), hstop ?_, rfl⟩
    rw [scheduleActive_of_not_offers hno, State.schedulePriority, hpriority]
    show (if s.isReady (headCursor s req) = true then _ else _ : State D × Outcome) = _
    rw [hready]
    rfl
  | readWrite hno hbuffer hnoPim hnoRead =>
    have hnoRead' : ∀ c, ¬Offers (lookedBelow s) anyCommand (readWriteId w (lookedBelow s)) c := by
      intro c hc
      rw [readWriteId_lookedBelow] at hc
      exact hnoRead c (offers_lookedBelow.mp hc)
    have hbest : (lookedBelow s).best (readWriteId w s) = s.best (readWriteId w s) := by
      rw [State.best, State.best, State.buffer, State.buffer, buffers_lookedBelow_readWriteId]
      rfl
    have hpasses : ∀ req rest, s.buffer .priority = req :: rest →
        anyCommand (headCursor s req).command = false := by
      intro req rest hcons
      rw [hbuffer] at hcons
      cases hcons
    obtain ⟨reqIt, hpass, hcommand⟩ := scheduleReadWrite_stopped stale hnoRead'
    refine ⟨reqIt, hstop ?_, ?_⟩
    · rw [scheduleActive_of_below hno hpasses hnoPim, hpass, looked_readWriteId,
        readWriteId_lookedBelow]
    · rw [hcommand, readWriteId_lookedBelow, hbest]
  | @interrupt c hreaches hinterrupts =>
    refine ⟨some c, ?_, rfl⟩
    have hactive := buffer_active_scheduleActive s w anyCommand
    have hpass := scheduleActive_of_reaches hreaches
    rw [hpass] at hactive
    -- the guard looks at the active buffer as the cascade has left it, without the barrier
    have hstop' : (looked w s c.id).interrupts c = true := by
      have hbuffer : (looked w s c.id).buffer .active = dropBarrier (s.buffer .active) := hactive
      rw [State.interrupts, hbuffer, hinterrupts.1]
      simpa using hinterrupts.2
    rw [State.scheduleRequest, State.schedule, hpass]
    simp only
    rw [if_pos hstop']

/-- A first pass finds a request, or it stops somewhere. -/
theorem serves_or_stopsAt (w : Watermarks) (s : State D) (stale : Option Command) :
    (∃ c, Serves w s anyCommand c) ∨ ∃ first after, StopsAt w s stale first after := by
  by_cases hreaches : ∃ c, Reaches w s anyCommand c
  · obtain ⟨c, hc⟩ := hreaches
    by_cases hinterrupts : Interrupts s c
    · exact .inr ⟨_, _, .interrupt hc hinterrupts⟩
    · exact .inl ⟨c, hc, hinterrupts⟩
  -- nothing is reached, so the stages are passed by one after the other
  · have hno : ∀ c, ¬Offers s anyCommand .active c :=
      fun c hc => hreaches ⟨c, .active hc⟩
    right
    cases hbuffer : s.buffer .priority with
    | nil =>
      have hpasses : ∀ req rest, s.buffer .priority = req :: rest →
          anyCommand (headCursor s req).command = false := by
        intro req rest hcons
        rw [hbuffer] at hcons
        cases hcons
      have hnoPim : ∀ c, ¬Offers s anyCommand .pim c :=
        fun c hc => hreaches ⟨c, .pim hno hpasses hc⟩
      have hnoRead : ∀ c, ¬Offers s anyCommand (readWriteId w s) c :=
        fun c hc => hreaches ⟨c, .readWrite hno hpasses hnoPim hc⟩
      exact ⟨_, _, .readWrite hno hbuffer hnoPim hnoRead⟩
    | cons req rest =>
      have hready : s.isReady (headCursor s req) = false := by
        by_contra hready
        exact hreaches ⟨_, .priority hno hbuffer rfl (Bool.eq_true_of_not_eq_false hready)⟩
      exact ⟨_, _, .priority hno hbuffer hready⟩

/-! ## The guard -/

/-- Where the first pass of a tick ends, and the second, from the state in which the passes
begin. A pass issues a command exactly if it ends at a request that it has found. -/
def firstOutcome (w : Watermarks) (s : State D) : Outcome := (s.scheduleRequest w).2

def secondOutcome (w : Watermarks) (s : State D) (stale : Option Command) : Outcome :=
  ((s.firstPass w).scheduleSecRequest w ((firstOutcome w s).command stale)).2

/-- Dual issue is guarded from a state in which the passes begin. -/
structure PassesGuarded (w : Watermarks) (s : State D) (stale : Option Command) : Prop where
  /-- A second command is issued beside a first one of the opposite kind only. -/
  paired : ∀ c₂, secondOutcome w s stale = .found c₂ →
    ∃ c₁, firstOutcome w s = .found c₁ ∧ OppositeKinds c₁.command c₂.command
  /-- While a refresh waits, nothing is issued for the PIM, read and write buffers. -/
  refresh : ∀ req rest, s.buffer .priority = req :: rest → ready s.dram req = false →
    (∀ r ∈ s.buffer .active, ready s.dram r = false) →
    ∀ c, firstOutcome w s = .found c ∨ secondOutcome w s stale = .found c →
      c.id ≠ .pim ∧ c.id ≠ .read ∧ c.id ≠ .write

/-- Dual issue is guarded in a tick. -/
def Guarded (w : Watermarks) (s : State D) (refreshes : List AddrVec) (stale : Option Command) :
    Prop :=
  ∀ s', State.refreshTick refreshes s.beginTick = some s' → PassesGuarded w s' stale

theorem firstOutcome_found_iff : firstOutcome w s = .found c ↔ Serves w s anyCommand c :=
  schedule_found_iff

/-- A first pass that stops is followed by a second one that does not know. -/
theorem secondOutcome_of_stopsAt {stale first : Option Command} {after : State D}
    (h : StopsAt w s stale first after) : (∀ c, firstOutcome w s ≠ .found c) ∧
      ∀ c, secondOutcome w s stale = .found c ↔ Serves w after (compareCommandType first) c := by
  obtain ⟨reqIt, hpass, hcommand⟩ := scheduleRequest_of_stopsAt h
  have hfirst : firstOutcome w s = .stopped reqIt := congrArg Prod.snd hpass
  have hafter : s.firstPass w = after := by
    rw [State.firstPass, hpass]
    rfl
  refine ⟨?_, ?_⟩
  · intro c hc
    rw [hfirst] at hc
    cases hc
  · intro c
    rw [secondOutcome, hafter, hfirst, hcommand]
    exact schedule_found_iff

/-- Behind a first command, a second one is of the opposite kind. -/
theorem oppositeKinds_of_found {stale : Option Command} {c₁ c₂ : Cursor}
    (hfirst : firstOutcome w s = .found c₁) (hsecond : secondOutcome w s stale = .found c₂) :
    OppositeKinds c₁.command c₂.command := by
  rw [secondOutcome, hfirst] at hsecond
  have hspec := (s.firstPass w).schedule_spec w
    (compareCommandType (some c₁.command))
  exact oppositeKinds_iff.mp (hspec.2 c₂ hsecond).fits

/-- Where a refresh waits and the active buffer has nothing ready, the first pass stops. -/
theorem stopsAt_of_refresh (stale : Option Command) {req : Request} {rest : List Request}
    (hbuffer : s.buffer .priority = req :: rest) (hready : ready s.dram req = false)
    (hactive : ∀ r ∈ s.buffer .active, ready s.dram r = false) :
    StopsAt w s stale (some (headCursor s req).command) (s.prune .active) := by
  refine .priority ?_ hbuffer hready
  rintro c ⟨hbest, htakes⟩
  obtain ⟨-, hcommand, heligible⟩ := State.best_eq_some hbest
  have hmem : c.req ∈ s.buffer .active := by
    have hdrop : c.req ∈ dropBarrier (s.buffer .active) := by
      rw [← State.buffer_prune]
      exact List.mem_of_getElem? heligible.1
    rcases dropBarrier_eq_or (s.buffer .active) with heq | ⟨head, -, hcons⟩
    · rwa [heq] at hdrop
    · rw [hcons]
      exact List.mem_cons_of_mem _ hdrop
  have hfalse : s.isReady c = false := by
    rw [State.isReady, hcommand]
    exact hactive c.req hmem
  rw [hfalse, Bool.and_false] at htakes
  cases htakes

/-- Dual issue is guarded where the first pass serves a request, or the second does not. -/
theorem passesGuarded_iff {stale : Option Command} : PassesGuarded w s stale ↔
    (∃ c, Serves w s anyCommand c) ∨ ¬SecondServes w s stale := by
  refine ⟨?_, ?_⟩
  · intro h
    rcases Classical.em (SecondServes w s stale) with hserves | hno
    · obtain ⟨first, after, hstops, c₂, hc₂⟩ := hserves
      obtain ⟨hnot, hsecond⟩ := secondOutcome_of_stopsAt hstops
      obtain ⟨c₁, hc₁, -⟩ := h.paired c₂ ((hsecond c₂).mpr hc₂)
      exact absurd hc₁ (hnot c₁)
    · exact .inr hno
  · intro h
    -- A first pass that stops is followed by a second one that serves nothing.
    have hnone : ∀ {first : Option Command} {after : State D}, StopsAt w s stale first after →
        ∀ c, secondOutcome w s stale ≠ .found c := by
      intro first after hstops c hc
      obtain ⟨hnot, hsecond⟩ := secondOutcome_of_stopsAt hstops
      rcases h with ⟨c₁, hc₁⟩ | hno
      · exact hnot c₁ (firstOutcome_found_iff.mpr hc₁)
      · exact hno ⟨first, after, hstops, c, (hsecond c).mp hc⟩
    refine ⟨?_, ?_⟩
    · intro c₂ hc₂
      rcases serves_or_stopsAt w s stale with ⟨c₁, hc₁⟩ | ⟨first, after, hstops⟩
      · have hfirst := firstOutcome_found_iff.mpr hc₁
        exact ⟨c₁, hfirst, oppositeKinds_of_found hfirst hc₂⟩
      · exact absurd hc₂ (hnone hstops c₂)
    · intro req rest hbuffer hready hactive c hc
      have hstops := stopsAt_of_refresh (w := w) stale hbuffer hready hactive
      rcases hc with hc | hc
      · exact absurd hc ((secondOutcome_of_stopsAt hstops).1 c)
      · exact absurd hc (hnone hstops c)

/-- **When dual issue is guarded**: in a tick in which the first pass serves a request, or
the second, which compares with the command where the first has stopped, does not. -/
theorem guarded_iff {D : Device} (w : Watermarks) (s : State D) (refreshes : List AddrVec)
    (stale : Option Command) : Guarded w s refreshes stale ↔
      ∀ s', State.refreshTick refreshes s.beginTick = some s' →
        (∃ c, Serves w s' anyCommand c) ∨ ¬SecondServes w s' stale := by
  rw [Guarded]
  refine forall_congr' fun s' => forall_congr' fun _ => ?_
  exact passesGuarded_iff

/-- A device on which only a MAC of all banks is ready, and a refresh first precharges. -/
def macOnlyDevice : Device where
  State := Unit
  tick := id
  getPreqCommand _ cmd _ := if cmd = .REFab then .PREA else cmd
  checkReady _ cmd _ := decide (cmd = .MACAB)
  checkRowbufferHit _ _ _ := false
  issueCommand dram _ _ := dram
  readLatency := 1

/-- A MAC of all banks waits. -/
def macWaits : State macOnlyDevice :=
  step defaultWatermarks (State.initial (fun _ => 32) ()) (.send ⟨0, [], .PIM_MAC_AB⟩)

/-- A refresh that is submitted in the next tick stops the first pass, and the second issues
the MAC alone. -/
theorem not_guarded_macWaits : ¬Guarded defaultWatermarks macWaits [[]] none := by
  intro h
  have hpasses : (State.refreshTick [[]] macWaits.beginTick).map (fun s' =>
      (firstOutcome defaultWatermarks s', secondOutcome defaultWatermarks s' none)) =
      some (.stopped (some ⟨.priority, 0, Request.new 1 ⟨-1, [], .AllBankRefresh⟩, .PREA⟩),
        .found ⟨.pim, 0, firstRequest 0 .PIM_MAC_AB, .MACAB⟩) := by decide +kernel
  obtain ⟨s', hs', houtcomes⟩ := Option.map_eq_some_iff.mp hpasses
  obtain ⟨hstopped, hsecond⟩ := Prod.mk.inj houtcomes
  obtain ⟨c₁, hfirst, -⟩ := (h s' hs').paired _ hsecond
  rw [hstopped] at hfirst
  cases hfirst

end AttAcc.Controller
