import AttAcc.Controller.PimOnly
import AttAcc.Controller.Rows

/-!
# How a controller gets on with PIM work

The work of a controller whose requests are PIM requests and refreshes. A pass issues a command
for the first refresh or for the best PIM request, or finds none that is ready (`Serving.passed`).
A refresh that waits keeps rows from being opened, by the first pass and, as the commands have to
differ in kind, by the second.

The load of a controller bounds the cycles until it finishes a PIM request, or has nothing to
do. A tick that finishes none lowers it (`Serving.load_tick`): the device has to wait less, or
a refresh is issued, or a class gets the row that its first request needs. Only a round of refreshes
raises it.
-/

namespace AttAcc.Controller

open Dram (Command)
open Library

variable {D : Device} {w : Watermarks} {s s' : State D} {fits : Command → Bool}

/-! ## The passes -/

namespace State

theorem best_of_nil {id : BufferId} (h : s.buffer id = []) : s.best id = none := by
  rw [best, h]
  rfl

/-- There is nothing to prune in an empty buffer. -/
theorem prune_of_nil {id : BufferId} (h : s.buffer id = []) : s.prune id = s := by
  have hsame :
      ({ s.buffers id with buffer := (getBestRequest s.dram (s.buffer id)).1 } : ReqBuffer) =
        s.buffers id := by
    rw [h]
    exact congrArg (fun b => ReqBuffer.mk b _) h.symm
  rw [prune, hsame, setBuffer, Function.update_eq_self]

end State

/-- No refresh keeps a pass from the PIM buffer. -/
def PassesRefreshes (s : State D) (fits : Command → Bool) : Prop :=
  ∀ req ∈ (s.buffer .priority).head?, fits (command s.dram req) = false

/-- A pass that takes any command does not get past a refresh. -/
theorem not_passesRefreshes (h : s.buffer .priority ≠ []) :
    ¬PassesRefreshes s fun _ => true := by
  obtain ⟨req, rest, hcons⟩ := List.exists_cons_of_ne_nil h
  intro hpass
  have hfalse : true = false := hpass req (by simp [hcons])
  cases hfalse

/-- Where a pass ends in a controller that serves PIM work. -/
inductive Scheduled (s : State D) (fits : Command → Bool) : Outcome → Prop
  | refresh (req : Request) (hreq : req ∈ (s.buffer .priority).head?)
      (hfits : fits (command s.dram req) = true) (hready : ready s.dram req = true) :
      Scheduled s fits (.found ⟨.priority, 0, req, command s.dram req⟩)
  | waits (req : Request) (hreq : req ∈ (s.buffer .priority).head?)
      (hfits : fits (command s.dram req) = true) (hready : ready s.dram req = false) :
      Scheduled s fits (.stopped (some ⟨.priority, 0, req, command s.dram req⟩))
  | pim (hpass : PassesRefreshes s fits) (it : Iter)
      (hbest : (getBestRequest s.dram (s.buffer .pim)).2 = some it)
      (hfits : fits (command s.dram it.2) = true) (hready : ready s.dram it.2 = true) :
      Scheduled s fits (.found ⟨.pim, it.1, it.2, command s.dram it.2⟩)
  | idle (hpass : PassesRefreshes s fits)
      (hbest : ∀ it, (getBestRequest s.dram (s.buffer .pim)).2 = some it →
        fits (command s.dram it.2) = true → ready s.dram it.2 = false) :
      Scheduled s fits (.stopped none)

namespace PimOnly

theorem scheduleReadWrite (hread : s.buffer .read = []) (hwrite : s.buffer .write = []) :
    s.scheduleReadWrite w fits = (s.setWriteMode w, .stopped none) := by
  obtain ⟨b, hb⟩ := s.setWriteMode_eq (w := w)
  rw [State.scheduleReadWrite, hb]
  have hnil : ({ s with isWriteMode := b } : State D).buffer
      (if ({ s with isWriteMode := b } : State D).isWriteMode then .write else .read) = [] := by
    cases b with
    | true => exact hwrite
    | false => exact hread
  simp only [State.best_of_nil hnil, State.prune_of_nil hnil]

/-- The PIM buffer, and below it nothing. -/
theorem schedulePim (h : PimOnly s) (hpass : PassesRefreshes s fits) :
    Scheduled s fits (s.schedulePim w fits).2 ∧
      (s.schedulePim w fits).1.buffer .pim = dropBarrier (s.buffer .pim) ∧
      (s.schedulePim w fits).1.buffer .priority = s.buffer .priority := by
  let s₁ : State D := ({ s with isPim := false } : State D).prune .pim
  have hother : ∀ id ≠ .pim, s₁.buffer id = s.buffer id :=
    fun id hne => congrArg ReqBuffer.buffer (State.buffers_setBuffer_of_ne hne _)
  have hpruned : s₁.buffer .pim = dropBarrier (s.buffer .pim) := State.buffer_prune .pim
  have hbelow : s₁.scheduleReadWrite w fits = (s₁.setWriteMode w, .stopped none) :=
    scheduleReadWrite ((hother .read (by decide)).trans h.read)
      ((hother .write (by decide)).trans h.write)
  have hmode : ∀ id, (s₁.setWriteMode w).buffer id = s₁.buffer id := by
    obtain ⟨b, hb⟩ := s₁.setWriteMode_eq (w := w)
    intro id
    rw [hb]
  have hbest : ({ s with isPim := false } : State D).best .pim =
      (getBestRequest s.dram (s.buffer .pim)).2.map
        fun it => ⟨.pim, it.1, it.2, command s.dram it.2⟩ := rfl
  rw [State.schedulePim]
  simp only [hbest]
  cases hit : (getBestRequest s.dram (s.buffer .pim)).2 with
  | none =>
    simp only [Option.map_none]
    rw [hbelow]
    refine ⟨.idle hpass ?_, (hmode .pim).trans hpruned,
      (hmode .priority).trans (hother .priority (by decide))⟩
    intro it hit'
    rw [hit] at hit'
    cases hit'
  | some it =>
    simp only [Option.map_some]
    split_ifs with htakes
    · obtain ⟨hfits, hready⟩ := Bool.and_eq_true_iff.mp htakes
      exact ⟨.pim hpass it hit hfits hready, hpruned, hother .priority (by decide)⟩
    · rw [hbelow]
      refine ⟨.idle hpass ?_, (hmode .pim).trans hpruned,
        (hmode .priority).trans (hother .priority (by decide))⟩
      intro it' hit' hfits
      obtain rfl : it = it' := Option.some.inj (hit.symm.trans hit')
      exact eq_false_of_ne_true fun hready => htakes (Bool.and_eq_true_iff.mpr ⟨hfits, hready⟩)

/-- **Where a pass ends**: the buffers above the PIM buffer are empty, but for refreshes. A barrier
goes where the pass gets to the PIM buffer. -/
theorem schedule (h : PimOnly s) :
    Scheduled s fits (s.schedule w fits).2 ∧
      (s.schedule w fits).1.buffer .priority = s.buffer .priority ∧
      (PassesRefreshes s fits →
        (s.schedule w fits).1.buffer .pim = dropBarrier (s.buffer .pim)) ∧
      (¬PassesRefreshes s fits → (s.schedule w fits).1.buffer .pim = s.buffer .pim) := by
  have hpriority : Scheduled s fits (s.schedulePriority w fits).2 ∧
      (s.schedulePriority w fits).1.buffer .priority = s.buffer .priority ∧
      (PassesRefreshes s fits →
        (s.schedulePriority w fits).1.buffer .pim = dropBarrier (s.buffer .pim)) ∧
      (¬PassesRefreshes s fits → (s.schedulePriority w fits).1.buffer .pim = s.buffer .pim) := by
    have hbelow : PassesRefreshes s fits → Scheduled s fits (s.schedulePim w fits).2 ∧
        (s.schedulePim w fits).1.buffer .priority = s.buffer .priority ∧
        (PassesRefreshes s fits →
          (s.schedulePim w fits).1.buffer .pim = dropBarrier (s.buffer .pim)) ∧
        (¬PassesRefreshes s fits → (s.schedulePim w fits).1.buffer .pim = s.buffer .pim) := by
      intro hpass
      obtain ⟨hscheduled, hpim, hrefreshes⟩ := h.schedulePim (w := w) hpass
      exact ⟨hscheduled, hrefreshes, fun _ => hpim, fun hnot => absurd hpass hnot⟩
    rw [State.schedulePriority]
    cases hbuffer : s.buffer .priority with
    | nil =>
      rw [hbuffer] at hbelow
      exact hbelow (by simp [PassesRefreshes, hbuffer])
    | cons req rest =>
      have hreq : req ∈ (s.buffer .priority).head? := by simp [hbuffer]
      simp only
      split_ifs with hfits hready
      · have hnot : ¬PassesRefreshes s fits := fun hpass =>
          absurd (hfits.symm.trans (hpass req hreq)) (by decide)
        exact ⟨.refresh req hreq hfits hready, hbuffer, fun hpass => absurd hpass hnot,
          fun _ => rfl⟩
      · have hnot : ¬PassesRefreshes s fits := fun hpass =>
          absurd (hfits.symm.trans (hpass req hreq)) (by decide)
        exact ⟨.waits req hreq hfits (eq_false_of_ne_true hready), hbuffer,
          fun hpass => absurd hpass hnot, fun _ => rfl⟩
      · have hpass : PassesRefreshes s fits := by
          intro req' hreq'
          obtain rfl : req = req' := Option.some.inj (hreq.symm.trans hreq')
          exact eq_false_of_ne_true hfits
        rw [hbuffer] at hbelow
        exact hbelow hpass
  have hinterrupts : ∀ s' : State D, s'.buffer .active = [] → ∀ c, s'.interrupts c = false := by
    intro s' hnil c
    rw [State.interrupts, hnil, List.any_nil, Bool.and_false]
  have hactive : (s.schedulePriority w fits).1.buffer .active = [] :=
    (h.prune (State.schedulePriority_spec s).1).active
  rw [State.schedule, State.scheduleActive, State.best_of_nil h.active]
  simp only [State.prune_of_nil h.active]
  rcases hpass : s.schedulePriority w fits with ⟨s', c | reqIt⟩
  · rw [hpass] at hpriority hactive
    simp only [hinterrupts s' hactive c]
    exact hpriority
  · rw [hpass] at hpriority
    exact hpriority

/-- Serving a request: its command is issued, and it leaves its buffer with its last one. -/
theorem frame_issue (h : PimOnly s) (hordered : Ordered s) (hD : D.RefreshCloses) {c : Cursor}
    (hc : Chosen s fits c) :
    (s.issue c).dram = D.issueCommand s.dram c.command c.req.addrVec ∧
      ∀ id, (s.issue c).buffer id =
        if c.command = c.req.finalCommand ∧ id = c.id then (s.buffer id).eraseIdx c.pos
        else s.buffer id := by
  have hcommanded : ∀ id, (s.commanded c).buffer id = s.buffer id := fun _ => rfl
  rw [h.issue_eq hordered hD hc]
  split_ifs with hfinal
  · refine ⟨rfl, fun id => ?_⟩
    have hremove := State.buffer_remove (s := s.commanded c) id c.id c.pos
    rw [hcommanded] at hremove
    exact hremove.trans (by simp [hfinal])
  · exact ⟨rfl, fun id => by simp [hfinal, hcommanded]⟩

/-- A cycle begins. -/
theorem beginTick_eq (h : PimOnly s) :
    s.beginTick = { s with clk := s.clk + 1, dram := D.tick s.dram } := by
  rw [State.beginTick, State.serveCompletedReads]
  simp only [h.pending]

end PimOnly

/-! ## The load of a controller -/

section Load

variable (M : RowMachine D) (L : Latencies D)

/-- How many cycles a controller needs until a PIM request is finished, or nothing waits, if no
further refresh is submitted. While refreshes wait no row is opened; behind them every class may
need an activation. -/
def load (dram : D.State) (refreshes queue : List Request) : ℕ :=
  L.wait dram +
    if refreshes = [] then
      if queue = [] then 0 else M.demand dram queue * (L.latency + 1) + 1
    else
      (if M.isClean dram then 0 else L.latency + 1) +
        refreshes.length * (L.refreshLatency + 1) +
        if queue = [] then 0 else M.classes.card * (L.latency + 1) + 1

/-- What a round of refreshes adds to it, at most. -/
def roundLoad (refreshes : ℕ) : ℕ :=
  (M.classes.card + 1) * (L.latency + 1) + refreshes * (L.refreshLatency + 1)

variable {M L} {dram dram' : D.State} {refreshes rest queue : List Request} {req : Request}

theorem load_tick (hdram : M.Valid dram) :
    load M L (D.tick dram) refreshes queue ≤ load M L dram refreshes queue ∧
      (0 < L.wait dram →
        load M L (D.tick dram) refreshes queue < load M L dram refreshes queue) := by
  obtain ⟨-, hopened, hclean⟩ := M.tick hdram
  have hwait : L.wait (D.tick dram) ≤ L.wait dram - 1 := L.tick
  have hdemand : M.demand (D.tick dram) queue = M.demand dram queue := by
    rw [RowMachine.demand, hopened]
  rw [load, load, hdemand, hclean]
  omega

/-- A precharge for a refresh. -/
theorem load_precharge (hdram : M.Valid dram) (hne : refreshes ≠ [])
    (hclean : M.isClean dram = false) (a : AddrVec) :
    load M L (D.issueCommand dram .PREA a) refreshes queue < load M L dram refreshes queue := by
  have hwait : L.wait (D.issueCommand dram .PREA a) ≤ max (L.wait dram) L.latency :=
    L.issue a (by decide)
  have hclean' := (M.precharge a hdram).2
  have hopen : ¬M.isClean dram = true := by simp [hclean]
  rw [load, load, if_neg hne, if_neg hne, if_pos hclean', if_neg hopen]
  omega

/-- A refresh. -/
theorem load_refresh (hdram : M.Valid dram) (hclean : M.isClean dram = true) (a : AddrVec) :
    load M L (D.issueCommand dram .REFab a) rest queue < load M L dram (req :: rest) queue := by
  have hwait : L.wait (D.issueCommand dram .REFab a) ≤ max (L.wait dram) L.refreshLatency :=
    L.issue_refresh a
  obtain ⟨hdram', hclean'⟩ := M.refresh a hdram hclean
  have hdemand : M.demand (D.issueCommand dram .REFab a) queue ≤ M.classes.card :=
    demand_le_card fun k hk => M.opened_of_clean hdram' hclean' hk
  have hmul := Nat.mul_le_mul_right (L.latency + 1) hdemand
  rw [load, load, if_neg (List.cons_ne_nil req rest), if_pos hclean, if_pos hclean',
    List.length_cons, Nat.succ_mul]
  split_ifs
  all_goals omega

/-- A command for the first request of a class. -/
theorem load_issue (hne : queue ≠ []) (hdemand : M.demand dram' queue < M.demand dram queue)
    (hwait : L.wait dram' ≤ max (L.wait dram) L.latency) :
    load M L dram' [] queue < load M L dram [] queue := by
  have hmul := Nat.mul_le_mul_right (L.latency + 1) (Nat.succ_le_of_lt hdemand)
  rw [Nat.succ_mul] at hmul
  rw [load, load, if_pos rfl, if_pos rfl, if_neg hne, if_neg hne]
  omega

/-- A round of refreshes. -/
theorem load_submit (refreshes submitted queue : List Request) :
    load M L dram (refreshes ++ submitted) queue ≤
      load M L dram refreshes queue + roundLoad M L submitted.length := by
  rw [roundLoad, Nat.succ_mul]
  rcases eq_or_ne refreshes [] with rfl | hne
  · rcases eq_or_ne submitted [] with rfl | hsubmitted
    · rw [List.append_nil]
      exact Nat.le_add_right _ _
    · rw [List.nil_append, load, load, if_neg hsubmitted, if_pos rfl]
      split_ifs
      all_goals omega
  · rw [load, load, if_neg hne, if_neg (by simp [hne]), List.length_append, Nat.add_mul]
    omega

/-- What waits is a load. -/
theorem load_pos (h : refreshes ≠ [] ∨ queue ≠ []) : 0 < load M L dram refreshes queue := by
  rw [load]
  split_ifs with hrefreshes hqueue
  · exact absurd hqueue (h.resolve_left (not_not_intro hrefreshes))
  · omega
  all_goals
    have hlength := List.length_pos_iff.mpr hrefreshes
    have hpos : 0 < refreshes.length * (L.refreshLatency + 1) :=
      Nat.mul_pos hlength (Nat.succ_pos _)
    omega

end Load

/-! ## What a pass does -/

theorem RowMachine.refreshCloses (M : RowMachine D) : D.RefreshCloses := by
  intro dram a
  rw [M.preq_refresh]
  split_ifs
  · rfl
  · rfl

/-- A controller that serves PIM requests which a machine of rows knows. -/
structure Serving (M : RowMachine D) (s : State D) : Prop where
  pimOnly : PimOnly s
  ordered : Ordered s
  known : ∀ r ∈ s.buffer .pim, M.Known r.packet
  valid : M.Valid s.dram
  inOrder : InArrivalOrder (s.buffer .pim)
  arrive_le : ∀ r ∈ s.buffer .pim, r.arrive ≤ s.clk

/-- What a pass does to a controller that serves PIM requests. -/
inductive Passed (M : RowMachine D) (fits : Command → Bool) (s s' : State D) : Prop
  | precharge (a : AddrVec) (hrefreshes : s.buffer .priority ≠ [])
      (hclean : M.isClean s.dram = false) (hdram : s'.dram = D.issueCommand s.dram .PREA a)
      (hpriority : s'.buffer .priority = s.buffer .priority)
      (hpim : s'.buffer .pim = s.buffer .pim)
  | refresh (a : AddrVec) (req : Request) (hclean : M.isClean s.dram = true)
      (hdram : s'.dram = D.issueCommand s.dram .REFab a)
      (hpriority : s.buffer .priority = req :: s'.buffer .priority)
      (hpim : s'.buffer .pim = s.buffer .pim)
  | waits (req : Request) (hready : ready s.dram req = false) (hdram : s'.dram = s.dram)
      (hpriority : s'.buffer .priority = s.buffer .priority)
      (hpim : s'.buffer .pim = s.buffer .pim)
  | issue (hpass : PassesRefreshes s fits) (it : Iter)
      (hbest : (getBestRequest s.dram (s.buffer .pim)).2 = some it)
      (hfits : fits (command s.dram it.2) = true)
      (hrow : command s.dram it.2 ≠ it.2.finalCommand)
      (hdram : s'.dram = D.issueCommand s.dram (command s.dram it.2) it.2.addrVec)
      (hpriority : s'.buffer .priority = s.buffer .priority)
      (hpim : s'.buffer .pim = dropBarrier (s.buffer .pim))
  | finish (it : Iter) (hbest : (getBestRequest s.dram (s.buffer .pim)).2 = some it)
      (hdram : s'.dram = D.issueCommand s.dram (command s.dram it.2) it.2.addrVec)
      (hpriority : s'.buffer .priority = s.buffer .priority)
      (hpim : s'.buffer .pim = (dropBarrier (s.buffer .pim)).eraseIdx it.1)
  | idle (hpass : PassesRefreshes s fits)
      (hbest : ∀ it, (getBestRequest s.dram (s.buffer .pim)).2 = some it →
        fits (command s.dram it.2) = true → ready s.dram it.2 = false)
      (hdram : s'.dram = s.dram) (hpriority : s'.buffer .priority = s.buffer .priority)
      (hpim : s'.buffer .pim = dropBarrier (s.buffer .pim))

namespace Serving

variable {M : RowMachine D} {L : Latencies D}

/-- The command of a refresh. -/
theorem command_refresh (h : Serving M s) {req : Request} (hreq : req ∈ s.buffer .priority) :
    req.finalCommand = .REFab ∧
      command s.dram req = if M.isClean s.dram then .REFab else .PREA := by
  have hfinal : req.finalCommand = .REFab := by
    rw [Request.finalCommand, h.pimOnly.refresh req hreq]
    rfl
  rw [command, hfinal]
  exact ⟨rfl, M.preq_refresh⟩

/-- **What a pass does.** -/
theorem passed (h : Serving M s) (w : Watermarks) (fits : Command → Bool) :
    Passed M fits s ((s.schedule w fits).1.serve (s.schedule w fits).2) := by
  obtain ⟨hscheduled, hpriority, hpasses, hstays⟩ := @PimOnly.schedule D w s fits h.pimOnly
  obtain ⟨hpruned, hchosen⟩ := s.schedule_spec w fits
  have hafter := h.pimOnly.prune hpruned
  have hordered := h.ordered.prune hpruned
  generalize houtcome : (s.schedule w fits).2 = outcome at hscheduled hchosen ⊢
  generalize (s.schedule w fits).1 = t at *
  cases hscheduled with
  | refresh req hreq hfits hready =>
    obtain ⟨hdram, hbuffer⟩ := hafter.frame_issue hordered M.refreshCloses (hchosen _ rfl)
    obtain ⟨rest, hcons⟩ : ∃ rest, s.buffer .priority = req :: rest := by
      cases hbuffer : s.buffer .priority with
      | nil => simp [hbuffer] at hreq
      | cons head rest =>
        rw [hbuffer] at hreq
        obtain rfl := Option.some.inj hreq
        exact ⟨rest, rfl⟩
    have hnot : ¬PassesRefreshes s fits := fun hpass =>
      absurd (hfits.symm.trans (hpass req hreq)) (by decide)
    have hmem : req ∈ s.buffer .priority := hcons ▸ List.mem_cons_self
    obtain ⟨hfinal, hcommand⟩ := h.command_refresh hmem
    have hpim : (t.issue ⟨.priority, 0, req, command s.dram req⟩).buffer .pim = s.buffer .pim := by
      rw [hbuffer, if_neg (by simp), hstays hnot]
    have hpriority' := hbuffer .priority
    simp only [hfinal, and_true, hpriority, hcons, List.eraseIdx_zero, List.tail_cons]
      at hpriority'
    rw [hpruned.dram] at hdram
    cases hclean : M.isClean s.dram with
    | false =>
      rw [hclean] at hcommand
      have hprea : command s.dram req = .PREA := hcommand
      rw [hprea, if_neg (by decide), ← hcons] at hpriority'
      exact .precharge req.addrVec (by simp [hcons]) hclean (by rw [State.serve, hdram, hprea])
        (by rw [State.serve, ← hpriority', hprea]) hpim
    | true =>
      rw [hclean] at hcommand
      have hrefab : command s.dram req = .REFab := hcommand
      rw [hrefab, if_pos rfl] at hpriority'
      refine .refresh req.addrVec req hclean (by rw [State.serve, hdram, hrefab]) ?_ hpim
      rw [State.serve, hrefab, hpriority', hcons]
  | waits req hreq hfits hready =>
    have hnot : ¬PassesRefreshes s fits := fun hpass =>
      absurd (hfits.symm.trans (hpass req hreq)) (by decide)
    exact .waits req hready hpruned.dram hpriority (hstays hnot)
  | pim hpass it hbest hfits hready =>
    obtain ⟨hdram, hbuffer⟩ := hafter.frame_issue hordered M.refreshCloses (hchosen _ rfl)
    have hpriority' : (t.issue ⟨.pim, it.1, it.2, command s.dram it.2⟩).buffer .priority =
        s.buffer .priority := by rw [hbuffer, if_neg (by simp), hpriority]
    have hpim := hbuffer .pim
    rw [hpasses hpass] at hpim
    rw [hpruned.dram] at hdram
    by_cases hfinal : command s.dram it.2 = it.2.finalCommand
    · exact .finish it hbest hdram hpriority' (hpim.trans (if_pos ⟨hfinal, rfl⟩))
    · exact .issue hpass it hbest hfits hfinal hdram hpriority'
        (hpim.trans (if_neg fun hboth => hfinal hboth.1))
  | idle hpass hbest => exact .idle hpass hbest hpruned.dram hpriority (hpasses hpass)

/-- The best request of the PIM buffer. -/
theorem mem_of_best (h : Serving M s) {it : Iter}
    (hbest : (getBestRequest s.dram (s.buffer .pim)).2 = some it) :
    it.1 < (dropBarrier (s.buffer .pim)).length ∧ M.Known it.2.packet := by
  have hit := (getBestRequest_eligible hbest).1
  refine ⟨(List.getElem?_eq_some_iff.mp hit).1, h.known _ ?_⟩
  exact (dropBarrier_sublist _).subset (List.mem_of_getElem? hit)

/-- What stays in a buffer stays in order, and the device stays valid. -/
theorem sublist_of_passed (h : Serving M s) (hpassed : Passed M fits s s') :
    (s'.buffer .pim).Sublist (s.buffer .pim) ∧ M.Valid s'.dram := by
  have hissue : ∀ {it : Iter}, (getBestRequest s.dram (s.buffer .pim)).2 = some it →
      M.Valid (D.issueCommand s.dram (command s.dram it.2) it.2.addrVec) :=
    fun hbest => M.valid_issue h.valid (h.mem_of_best hbest).2
  cases hpassed with
  | precharge a hne hclean hdram hpriority hpim =>
    exact ⟨hpim ▸ List.Sublist.refl _, hdram ▸ (M.precharge a h.valid).1⟩
  | refresh a req hclean hdram hpriority hpim =>
    exact ⟨hpim ▸ List.Sublist.refl _, hdram ▸ (M.refresh a h.valid hclean).1⟩
  | waits req hready hdram hpriority hpim => exact ⟨hpim ▸ List.Sublist.refl _, hdram ▸ h.valid⟩
  | issue hpass it hbest hfits hrow hdram hpriority hpim =>
    exact ⟨hpim ▸ dropBarrier_sublist _, hdram ▸ hissue hbest⟩
  | finish it hbest hdram hpriority hpim =>
    refine ⟨?_, hdram ▸ hissue hbest⟩
    rw [hpim]
    exact (List.eraseIdx_sublist _ _).trans (dropBarrier_sublist _)
  | idle hpass hbest hdram hpriority hpim => exact ⟨hpim ▸ dropBarrier_sublist _, hdram ▸ h.valid⟩

/-- A pass keeps all this. -/
theorem pass (h : Serving M s) (w : Watermarks) (fits : Command → Bool) :
    Serving M ((s.schedule w fits).1.serve (s.schedule w fits).2) := by
  obtain ⟨hsub, hvalid⟩ := h.sublist_of_passed (h.passed w fits)
  refine ⟨h.pimOnly.pass h.ordered M.refreshCloses fits, h.ordered.pass fits,
    fun r hr => h.known r (hsub.subset hr), hvalid, h.inOrder.sublist hsub, ?_⟩
  intro r hr
  rw [clk_pass]
  exact h.arrive_le r (hsub.subset hr)

/-- A request other than a final one is the first of its class, so the queue demands less. -/
theorem demand_issue (h : Serving M s) {it : Iter}
    (hbest : (getBestRequest s.dram (s.buffer .pim)).2 = some it)
    (hrow : command s.dram it.2 ≠ it.2.finalCommand) :
    (command s.dram it.2).opensOrCloses = true ∧
      M.demand (D.issueCommand s.dram (command s.dram it.2) it.2.addrVec)
        (dropBarrier (s.buffer .pim)) < M.demand s.dram (dropBarrier (s.buffer .pim)) := by
  have hknown := (h.mem_of_best hbest).2
  rcases RowMachine.command_cases h.valid hknown with hfinal | ⟨k, hclass, hopens, hcases⟩
  · exact absurd hfinal hrow
  · refine ⟨hopens, ?_⟩
    have hfirst := RowMachine.firstOf_of_best h.valid h.known h.inOrder hbest hclass hopens
    have hk := M.mem_classes hknown hclass
    rcases hcases with ⟨hclosed, hact⟩ | ⟨row, hopened, hne, hpre⟩
    · obtain ⟨hsame, hother⟩ := M.opened_act h.valid hknown hclass hclosed
      rw [hact]
      refine demand_lt hk hfirst hother (lt_of_eq_of_lt (congrArg (missing · _) hsame) ?_)
      simp [missing, hclosed]
    · obtain ⟨hsame, hother⟩ := M.opened_pre h.valid hknown hclass
      rw [hpre]
      refine demand_lt hk hfirst hother (lt_of_eq_of_lt (congrArg (missing · _) hsame) ?_)
      simp [missing, hopened, hne]

end Serving

/-! ## How far a pass gets -/

theorem dropBarrier_eq_or_length_lt (buffer : List Request) :
    dropBarrier buffer = buffer ∨ (dropBarrier buffer).length < buffer.length := by
  rcases dropBarrier_eq_or buffer with heq | ⟨barrier, -, heq⟩
  · exact .inl heq
  · right
    conv_rhs => rw [heq]
    exact Nat.lt_succ_self _

/-- The load of a controller. -/
def State.load (M : RowMachine D) (L : Latencies D) (s : State D) : ℕ :=
  Controller.load M L s.dram (s.buffer .priority) (s.buffer .pim)

namespace Serving

variable {M : RowMachine D} {L : Latencies D}

/-- A controller that is ready for anything, and finds nothing to do. -/
theorem load_eq_zero (h : Serving M s) (hwait : L.wait s.dram = 0) (hall : ∀ cmd, fits cmd = true)
    (hpass : PassesRefreshes s fits) (hbarrier : dropBarrier (s.buffer .pim) = s.buffer .pim)
    (hbest : ∀ it, (getBestRequest s.dram (s.buffer .pim)).2 = some it →
      fits (command s.dram it.2) = true → ready s.dram it.2 = false) : s.load M L = 0 := by
  have hpriority : s.buffer .priority = [] := by
    cases hbuffer : s.buffer .priority with
    | nil => rfl
    | cons req rest =>
      have hfalse := hpass req (by simp [hbuffer])
      exact absurd (hfalse.symm.trans (hall _)) (by decide)
  have hpim : s.buffer .pim = [] := by
    cases hbuffer : s.buffer .pim with
    | nil => rfl
    | cons head rest =>
      obtain ⟨it, hit, -⟩ := @best_cases D s.dram _ _ _ h.inOrder (hbarrier.trans hbuffer)
      exact absurd ((hbest it hit (hall _)).symm.trans (L.ready hwait)) (by decide)
  rw [State.load, load, hwait, if_pos hpriority, if_pos hpim]

/-- **What a pass gets done**: it finishes a request, or lowers the load, or leaves everything as it
is; but not if it takes any command and all are ready. While refreshes wait it opens no rows. -/
theorem load_pass (h : Serving M s) (hpassed : Passed M fits s s')
    (hfits : s.buffer .priority ≠ [] → PassesRefreshes s fits →
      ∀ cmd, cmd.opensOrCloses = true → fits cmd = false) :
    (s'.buffer .pim).length < (s.buffer .pim).length ∨
      s'.buffer .pim = s.buffer .pim ∧ (s'.load M L < s.load M L ∨
        s'.load M L = s.load M L ∧
          (L.wait s.dram = 0 → (∀ cmd, fits cmd = true) → s.load M L = 0)) := by
  have hdrop := dropBarrier_eq_or_length_lt (s.buffer .pim)
  cases hpassed with
  | precharge a hne hclean hdram hpriority hpim =>
    refine .inr ⟨hpim, .inl ?_⟩
    rw [State.load, State.load, hdram, hpriority, hpim]
    exact load_precharge h.valid hne hclean a
  | refresh a req hclean hdram hpriority hpim =>
    refine .inr ⟨hpim, .inl ?_⟩
    rw [State.load, State.load, hdram, hpriority, hpim]
    exact load_refresh h.valid hclean a
  | waits req hready hdram hpriority hpim =>
    refine .inr ⟨hpim, .inr ⟨by rw [State.load, State.load, hdram, hpriority, hpim], ?_⟩⟩
    intro hwait _
    exact absurd (hready.symm.trans (L.ready hwait)) (by decide)
  | issue hpass it hbest hfitsIt hrow hdram hpriority hpim =>
    obtain ⟨hopens, hdemand⟩ := h.demand_issue hbest hrow
    rcases hdrop with hsame | hlt
    · have hrefreshes : s.buffer .priority = [] := by
        by_contra hne
        exact absurd (hfitsIt.symm.trans (hfits hne hpass _ hopens)) (by decide)
      have hne : s.buffer .pim ≠ [] := by
        intro hnil
        have hlt := (h.mem_of_best hbest).1
        rw [hsame, hnil] at hlt
        exact Nat.not_lt_zero _ hlt
      have hcommand : command s.dram it.2 ≠ .REFab := by
        intro heq
        rw [heq] at hopens
        cases hopens
      rw [hsame] at hdemand
      refine .inr ⟨hpim.trans hsame, .inl ?_⟩
      rw [State.load, State.load, hdram, hpriority, hrefreshes, hpim, hsame]
      exact load_issue hne hdemand (L.issue _ hcommand)
    · exact .inl (hpim ▸ hlt)
  | finish it hbest hdram hpriority hpim =>
    left
    have hlt := (h.mem_of_best hbest).1
    have hle := (dropBarrier_sublist (s.buffer .pim)).length_le
    rw [hpim, List.length_eraseIdx_of_lt hlt]
    omega
  | idle hpass hbest hdram hpriority hpim =>
    rcases hdrop with hsame | hlt
    · refine .inr ⟨hpim.trans hsame, .inr ⟨?_, fun hwait hall => ?_⟩⟩
      · rw [State.load, State.load, hdram, hpriority, hpim, hsame]
      · exact h.load_eq_zero hwait hall hpass hsame hbest
    · exact .inl (hpim ▸ hlt)

/-- While refreshes wait, the first pass is theirs. -/
theorem first_of_refreshes (h : Serving M s) (hne : (s.firstPass w).buffer .priority ≠ []) :
    ∃ req ∈ s.buffer .priority, ∀ stale,
      (s.scheduleRequest w).2.command stale = some (command s.dram req) := by
  have hbuffer : s.buffer .priority ≠ [] := by
    have hpassed := h.passed w fun _ => true
    rw [State.firstPass, State.scheduleRequest] at hne
    cases hpassed with
    | precharge a hrefreshes => exact hrefreshes
    | refresh a req hclean hdram hpriority hpim => exact hpriority ▸ List.cons_ne_nil _ _
    | waits req hready hdram hpriority hpim => exact hpriority ▸ hne
    | issue hpass it hbest hfits hrow hdram hpriority hpim => exact hpriority ▸ hne
    | finish it hbest hdram hpriority hpim => exact hpriority ▸ hne
    | idle hpass hbest hdram hpriority hpim => exact hpriority ▸ hne
  have hnot := not_passesRefreshes hbuffer
  have hscheduled := (@PimOnly.schedule D w s (fun _ => true) h.pimOnly).1
  rw [State.scheduleRequest]
  generalize (s.schedule w fun _ => true).2 = outcome at hscheduled
  cases hscheduled with
  | refresh req hreq => exact ⟨req, List.mem_of_mem_head? hreq, fun _ => rfl⟩
  | waits req hreq => exact ⟨req, List.mem_of_mem_head? hreq, fun _ => rfl⟩
  | pim hpass => exact absurd hpass hnot
  | idle hpass => exact absurd hpass hnot

/-- So the second one opens no rows. -/
theorem second_of_refreshes (h : Serving M s) (hne : (s.firstPass w).buffer .priority ≠ [])
    {stale : Option Command} {cmd : Command} (hcmd : cmd.opensOrCloses = true) :
    compareCommandType ((s.scheduleRequest w).2.command stale) cmd = false := by
  obtain ⟨req, hreq, hfirst⟩ := h.first_of_refreshes hne
  have hrow : ∀ first, first = Command.REFab ∨ first = .PREA →
      compareCommandType (some first) cmd = false := by
    rintro first (rfl | rfl)
    all_goals cases cmd with
      | ACT | PRE | PREA | PRESB | PREPB | ACTAB | ACTSB | ACTPB => rfl
      | _ => cases hcmd
  rw [hfirst]
  refine hrow _ ?_
  rw [(h.command_refresh hreq).2]
  split_ifs
  · exact .inl rfl
  · exact .inr rfl

end Serving

/-! ## A tick -/

section

variable {refreshes : List AddrVec} {stale : Option Command}

/-- What accepting a request changes. -/
theorem frame_accept {id : BufferId} {r : Request} (h : s.accept id r = (s', true)) :
    s'.clk = s.clk ∧ s'.dram = s.dram ∧ s'.buffer id = s.buffer id ++ [r] ∧
      ∀ id' ≠ id, s'.buffer id' = s.buffer id' := by
  rw [State.accept] at h
  split_ifs at h with hfull
  · cases (Prod.mk.inj h).2
  · obtain rfl := (Prod.mk.inj h).1
    refine ⟨rfl, rfl, ?_, ?_⟩
    · show ((s.setBuffer id ((s.buffers id).enqueue r)).buffers id).buffer = _
      rw [State.buffers_setBuffer_self, ReqBuffer.enqueue, if_neg hfull]
    · intro id' hne
      exact congrArg ReqBuffer.buffer (State.buffers_setBuffer_of_ne hne _)

/-- A refresh is rejected by a full buffer. -/
theorem maxSize_lt_of_refreshTick (h : State.refreshTick refreshes s = none) :
    (s.buffers .priority).maxSize < (s.buffer .priority).length + refreshes.length := by
  induction refreshes generalizing s with
  | nil => cases h
  | cons addrVec rest ih =>
    rw [State.refreshTick, State.prioritySend, State.accept] at h
    rw [List.length_cons]
    split_ifs at h with hfull
    · have hlt : (s.buffers .priority).maxSize < (s.buffer .priority).length :=
        of_decide_eq_true hfull
      omega
    · have hrest := ih h
      rw [State.buffers_setBuffer_self, State.buffer, State.buffers_setBuffer_self,
        ReqBuffer.enqueue, if_neg hfull, List.length_append, List.length_singleton,
        add_assoc, add_comm 1] at hrest
      exact hrest

/-- A PIM request is accepted, or the PIM buffer is full. -/
theorem send_pim_cases {p : Packet} (hp : p.typeId.sendBuffer = some .pim) {isSuccess : Bool}
    (hsend : s.send p = some (s', isSuccess)) :
    isSuccess = true ∧ s'.clk = s.clk ∧ s'.dram = s.dram ∧
        s'.buffer .priority = s.buffer .priority ∧
        (∃ r : Request, r.packet = p ∧ r.arrive = s.clk ∧
          s'.buffer .pim = s.buffer .pim ++ [r]) ∨
      isSuccess = false ∧ s' = s ∧ s.buffer .pim ≠ [] := by
  have hread : ¬p.typeId = .Read := by
    intro hread
    rw [hread] at hp
    cases hp
  rw [State.send] at hsend
  simp only [hread, false_and, if_false, hp, Option.map_some, Option.some.injEq] at hsend
  cases isSuccess with
  | true =>
    obtain ⟨hclk, hdram, hpim, hother⟩ := frame_accept hsend
    exact .inl ⟨rfl, hclk, hdram, hother .priority (by decide), _, rfl, rfl, hpim⟩
  | false =>
    rw [State.accept] at hsend
    split_ifs at hsend with hfull
    · refine .inr ⟨rfl, (Prod.mk.inj hsend).1.symm, fun hnil => ?_⟩
      have hlt : (s.buffers .pim).maxSize < (s.buffer .pim).length := of_decide_eq_true hfull
      rw [hnil] at hlt
      exact Nat.not_lt_zero _ hlt
    · cases (Prod.mk.inj hsend).2

/-- What submitting refreshes changes. -/
theorem frame_refreshTick (h : State.refreshTick refreshes s = some s') :
    s'.clk = s.clk ∧ s'.dram = s.dram ∧ s'.buffer .pim = s.buffer .pim ∧
      ∃ submitted : List Request, submitted.length = refreshes.length ∧
        s'.buffer .priority = s.buffer .priority ++ submitted := by
  induction refreshes generalizing s with
  | nil =>
    obtain rfl := Option.some.inj h
    exact ⟨rfl, rfl, rfl, [], rfl, (List.append_nil _).symm⟩
  | cons addrVec rest ih =>
    rw [State.refreshTick] at h
    rcases hsend : s.prioritySend ⟨-1, addrVec, .AllBankRefresh⟩ with ⟨s₁, _ | _⟩
    · rw [hsend] at h
      cases h
    · rw [hsend] at h
      obtain ⟨hclk₁, hdram₁, hpriority₁, hother⟩ := frame_accept hsend
      obtain ⟨hclk, hdram, hpim, submitted, hlength, hpriority⟩ := ih h
      refine ⟨hclk.trans hclk₁, hdram.trans hdram₁, hpim.trans (hother .pim (by decide)),
        Request.new s.accepted.length ⟨-1, addrVec, .AllBankRefresh⟩ :: submitted,
        by simp [hlength], ?_⟩
      rw [hpriority, hpriority₁, List.append_assoc]
      rfl

end

namespace Serving

variable {M : RowMachine D} {L : Latencies D} {refreshes : List AddrVec} {stale : Option Command}

theorem beginTick (h : Serving M s) : Serving M s.beginTick := by
  refine ⟨h.pimOnly.beginTick, h.ordered.beginTick, ?_, ?_, ?_, ?_⟩
  all_goals rw [h.pimOnly.beginTick_eq]
  · exact h.known
  · exact (M.tick h.valid).1
  · exact h.inOrder
  · exact fun r hr => (h.arrive_le r hr).trans (lt_add_one _).le

theorem refreshTick (h : Serving M s) (hs : State.refreshTick refreshes s = some s') :
    Serving M s' := by
  obtain ⟨hclk, hdram, hpim, -⟩ := frame_refreshTick hs
  refine ⟨h.pimOnly.refreshTick hs, h.ordered.refreshTick hs, ?_, hdram ▸ h.valid, ?_, ?_⟩
  all_goals rw [hpim]
  · exact h.known
  · exact h.inOrder
  · rw [hclk]
    exact h.arrive_le

/-- A controller without requests. -/
theorem initial (maxSize : BufferId → ℕ) {dram : D.State} (hdram : M.Valid dram) :
    Serving M (State.initial maxSize dram) :=
  ⟨.initial maxSize dram, .initial maxSize dram, fun _ hr => absurd hr List.not_mem_nil, hdram,
    List.Pairwise.nil, fun _ hr => absurd hr List.not_mem_nil⟩

theorem send (h : Serving M s) {p : Packet} (hp : p.typeId.sendBuffer = some .pim)
    (hknown : M.Known p) {isSuccess : Bool} (hsend : s.send p = some (s', isSuccess)) :
    Serving M s' := by
  rcases send_pim_cases hp hsend with ⟨-, hclk, hdram, -, r, hr, harrive, hpim⟩ | ⟨-, rfl, -⟩
  · have hmem : ∀ x, x ∈ s'.buffer .pim ↔ x ∈ s.buffer .pim ∨ x = r := by
      intro x
      rw [hpim, List.mem_append, List.mem_singleton]
    refine ⟨h.pimOnly.send hp hsend, h.ordered.send hsend, ?_, hdram ▸ h.valid, ?_, ?_⟩
    · intro x hx
      rcases (hmem x).mp hx with hx | rfl
      · exact h.known x hx
      · exact hr ▸ hknown
    · rw [InArrivalOrder, hpim]
      refine List.pairwise_append.mpr ⟨h.inOrder, List.pairwise_singleton _ _, ?_⟩
      intro x hx y hy
      rw [List.mem_singleton.mp hy, harrive]
      exact h.arrive_le x hx
    · intro x hx
      rw [hclk]
      rcases (hmem x).mp hx with hx | rfl
      · exact h.arrive_le x hx
      · exact harrive.le
  · exact h

/-- **A tick keeps all this.** -/
theorem tick (h : Serving M s) (htick : s.tick w refreshes stale = some s') : Serving M s' := by
  obtain ⟨s₁, hs₁, rfl⟩ := Option.map_eq_some_iff.mp htick
  exact ((h.beginTick.refreshTick hs₁).pass w _).pass w _

/-- **A tick gets closer**: it finishes a request, or lowers the load by one, but for the refreshes
that are submitted in it. -/
theorem load_tick (h : Serving M s) (htick : s.tick w refreshes stale = some s') :
    (s'.buffer .pim).length < (s.buffer .pim).length ∨
      s'.buffer .pim = s.buffer .pim ∧ s'.load M L ≤
        s.load M L - 1 + if refreshes = [] then 0 else roundLoad M L refreshes.length := by
  obtain ⟨s₁, hs₁, rfl⟩ := Option.map_eq_some_iff.mp htick
  have hserving₁ := h.beginTick.refreshTick hs₁
  have hserving₂ := hserving₁.pass w fun _ => true
  obtain ⟨-, hdram, hpim, submitted, hlength, hpriority⟩ := frame_refreshTick hs₁
  rw [h.pimOnly.beginTick_eq] at hdram hpim hpriority
  simp only at hdram
  have hwait : L.wait s.dram = 0 → L.wait s₁.dram = 0 := by
    intro hzero
    have hle : L.wait (D.tick s.dram) ≤ L.wait s.dram - 1 := L.tick
    rw [hdram]
    omega
  -- the cycle that begins, and the refreshes of it
  have hload₁ : s₁.load M L ≤ s.load M L +
      (if refreshes = [] then 0 else roundLoad M L refreshes.length) ∧
      (0 < L.wait s.dram → s₁.load M L < s.load M L +
        if refreshes = [] then 0 else roundLoad M L refreshes.length) := by
    have hbegin := @Controller.load_tick D M L s.dram (s.buffer .priority) (s.buffer .pim) h.valid
    have hsubmit : s₁.load M L ≤ load M L (D.tick s.dram) (s.buffer .priority) (s.buffer .pim) +
        if refreshes = [] then 0 else roundLoad M L refreshes.length := by
      rw [State.load, hdram, hpim, hpriority]
      split_ifs with hnil
      · obtain rfl : submitted = [] := List.length_eq_zero_iff.mp (hlength.trans (by simp [hnil]))
        simp
      · exact hlength ▸ load_submit _ _ _
    have hload : s.load M L = load M L s.dram (s.buffer .priority) (s.buffer .pim) := rfl
    omega
  have hfirst := hserving₁.load_pass (L := L) (hserving₁.passed w fun _ => true)
    fun hne hpass => absurd hpass (not_passesRefreshes hne)
  have hsecond := hserving₂.load_pass (L := L)
    (hserving₂.passed w (compareCommandType ((s₁.scheduleRequest w).2.command stale)))
    fun hne _ cmd hcmd => hserving₁.second_of_refreshes hne hcmd
  have hpim₁ : s₁.buffer .pim = s.buffer .pim := hpim
  rw [hpim₁] at hfirst
  rcases hfirst with hlt | ⟨hsame, hfirst⟩
  · left
    have hle : (((s₁.firstPass w).secondPass w ((s₁.scheduleRequest w).2.command stale)).buffer
        .pim).length ≤ ((s₁.firstPass w).buffer .pim).length := by
      rcases hsecond with hlt' | ⟨hsame', -⟩
      · exact hlt'.le
      · exact (congrArg List.length hsame').le
    exact hle.trans_lt hlt
  · rcases hsecond with hlt' | ⟨hsame', hsecond⟩
    · left
      exact lt_of_lt_of_eq hlt' (congrArg List.length hsame)
    · refine .inr ⟨hsame'.trans hsame, ?_⟩
      have hfinal : ((s₁.firstPass w).secondPass w
          ((s₁.scheduleRequest w).2.command stale)).load M L ≤ (s₁.firstPass w).load M L := by
        rcases hsecond with hless | ⟨heq, -⟩
        · exact hless.le
        · exact heq.le
      refine hfinal.trans ?_
      have hready : L.wait s.dram = 0 → (s₁.firstPass w).load M L < s₁.load M L ∨
          (s₁.firstPass w).load M L = 0 := by
        intro hzero
        rcases hfirst with hless | ⟨heq, hdone⟩
        · exact .inl hless
        · exact .inr (heq.trans (hdone (hwait hzero) fun _ => rfl))
      have hle : (s₁.firstPass w).load M L ≤ s₁.load M L := by
        rcases hfirst with hless | ⟨heq, -⟩
        · exact hless.le
        · exact heq.le
      obtain ⟨hload, hlt⟩ := hload₁
      rcases Nat.eq_zero_or_pos (L.wait s.dram) with hzero | hpos
      · rcases hready hzero with hless | hnone
        · omega
        · omega
      · have hless := hlt hpos
        omega

end Serving

end AttAcc.Controller
