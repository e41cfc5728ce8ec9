import AttAcc.Controller.Bus

/-!
# The trace recorder

`hbm3_trace_recorder.cpp`, a plugin of the controllers: `tick` calls it after each of its two
passes, and it writes a line for every request that a pass has found, with a clock of its own that
goes on with every other call.

Its file is the command bus, line by line and with the controller's cycles, and from the file alone
one can tell the state that the device is in (`recorder_writes_bus`).
-/

namespace AttAcc.Controller

open Dram (Command)
open Library

/-- What is written for a command: the cycle, the command and its address. -/
abbrev TraceLine := ℕ × Command × AddrVec

/-- `HBM3TraceRecorder`. -/
structure TraceRecorder where
  clk : ℕ
  second : Bool
  /-- The file, from its first line. -/
  lines : List TraceLine
  deriving Repr

namespace TraceRecorder

/-- Before the first call. -/
def initial : TraceRecorder := ⟨0, false, []⟩

variable (r : TraceRecorder)

/-- The clock goes on with the first call of two. -/
def advance : TraceRecorder :=
  if r.second then { r with second := false } else { r with clk := r.clk + 1, second := true }

/-- `update`, with what a pass has found. -/
def update (o : Outcome) : TraceRecorder :=
  match o with
  | .found c =>
    { r.advance with lines := r.advance.lines ++ [(r.advance.clk, c.command, c.req.addrVec)] }
  | .stopped _ => r.advance

theorem lines_advance : r.advance.lines = r.lines := by
  rw [advance]
  split_ifs <;> rfl

theorem clk_update (o : Outcome) :
    (r.update o).clk = r.advance.clk ∧ (r.update o).second = r.advance.second := by
  cases o with
  | found c => exact ⟨rfl, rfl⟩
  | stopped reqIt => exact ⟨rfl, rfl⟩

end TraceRecorder

variable {D : Device}

/-- The line of a command. -/
def Issue.line (p : ℕ × Issue) : TraceLine := (p.1, p.2.2, p.2.1.addrVec)

/-- A device sees the command of a line. -/
def Device.actLine (D : Device) (dram : D.State) (l : Command × AddrVec) : D.State :=
  D.issueCommand dram l.1 l.2

/-- The device, after the lines of a file. -/
def Device.replayLines (D : Device) (dram : D.State) (lines : List TraceLine) (clk : ℕ) : D.State :=
  Library.replay D.tick D.actLine dram lines.reverse clk

/-! ## A controller with a recorder -/

section Recorded

variable (w : Watermarks)

/-- Steps 2 to 5 of `tick`, with the plugin. -/
def recordPasses (stale : Option Command) (s : State D) (r : TraceRecorder) :
    State D × TraceRecorder :=
  let first := s.scheduleRequest w
  let r := r.update first.2
  let s := first.1.serve first.2
  let second := s.scheduleSecRequest w (first.2.command stale)
  let r := r.update second.2
  (second.1.serve second.2, r)

/-- One event, with the plugin. -/
def recordStep (p : State D × TraceRecorder) : Event → State D × TraceRecorder
  | .send packet => ((p.1.send packet).elim p.1 Prod.fst, p.2)
  | .tick refreshes stale =>
    match State.refreshTick refreshes p.1.beginTick with
    | none => p
    | some s => recordPasses w stale s p.2

end Recorded

variable {w : Watermarks} {s s' : State D} {r r' : TraceRecorder}

/-- The plugin leaves the controller alone. -/
theorem fst_recordStep (p : State D × TraceRecorder) (e : Event) :
    (recordStep w p e).1 = step w p.1 e := by
  cases e with
  | send packet => rfl
  | tick refreshes stale =>
    rw [recordStep, step, State.tick]
    cases State.refreshTick refreshes p.1.beginTick with
    | none => rfl
    | some s => rfl

/-! ## The bus, step by step -/

/-- An issued command is on the bus. -/
theorem bus_issue (s : State D) (c : Cursor) :
    bus (s.issue c).log = (s.clk.toNat, c.req, c.command) :: bus s.log := by
  have hcommanded : bus (s.commanded c).log = (s.clk.toNat, c.req, c.command) :: bus s.log := rfl
  by_cases hfinal : c.command = c.req.finalCommand
  · rw [State.issue_of_final hfinal, (frame_finish _ c).2.2, hcommanded]
  · cases hmoves : s.moves c with
    | false => rw [State.issue_of_stays hfinal hmoves, hcommanded]
    | true => rw [State.issue_of_moves hfinal hmoves, (frame_moveToActive _ c).2.2, hcommanded]

theorem bus_beginTick (s : State D) : bus s.beginTick.log = bus s.log := by
  rw [State.beginTick, State.serveCompletedReads]
  split
  · rfl
  · split_ifs
    · rfl
    · rfl

theorem bus_refreshTick {refreshes : List AddrVec} (h : State.refreshTick refreshes s = some s') :
    s'.clk = s.clk ∧ bus s'.log = bus s.log := by
  refine State.refreshTick_induction (P := fun s' => s'.clk = s.clk ∧ bus s'.log = bus s.log) ?_
    ⟨rfl, rfl⟩ h
  rintro s₁ addrVec ⟨hclk, hbus⟩
  obtain ⟨hclk', -, hlog⟩ := frame_accept_bus s₁ .priority
    (Request.new s₁.accepted.length ⟨-1, addrVec, .AllBankRefresh⟩)
  exact ⟨hclk'.trans hclk, (congrArg bus hlog).trans hbus⟩

theorem bus_send {p : Packet} {q : State D × Bool} (h : s.send p = some q) :
    q.1.clk = s.clk ∧ bus q.1.log = bus s.log := by
  rw [State.send] at h
  simp only at h
  split_ifs at h
  · obtain rfl := Option.some.inj h
    exact ⟨rfl, rfl⟩
  · obtain ⟨id, -, rfl⟩ := Option.map_eq_some_iff.mp h
    obtain ⟨hclk, -, hlog⟩ := frame_accept_bus s id
      { Request.new s.accepted.length p with arrive := s.clk }
    exact ⟨hclk, congrArg bus hlog⟩

/-! ## The file -/

/-- The lines of a bus. -/
def linesOf (s : State D) : List TraceLine := (bus s.log).reverse.map Issue.line

/-- The file is what has been on the bus, and the clocks agree. -/
structure Records (s : State D) (r : TraceRecorder) : Prop where
  clk : (r.clk : ℤ) = s.clk
  second : r.second = false
  lines : r.lines = linesOf s

/-- The plugin writes what a pass puts on the bus. -/
theorem lines_update (w : Watermarks) (s : State D) (fits : Command → Bool) (r : TraceRecorder)
    (hclk : (r.advance.clk : ℤ) = s.clk) (hlines : r.lines = linesOf s) :
    (r.update (s.schedule w fits).2).lines =
        linesOf ((s.schedule w fits).1.serve (s.schedule w fits).2) ∧
      ((s.schedule w fits).1.serve (s.schedule w fits).2).clk = s.clk := by
  obtain ⟨hpruned, -⟩ := s.schedule_spec w fits
  have hafter : linesOf (s.schedule w fits).1 = r.lines := by
    rw [linesOf, hpruned.log, hlines, linesOf]
  cases (s.schedule w fits).2 with
  | stopped reqIt => exact ⟨(TraceRecorder.lines_advance r).trans hafter.symm, hpruned.clk⟩
  | found c =>
    have htime : (s.schedule w fits).1.clk.toNat = r.advance.clk := by
      rw [hpruned.clk, ← hclk, Int.toNat_natCast]
    refine ⟨?_, (clk_issue _ c).trans hpruned.clk⟩
    show r.advance.lines ++ _ = linesOf ((s.schedule w fits).1.issue c)
    rw [TraceRecorder.lines_advance, ← hafter, linesOf, linesOf, bus_issue, List.reverse_cons,
      List.map_append, htime]
    rfl

namespace Records

theorem send (h : Records s r) {p : Packet} {q : State D × Bool} (hq : s.send p = some q) :
    Records q.1 r := by
  obtain ⟨hclk, hbus⟩ := bus_send hq
  exact ⟨h.clk.trans hclk.symm, h.second, h.lines.trans (by rw [linesOf, linesOf, hbus])⟩

/-- **Both passes of a tick are recorded**, for the cycle that has begun. -/
theorem passes (hclk : (r.clk : ℤ) + 1 = s.clk) (hsecond : r.second = false)
    (hlines : r.lines = linesOf s) (w : Watermarks) (stale : Option Command) :
    Records (recordPasses w stale s r).1 (recordPasses w stale s r).2 := by
  have hadvance : r.advance = { r with clk := r.clk + 1, second := true } := by
    rw [TraceRecorder.advance, hsecond]
    rfl
  -- the first call
  have hnow : (r.advance.clk : ℤ) = s.clk := by rw [hadvance, ← hclk, Nat.cast_succ]
  obtain ⟨hlines₁, hclk₁⟩ := lines_update w s (fun _ => true) r hnow hlines
  obtain ⟨htime₁, hsecond₁⟩ := r.clk_update (s.scheduleRequest w).2
  set s₁ := (s.scheduleRequest w).1.serve (s.scheduleRequest w).2
  set r₁ := r.update (s.scheduleRequest w).2
  have hadvance₁ : r₁.advance = { r₁ with second := false } := by
    rw [TraceRecorder.advance, hsecond₁, hadvance]
    rfl
  -- the second call
  have hnow₁ : (r₁.advance.clk : ℤ) = s₁.clk := by
    rw [hadvance₁, htime₁, hnow]
    exact hclk₁.symm
  obtain ⟨hlines₂, hclk₂⟩ := lines_update w s₁
    (compareCommandType ((s.scheduleRequest w).2.command stale)) r₁ hnow₁ hlines₁
  obtain ⟨htime₂, hsecond₂⟩ := r₁.clk_update
    (s₁.scheduleSecRequest w ((s.scheduleRequest w).2.command stale)).2
  refine ⟨?_, ?_, hlines₂⟩
  · exact (congrArg Nat.cast htime₂).trans (hnow₁.trans hclk₂.symm)
  · exact hsecond₂.trans (congrArg TraceRecorder.second hadvance₁)

/-- **An event keeps the file up to date.** -/
theorem step (h : Records s r) (w : Watermarks) (e : Event) :
    Records (recordStep w (s, r) e).1 (recordStep w (s, r) e).2 := by
  cases e with
  | send p =>
    rw [recordStep]
    simp only
    cases hq : s.send p with
    | none => exact h
    | some q => exact h.send hq
  | tick refreshes stale =>
    rw [recordStep]
    simp only
    cases hs₁ : State.refreshTick refreshes s.beginTick with
    | none => exact h
    | some s₁ =>
      obtain ⟨hclk, hbus⟩ := bus_refreshTick hs₁
      refine passes ?_ h.second ?_ w stale
      · rw [hclk, clk_beginTick, h.clk]
      · rw [h.lines, linesOf, linesOf, hbus, bus_beginTick]

end Records

/-- The commands of a bus, seen without their requests. -/
theorem replay_map_line (dram : D.State) (issues : List (ℕ × Issue)) (clk : ℕ) :
    Library.replay D.tick D.actLine dram (issues.map Issue.line) clk =
      D.replay dram issues clk := by
  induction issues generalizing clk with
  | nil => rfl
  | cons p older ih =>
    obtain ⟨t, i⟩ := p
    rw [List.map_cons]
    show D.tick^[clk - t] (D.actLine (Library.replay D.tick D.actLine dram _ t) _) =
      D.tick^[clk - t] (D.act (D.replay dram older t) i)
    rw [ih]
    rfl

/-- **The recorder writes the bus**: in every run, whatever the device does and the controller is
sent, the controller does as it does without the plugin, the file has its commands in the order in
which they were issued, with its cycles, and the device is in the state that they lead to. -/
theorem recorder_writes_bus (w : Watermarks) (maxSize : BufferId → ℕ) (dram : D.State)
    (events : List Event) :
    let p := events.foldl (recordStep w) (State.initial maxSize dram, TraceRecorder.initial)
    p.1 = events.foldl (step w) (State.initial maxSize dram) ∧
      p.2.lines = linesOf p.1 ∧ (p.2.clk : ℤ) = p.1.clk ∧
      D.replayLines dram p.2.lines p.2.clk = p.1.dram := by
  have hrun : ∀ (events : List Event) (s : State D) (r : TraceRecorder), Records s r →
      Replayed dram s →
      (events.foldl (recordStep w) (s, r)).1 = events.foldl (step w) s ∧
        Records (events.foldl (recordStep w) (s, r)).1 (events.foldl (recordStep w) (s, r)).2 ∧
        Replayed dram (events.foldl (recordStep w) (s, r)).1 := by
    intro events
    induction events with
    | nil => exact fun s r hrecords hreplayed => ⟨rfl, hrecords, hreplayed⟩
    | cons e rest ih =>
      intro s r hrecords hreplayed
      have hsame : (recordStep w (s, r) e).1 = step w s e := fst_recordStep (s, r) e
      rw [List.foldl_cons, List.foldl_cons, ← hsame]
      exact ih _ _ (hrecords.step w e) (hsame ▸ hreplayed.step e)
  obtain ⟨hsame, hrecords, hreplayed⟩ := hrun events (State.initial maxSize dram)
    TraceRecorder.initial ⟨rfl, rfl, rfl⟩ (.initial maxSize dram)
  refine ⟨hsame, hrecords.lines, hrecords.clk, ?_⟩
  rw [Device.replayLines, hrecords.lines, linesOf, ← List.map_reverse, List.reverse_reverse,
    replay_map_line, ← hreplayed.dram, ← hrecords.clk, Int.toNat_natCast]

end AttAcc.Controller
