import AttAcc.Controller.Scheduler
import Mathlib.Data.Rat.Defs
import Mathlib.Algebra.Order.Ring.Rat
import Mathlib.Logic.Function.Basic

/-!
# The HBM3-PIM controller

`hbm3_pim_controller.cpp`: five request buffers and a queue of reads that wait for their
data; `send` and `priority_send` accept requests, and `tick` looks for one request to serve
and then for a second one whose command may be issued in the same cycle. The two passes are
one cascade over the buffers, of which the second also asks for the type of the command.

The state carries two things that the source does not have, to state what happens to a
request: the requests accepted so far, and a log of what was done to them.
-/

namespace AttAcc.Controller

open Dram (Command)

/-! ## Buffers -/

/-- `ReqBuffer`. -/
structure ReqBuffer where
  buffer : List Request
  maxSize : ℕ

namespace ReqBuffer

variable (b : ReqBuffer)

/-- `enqueue` rejects a request. -/
def isFull : Bool := decide (b.maxSize < b.buffer.length)

/-- The buffer after `enqueue`. -/
def enqueue (r : Request) : ReqBuffer :=
  if b.isFull then b else { b with buffer := b.buffer ++ [r] }

/-- `remove`. -/
def remove (pos : ℕ) : ReqBuffer := { b with buffer := b.buffer.eraseIdx pos }

end ReqBuffer

/-- The buffers of the controller. -/
inductive BufferId where
  | active
  | priority
  | read
  | write
  | pim
  deriving DecidableEq, Repr

/-- The buffer that `send` picks. The other types are invalid there. -/
def RequestType.sendBuffer : RequestType → Option BufferId
  | Read => some .read
  | Write => some .write
  | AllBankRefresh | PerBankRefresh => none
  | PIM_MAC_AB | PIM_MAC_SB | PIM_MAC_PB | PIM_WR_GB | PIM_MV_SB | PIM_MV_GB | PIM_SFM
  | PIM_SET_MODEL | PIM_SET_HEAD | PIM_BARRIER => some .pim

/-! ## Types of commands -/

/-- `get_command_type`: a row command is 0, a column command 1. -/
inductive CommandType where
  | row
  | col
  deriving DecidableEq, Repr

/-- `get_command_type`, `none` for -1: it does not know `PRESB` and `PREPB`. -/
def getCommandType : Command → Option CommandType
  | .ACT | .PRE | .PREA | .REFab | .REFsb | .ACTAB | .ACTSB | .ACTPB => some .row
  | .RD | .WR | .MACAB | .MACSB | .MACPB | .WRGB | .MVSB | .MVGB | .SFM | .SETM | .SETH =>
    some .col
  | .PRESB | .PREPB | .BARRIER => none

/-- `compare_command_type`. The first command is a number that need not be a command. -/
def compareCommandType (first : Option Command) (second : Command) : Bool :=
  match first.bind getCommandType, getCommandType second with
  | some t1, some t2 => decide (t1 ≠ t2)
  | _, _ => false

/-! ## The state -/

/-- What is done to a request. -/
inductive Entry where
  /-- A command is issued for it. -/
  | issued (clk : ℤ) (req : Request) (command : Command)
  /-- A read is answered from the write buffer. -/
  | forwarded (req : Request)
  /-- A read gets its data. -/
  | delivered (req : Request)
  /-- It is removed from its buffer, and the active buffer rejects it. -/
  | lost (req : Request)
  deriving DecidableEq, Repr

/-- The watermarks of the write buffer. -/
structure Watermarks where
  low : ℚ
  high : ℚ

/-- `HBM3PIMController`. -/
structure State (D : Device) where
  clk : ℤ
  pending : List Request
  buffers : BufferId → ReqBuffer
  isWriteMode : Bool
  isPim : Bool
  dram : D.State
  /-- The accepted requests, newest first. -/
  accepted : List Request
  /-- What was done to them, newest first. -/
  log : List Entry

/-- A request to serve: the buffer, the position in it, and the request there with its
command. -/
structure Cursor where
  id : BufferId
  pos : ℕ
  req : Request
  command : Command
  deriving DecidableEq, Repr

/-- Where a pass ends: at a request to serve, or with `req_it` at a request that is not to
be served, or at the end of a buffer. -/
inductive Outcome where
  | found (c : Cursor)
  | stopped (reqIt : Option Cursor)
  deriving DecidableEq, Repr

/-- `req_it->command` after a pass. At the end of a buffer it is whatever is there. -/
def Outcome.command (stale : Option Command) : Outcome → Option Command
  | .found c => some c.command
  | .stopped (some c) => some c.command
  | .stopped none => stale

namespace State

variable {D : Device} (w : Watermarks) (s : State D)

/-- Empty buffers of the given sizes. -/
def initial (maxSize : BufferId → ℕ) (dram : D.State) : State D where
  clk := 0
  pending := []
  buffers id := ⟨[], maxSize id⟩
  isWriteMode := false
  isPim := false
  dram := dram
  accepted := []
  log := []

/-- The requests in a buffer. -/
abbrev buffer (id : BufferId) : List Request := (s.buffers id).buffer

def setBuffer (id : BufferId) (b : ReqBuffer) : State D :=
  { s with buffers := Function.update s.buffers id b }

def record (e : Entry) : State D := { s with log := e :: s.log }

/-! ## Accepting requests -/

/-- A request that a buffer accepts, or not. -/
def accept (id : BufferId) (req : Request) : State D × Bool :=
  if (s.buffers id).isFull then (s, false)
  else
    ({ s.setBuffer id ((s.buffers id).enqueue req) with accepted := req :: s.accepted }, true)

/-- `send`. A request type that it does not know throws. -/
def send (p : Packet) : Option (State D × Bool) :=
  let req := Request.new s.accepted.length p
  if p.typeId = .Read ∧ ∃ wreq ∈ s.buffer .write, wreq.addr = req.addr then
    let req := { req with depart := s.clk + 1 }
    some ({ s.record (.forwarded req) with
      pending := s.pending ++ [req], accepted := req :: s.accepted }, true)
  else p.typeId.sendBuffer.map fun id => s.accept id { req with arrive := s.clk }

/-- `priority_send`. -/
def prioritySend (p : Packet) : State D × Bool :=
  s.accept .priority (Request.new s.accepted.length p)

/-- The refresh manager's `tick`, which submits refreshes. It throws if one is rejected. -/
def refreshTick : List AddrVec → State D → Option (State D)
  | [], s => some s
  | addrVec :: rest, s =>
    match s.prioritySend ⟨-1, addrVec, .AllBankRefresh⟩ with
    | (s, true) => refreshTick rest s
    | (_, false) => none

variable {s} in
/-- What a refresh keeps is kept by all of them. -/
theorem refreshTick_induction {P : State D → Prop}
    (hsend : ∀ s addrVec, P s → P (s.prioritySend ⟨-1, addrVec, .AllBankRefresh⟩).1) (h : P s)
    {refreshes : List AddrVec} {s' : State D} (hs : refreshTick refreshes s = some s') : P s' := by
  induction refreshes generalizing s with
  | nil =>
    obtain rfl := Option.some.inj hs
    exact h
  | cons addrVec rest ih =>
    have hstep := hsend s addrVec h
    rw [refreshTick] at hs
    rcases hpass : s.prioritySend ⟨-1, addrVec, .AllBankRefresh⟩ with ⟨s₁, _ | _⟩
    · rw [hpass] at hs
      cases hs
    · rw [hpass] at hs hstep
      exact ih hstep hs

/-- `serve_completed_reads`: the first pending read, if its data is there. -/
def serveCompletedReads : State D :=
  match s.pending with
  | [] => s
  | req :: rest =>
    if req.depart ≤ s.clk then { s.record (.delivered req) with pending := rest } else s

/-! ## Scheduling -/

/-- The scheduler's best request of a buffer, before the buffer is pruned. -/
def best (id : BufferId) : Option Cursor :=
  (getBestRequest s.dram (s.buffer id)).2.map fun it => ⟨id, it.1, it.2, command s.dram it.2⟩

/-- A buffer after the scheduler has looked at it. -/
def prune (id : BufferId) : State D :=
  s.setBuffer id { s.buffers id with buffer := (getBestRequest s.dram (s.buffer id)).1 }

/-- `check_ready`. -/
def isReady (c : Cursor) : Bool := D.checkReady s.dram c.command c.req.addrVec

/-- `set_write_mode`. -/
def setWriteMode : State D :=
  let size : ℚ := (s.buffer .write).length
  let maxSize : ℚ := (s.buffers .write).maxSize
  if s.isWriteMode = false then
    if w.high * maxSize < size ∨ (s.buffer .read).length = 0 then { s with isWriteMode := true }
    else s
  else if size < w.low * maxSize ∧ (s.buffer .read).length ≠ 0 then { s with isWriteMode := false }
  else s

/-- The read or the write buffer (2.2.3). -/
def scheduleReadWrite (fits : Command → Bool) : State D × Outcome :=
  let s := s.setWriteMode w
  let id : BufferId := if s.isWriteMode then .write else .read
  match s.best id with
  | some c => (s.prune id, if fits c.command && s.isReady c then .found c else .stopped (some c))
  | none => (s.prune id, .stopped none)

/-- The PIM buffer (2.2.2), then the ones below. -/
def schedulePim (fits : Command → Bool) : State D × Outcome :=
  let s := { s with isPim := false }
  match s.best .pim with
  | some c =>
    if fits c.command && s.isReady c then ({ s.prune .pim with isPim := true }, .found c)
    else (s.prune .pim).scheduleReadWrite w fits
  | none => (s.prune .pim).scheduleReadWrite w fits

/-- The head of the priority buffer (2.2.1), then the buffers below. If it fits and is not
ready, nothing below it is served. -/
def schedulePriority (fits : Command → Bool) : State D × Outcome :=
  match s.buffer .priority with
  | req :: _ =>
    let c : Cursor := ⟨.priority, 0, req, command s.dram req⟩
    if fits c.command then
      if s.isReady c then ({ s with isPim := false }, .found c) else (s, .stopped (some c))
    else s.schedulePim w fits
  | [] => s.schedulePim w fits

/-- The active buffer (2.1), then the ones below. -/
def scheduleActive (fits : Command → Bool) : State D × Outcome :=
  match s.best .active with
  | some c =>
    if fits c.command && s.isReady c then (s.prune .active, .found c)
    else (s.prune .active).schedulePriority w fits
  | none => (s.prune .active).schedulePriority w fits

/-- The command closes the row of a request in the active buffer (2.3). -/
def interrupts (c : Cursor) : Bool :=
  c.command.isClosing &&
    (s.buffer .active).any fun it => decide (bankAddrVec it = bankAddrVec c.req)

/-- A pass over the buffers, for commands that fit. -/
def schedule (fits : Command → Bool) : State D × Outcome :=
  match s.scheduleActive w fits with
  | (s, .found c) => (s, if s.interrupts c then .stopped (some c) else .found c)
  | (s, .stopped reqIt) => (s, .stopped reqIt)

/-- `schedule_request`. -/
def scheduleRequest : State D × Outcome := s.schedule w fun _ => true

/-- `schedule_sec_request`. -/
def scheduleSecRequest (first : Option Command) : State D × Outcome :=
  s.schedule w (compareCommandType first)

/-! ## Issuing -/

/-- The last command of a request: a read moves to the pending queue, and the request leaves
its buffer. -/
def finish (c : Cursor) : State D :=
  let s :=
    if c.req.typeId = .Read then
      { s with pending := s.pending ++ [{ c.req with depart := s.clk + D.readLatency }] }
    else s
  s.setBuffer c.id ((s.buffers c.id).remove c.pos)

/-- A request moves to the end of the active buffer. Whether that accepts it is not looked
at. -/
def moveToActive (c : Cursor) : State D :=
  let s := if (s.buffers .active).isFull then s.record (.lost c.req) else s
  let s := s.setBuffer .active ((s.buffers .active).enqueue c.req)
  s.setBuffer c.id ((s.buffers c.id).remove c.pos)

/-- The request moves: its command opens a row, and it is not known as a PIM request. -/
def moves (c : Cursor) : Bool :=
  decide (c.command ≠ c.req.finalCommand) && !s.isPim && c.command.isOpening

/-- The command of a request is issued. -/
def issue (c : Cursor) : State D :=
  let s := { s.record (.issued s.clk c.req c.command) with
    dram := D.issueCommand s.dram c.command c.req.addrVec }
  if c.command = c.req.finalCommand then s.finish c
  else if s.moves c then s.moveToActive c
  else s

/-- Serve the request that a pass has found. -/
def serve : Outcome → State D
  | .found c => s.issue c
  | .stopped _ => s

/-- The first pass, and its command. -/
def firstPass : State D := (s.scheduleRequest w).1.serve (s.scheduleRequest w).2

/-- The second pass. It reads the command of the first iterator, also where the first pass
has found nothing; where it has, the request may have left its buffer, and the command is the
one it had. -/
def secondPass (first : Option Command) : State D :=
  (s.scheduleSecRequest w first).1.serve (s.scheduleSecRequest w first).2

/-- Steps 2 to 5 of `tick`. -/
def issuePasses (stale : Option Command) : State D :=
  (s.firstPass w).secondPass w ((s.scheduleRequest w).2.command stale)

/-- A cycle passes, and completed reads are served. -/
def beginTick : State D :=
  ({ s with clk := s.clk + 1, dram := D.tick s.dram } : State D).serveCompletedReads

/-- `tick`, with the refreshes that are submitted in it, and what is behind the end of a
buffer. -/
def tick (refreshes : List AddrVec) (stale : Option Command) : Option (State D) :=
  (refreshTick refreshes s.beginTick).map fun s => s.issuePasses w stale

end State

/-! ## Runs -/

/-- What may happen to a controller. -/
inductive Event where
  | send (p : Packet)
  | tick (refreshes : List AddrVec) (stale : Option Command)

/-- One event. An exception ends the program, and here leaves the state as it is. -/
def step {D : Device} (w : Watermarks) (s : State D) : Event → State D
  | .send p => (s.send p).elim s Prod.fst
  | .tick refreshes stale => (s.tick w refreshes stale).getD s

end AttAcc.Controller
