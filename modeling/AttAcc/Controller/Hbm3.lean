import AttAcc.Controller.PimOnly
import AttAcc.Controller.Timings

/-!
# The HBM3 controller

`hbm3_controller.cpp`, the controller for memories without PIM: four request buffers, requests to
read and to write, and commands whose types it knows by their numbers. The repository has the
HBM3-PIM controller beside it, which serves PIM requests from a fifth buffer.

As long as it is sent reads and writes only, the HBM3-PIM controller does what this one does, cycle
by cycle (`plain_run`): the fifth buffer stays empty, the flag that it has for PIM requests is never
set, and the types of the commands are the same. So PIM support costs other traffic nothing.
-/

namespace AttAcc.Controller.Hbm3

open Dram (Command)

/-! ## Buffers and commands -/

/-- The buffers of the controller. -/
inductive BufferId where
  | active
  | priority
  | read
  | write
  deriving DecidableEq, Repr

/-- The numbers of the commands of `HBM3`. It has no PIM commands. -/
def commandNumber : Command → Option ℕ
  | .ACT => some 0
  | .PRE => some 1
  | .PREA => some 2
  | .RD => some 3
  | .WR => some 4
  | .REFab => some 7
  | .REFsb => some 8
  | _ => none

/-- `get_command_type`, by number. `RDA` and `WRA` are 5 and 6, `RFMab` and `RFMsb` are 9 and 10. -/
def getCommandType : ℕ → Option CommandType
  | 0 | 1 | 2 => some .row
  | 3 | 4 | 5 | 6 => some .col
  | 7 | 8 | 9 | 10 => some .row
  | _ => none

/-- `compare_command_type`. -/
def compareCommandType (first : Option Command) (second : Command) : Bool :=
  match (first.bind commandNumber).bind getCommandType,
    (commandNumber second).bind getCommandType with
  | some t1, some t2 => decide (t1 ≠ t2)
  | _, _ => false

/-! ## The state -/

/-- `HBM3Controller`, with the requests accepted so far and a log, as for the HBM3-PIM
controller. -/
@[ext]
structure State (D : Device) where
  clk : ℤ
  pending : List Request
  buffers : BufferId → ReqBuffer
  isWriteMode : Bool
  dram : D.State
  accepted : List Request
  log : List Entry

/-- A request to serve. -/
structure Cursor where
  id : BufferId
  pos : ℕ
  req : Request
  command : Command
  deriving DecidableEq, Repr

/-- Where a pass ends. -/
inductive Outcome where
  | found (c : Cursor)
  | stopped (reqIt : Option Cursor)
  deriving DecidableEq, Repr

/-- `req_it->command` after a pass. -/
def Outcome.command (stale : Option Command) : Outcome → Option Command
  | .found c => some c.command
  | .stopped (some c) => some c.command
  | .stopped none => stale

namespace State

variable {D : Device} (w : Watermarks) (s : State D)

/-- Empty buffers of the given sizes. -/
def initial (maxSize : BufferId → ℕ) (dram : D.State) : State D where
  clk := 0
  pending := []
  buffers id := ⟨[], maxSize id⟩
  isWriteMode := false
  dram := dram
  accepted := []
  log := []

/-- The requests in a buffer. -/
abbrev buffer (id : BufferId) : List Request := (s.buffers id).buffer

def setBuffer (id : BufferId) (b : ReqBuffer) : State D :=
  { s with buffers := Function.update s.buffers id b }

def record (e : Entry) : State D := { s with log := e :: s.log }

/-! ## Accepting requests -/

/-- A request that a buffer accepts, or not. -/
def accept (id : BufferId) (req : Request) : State D × Bool :=
  if (s.buffers id).isFull then (s, false)
  else
    ({ s.setBuffer id ((s.buffers id).enqueue req) with accepted := req :: s.accepted }, true)

/-- `send`. A request that is neither a read nor a write throws. -/
def send (p : Packet) : Option (State D × Bool) :=
  let req := Request.new s.accepted.length p
  if p.typeId = .Read ∧ ∃ wreq ∈ s.buffer .write, wreq.addr = req.addr then
    let req := { req with depart := s.clk + 1 }
    some ({ s.record (.forwarded req) with
      pending := s.pending ++ [req], accepted := req :: s.accepted }, true)
  else if p.typeId = .Read then some (s.accept .read { req with arrive := s.clk })
  else if p.typeId = .Write then some (s.accept .write { req with arrive := s.clk })
  else none

/-- `priority_send`. -/
def prioritySend (p : Packet) : State D × Bool :=
  s.accept .priority (Request.new s.accepted.length p)

/-- The refresh manager's `tick`. -/
def refreshTick : List AddrVec → State D → Option (State D)
  | [], s => some s
  | addrVec :: rest, s =>
    match s.prioritySend ⟨-1, addrVec, .AllBankRefresh⟩ with
    | (s, true) => refreshTick rest s
    | (_, false) => none

/-- `serve_completed_reads`. -/
def serveCompletedReads : State D :=
  match s.pending with
  | [] => s
  | req :: rest =>
    if req.depart ≤ s.clk then { s.record (.delivered req) with pending := rest } else s

/-! ## Scheduling -/

/-- The scheduler's best request of a buffer. -/
def best (id : BufferId) : Option Cursor :=
  (getBestRequest s.dram (s.buffer id)).2.map fun it => ⟨id, it.1, it.2, command s.dram it.2⟩

/-- A buffer after the scheduler has looked at it. -/
def prune (id : BufferId) : State D :=
  s.setBuffer id { s.buffers id with buffer := (getBestRequest s.dram (s.buffer id)).1 }

/-- `check_ready`. -/
def isReady (c : Cursor) : Bool := D.checkReady s.dram c.command c.req.addrVec

/-- `set_write_mode`. -/
def setWriteMode : State D :=
  let size : ℚ := (s.buffer .write).length
  let maxSize : ℚ := (s.buffers .write).maxSize
  if s.isWriteMode = false then
    if w.high * maxSize < size ∨ (s.buffer .read).length = 0 then { s with isWriteMode := true }
    else s
  else if size < w.low * maxSize ∧ (s.buffer .read).length ≠ 0 then { s with isWriteMode := false }
  else s

/-- The read or the write buffer. -/
def scheduleReadWrite (fits : Command → Bool) : State D × Outcome :=
  let s := s.setWriteMode w
  let id : BufferId := if s.isWriteMode then .write else .read
  match s.best id with
  | some c => (s.prune id, if fits c.command && s.isReady c then .found c else .stopped (some c))
  | none => (s.prune id, .stopped none)

/-- The head of the priority buffer, then the buffers below. -/
def schedulePriority (fits : Command → Bool) : State D × Outcome :=
  match s.buffer .priority with
  | req :: _ =>
    let c : Cursor := ⟨.priority, 0, req, command s.dram req⟩
    if fits c.command then
      if s.isReady c then (s, .found c) else (s, .stopped (some c))
    else s.scheduleReadWrite w fits
  | [] => s.scheduleReadWrite w fits

/-- The active buffer, then the ones below. -/
def scheduleActive (fits : Command → Bool) : State D × Outcome :=
  match s.best .active with
  | some c =>
    if fits c.command && s.isReady c then (s.prune .active, .found c)
    else (s.prune .active).schedulePriority w fits
  | none => (s.prune .active).schedulePriority w fits

/-- The command closes the row of a request in the active buffer. -/
def interrupts (c : Cursor) : Bool :=
  c.command.isClosing &&
    (s.buffer .active).any fun it => decide (bankAddrVec it = bankAddrVec c.req)

/-- A pass over the buffers, for commands that fit. -/
def schedule (fits : Command → Bool) : State D × Outcome :=
  match s.scheduleActive w fits with
  | (s, .found c) => (s, if s.interrupts c then .stopped (some c) else .found c)
  | (s, .stopped reqIt) => (s, .stopped reqIt)

/-! ## Issuing -/

/-- The last command of a request. -/
def finish (c : Cursor) : State D :=
  let s :=
    if c.req.typeId = .Read then
      { s with pending := s.pending ++ [{ c.req with depart := s.clk + D.readLatency }] }
    else s
  s.setBuffer c.id ((s.buffers c.id).remove c.pos)

/-- A request moves to the end of the active buffer. -/
def moveToActive (c : Cursor) : State D :=
  let s := if (s.buffers .active).isFull then s.record (.lost c.req) else s
  let s := s.setBuffer .active ((s.buffers .active).enqueue c.req)
  s.setBuffer c.id ((s.buffers c.id).remove c.pos)

/-- The command of a request is issued. -/
def issue (c : Cursor) : State D :=
  let s := { s.record (.issued s.clk c.req c.command) with
    dram := D.issueCommand s.dram c.command c.req.addrVec }
  if c.command = c.req.finalCommand then s.finish c
  else if c.command.isOpening then s.moveToActive c
  else s

/-- Serve the request that a pass has found. -/
def serve : Outcome → State D
  | .found c => s.issue c
  | .stopped _ => s

/-- `schedule_request`, and the command that it has found. -/
def firstPass : State D := (s.schedule w fun _ => true).1.serve (s.schedule w fun _ => true).2

/-- `schedule_sec_request`, and the command that it has found. -/
def secondPass (first : Option Command) : State D :=
  (s.schedule w (compareCommandType first)).1.serve (s.schedule w (compareCommandType first)).2

/-- Steps 2 to 5 of `tick`. -/
def issuePasses (stale : Option Command) : State D :=
  (s.firstPass w).secondPass w ((s.schedule w fun _ => true).2.command stale)

/-- A cycle passes, and completed reads are served. -/
def beginTick : State D :=
  ({ s with clk := s.clk + 1, dram := D.tick s.dram } : State D).serveCompletedReads

/-- `tick`. -/
def tick (refreshes : List AddrVec) (stale : Option Command) : Option (State D) :=
  (refreshTick refreshes s.beginTick).map fun s => s.issuePasses w stale

end State

/-- One event. An exception ends the program, and here leaves the state as it is. -/
def step {D : Device} (w : Watermarks) (s : State D) : Event → State D
  | .send p => (s.send p).elim s Prod.fst
  | .tick refreshes stale => (s.tick w refreshes stale).getD s

end AttAcc.Controller.Hbm3

/-! ## HBM3-PIM without PIM requests -/

namespace AttAcc.Controller

open Dram (Command)
open Hbm3 (commandNumber)

variable {D : Device} {w : Watermarks}

/-- The types of requests that a memory without PIM knows. -/
def RequestType.IsPlain (t : RequestType) : Prop :=
  t = .Read ∨ t = .Write ∨ t = .AllBankRefresh

/-- A command that both memories have. -/
def IsShared (cmd : Command) : Prop := (commandNumber cmd).isSome = true

theorem IsShared.of_mem_some {cmd : Command} (h : IsShared cmd) :
    ∀ cmd' ∈ some cmd, IsShared cmd' := by
  rintro _ ⟨⟩
  exact h

/-- Reads, writes and refreshes get along with shared commands. -/
def Device.SharesCommands (D : Device) : Prop :=
  ∀ dram (t : RequestType) addrVec,
    t.IsPlain → IsShared (D.getPreqCommand dram t.translation addrVec)

/-- Shared commands have the same type on both. -/
theorem getCommandType_of_isShared {cmd : Command} (h : IsShared cmd) :
    (commandNumber cmd).bind Hbm3.getCommandType = getCommandType cmd := by
  cases cmd <;> first | rfl | cases h

/-- So they are compared alike. -/
theorem compareCommandType_of_isShared {first : Option Command}
    (hfirst : ∀ cmd ∈ first, IsShared cmd) {second : Command} (hsecond : IsShared second) :
    Hbm3.compareCommandType first second = compareCommandType first second := by
  have htype : (first.bind commandNumber).bind Hbm3.getCommandType = first.bind getCommandType := by
    cases first with
    | none => rfl
    | some cmd => exact getCommandType_of_isShared (hfirst cmd rfl)
  rw [Hbm3.compareCommandType, htype, getCommandType_of_isShared hsecond]
  rfl

/-! ### The state without its PIM part -/

end AttAcc.Controller

namespace AttAcc.Controller.Hbm3

open Dram (Command)

/-- The buffers that both controllers have. -/
def BufferId.toPim : BufferId → Controller.BufferId
  | .active => .active
  | .priority => .priority
  | .read => .read
  | .write => .write

theorem BufferId.toPim_injective : Function.Injective BufferId.toPim := by
  intro a b h
  cases a <;> cases b <;> first | rfl | cases h

theorem BufferId.toPim_ne_pim (id : BufferId) : id.toPim ≠ .pim := by
  cases id <;> decide

def Cursor.toPim (c : Cursor) : Controller.Cursor := ⟨c.id.toPim, c.pos, c.req, c.command⟩

def Outcome.toPim : Outcome → Controller.Outcome
  | .found c => .found c.toPim
  | .stopped reqIt => .stopped (reqIt.map Cursor.toPim)

theorem Outcome.command_toPim (o : Outcome) (stale : Option Command) :
    o.toPim.command stale = o.command stale := by
  rcases o with c | _ | c
  · rfl
  · rfl
  · rfl

end AttAcc.Controller.Hbm3

namespace AttAcc.Controller

open Dram (Command)
open Hbm3 (commandNumber)

variable {D : Device} {w : Watermarks}

namespace State

variable (s : State D)

/-- What a controller without PIM has of a state. -/
def plain : Hbm3.State D where
  clk := s.clk
  pending := s.pending
  buffers id := s.buffers id.toPim
  isWriteMode := s.isWriteMode
  dram := s.dram
  accepted := s.accepted
  log := s.log

theorem plain_setBuffer (id : Hbm3.BufferId) (b : ReqBuffer) :
    (s.setBuffer id.toPim b).plain = s.plain.setBuffer id b := by
  have hbuffers : (fun id' : Hbm3.BufferId => Function.update s.buffers id.toPim b id'.toPim) =
      Function.update (fun id' : Hbm3.BufferId => s.buffers id'.toPim) id b :=
    Function.update_comp_eq_of_injective s.buffers Hbm3.BufferId.toPim_injective id b
  simp only [plain, setBuffer, Hbm3.State.setBuffer, hbuffers]

theorem plain_setBuffer_pim (b : ReqBuffer) : (s.setBuffer .pim b).plain = s.plain := by
  have hbuffers : (fun id : Hbm3.BufferId => Function.update s.buffers .pim b id.toPim) =
      fun id : Hbm3.BufferId => s.buffers id.toPim := by
    funext id
    exact Function.update_of_ne id.toPim_ne_pim _ _
  simp only [plain, setBuffer, hbuffers]

theorem plain_prune (id : Hbm3.BufferId) : (s.prune id.toPim).plain = s.plain.prune id :=
  s.plain_setBuffer id _

theorem best_toPim (id : Hbm3.BufferId) :
    s.best id.toPim = (s.plain.best id).map Hbm3.Cursor.toPim := by
  rw [best, Hbm3.State.best, Option.map_map]
  rfl

theorem plain_setWriteMode : (s.setWriteMode w).plain = s.plain.setWriteMode w := by
  simp only [setWriteMode, Hbm3.State.setWriteMode]
  split_ifs <;> first | rfl | contradiction

/-- The PIM part is unused: nothing is in the PIM buffer, and no request of the others is one. -/
structure IsPlain : Prop where
  pim : s.buffer .pim = []
  isPim : s.isPim = false
  typeId : ∀ id, ∀ r ∈ s.buffer id, r.typeId.IsPlain

end State

/-! ### Passes -/

variable {s s' : State D} {fits fits' : Command → Bool}

theorem State.IsPlain.of_pruned (h : s.IsPlain) (hp : Pruned s s') (hisPim : s'.isPim = false) :
    s'.IsPlain where
  pim := Dropped.eq_nil (h.pim ▸ hp.buffer .pim)
  isPim := hisPim
  typeId id r hr := h.typeId id r ((hp.buffer id).sublist.subset hr)

theorem State.IsPlain.prune (h : s.IsPlain) (id : BufferId) : (s.prune id).IsPlain :=
  h.of_pruned (State.pruned_prune s id) h.isPim

/-- The scheduler wants shared commands. -/
theorem isShared_of_best (hD : D.SharesCommands) (h : s.IsPlain) {id : BufferId} {c : Cursor}
    (hbest : s.best id = some c) : IsShared c.command := by
  obtain ⟨-, hcommand, heligible⟩ := State.best_eq_some hbest
  have hmem : c.req ∈ (s.prune id).buffer id := List.mem_of_getElem? heligible.1
  rw [hcommand]
  exact hD _ _ _ ((h.prune id).typeId id _ hmem)

/-- Two passes that end alike. -/
structure SamePass (r : State D × Outcome) (q : Hbm3.State D × Hbm3.Outcome) : Prop where
  state : r.1.plain = q.1
  outcome : r.2 = q.2.toPim
  isPlain : r.1.IsPlain
  isShared : ∀ cmd ∈ r.2.command none, IsShared cmd

section Stages

variable (hD : D.SharesCommands) (hfits : ∀ cmd, IsShared cmd → fits' cmd = fits cmd)
include hD hfits

theorem samePass_readWrite (h : s.IsPlain) :
    SamePass (s.scheduleReadWrite w fits) (s.plain.scheduleReadWrite w fits') := by
  obtain ⟨b, hb⟩ := State.setWriteMode_eq (w := w) s
  have hplain : (s.setWriteMode w).IsPlain := by
    rw [hb]
    exact ⟨h.pim, h.isPim, h.typeId⟩
  simp only [State.scheduleReadWrite, Hbm3.State.scheduleReadWrite, ← State.plain_setWriteMode]
  generalize s.setWriteMode w = s₁ at hplain ⊢
  obtain ⟨id, hid, hid'⟩ : ∃ id : Hbm3.BufferId,
      (if s₁.plain.isWriteMode then .write else .read) = id ∧
        (if s₁.isWriteMode then BufferId.write else .read) = id.toPim := by
    cases hmode : s₁.isWriteMode with
    | false => exact ⟨.read, if_neg (by simp [State.plain, hmode]), rfl⟩
    | true => exact ⟨.write, if_pos hmode, rfl⟩
  rw [hid, hid', State.best_toPim]
  cases hbest : s₁.plain.best id with
  | none =>
    exact ⟨s₁.plain_prune id, rfl, hplain.prune _,
      fun _ hcmd => absurd hcmd (Option.not_mem_none _)⟩
  | some c =>
    have hbest' : s₁.best id.toPim = some c.toPim := by rw [State.best_toPim, hbest]; rfl
    have hshared : IsShared c.command := isShared_of_best hD hplain hbest'
    have hcommand := hfits c.command hshared
    have hready : s₁.isReady c.toPim = s₁.plain.isReady c := rfl
    simp only [Option.map_some, Hbm3.Cursor.toPim] at hready ⊢
    rw [hcommand, hready]
    split_ifs
    · exact ⟨s₁.plain_prune id, rfl, hplain.prune _, hshared.of_mem_some⟩
    · exact ⟨s₁.plain_prune id, rfl, hplain.prune _, hshared.of_mem_some⟩

/-- There is nothing in the PIM buffer. -/
theorem samePass_pim (h : s.IsPlain) :
    SamePass (s.schedulePim w fits) (s.plain.scheduleReadWrite w fits') := by
  have hplain : ({ s with isPim := false } : State D).IsPlain := ⟨h.pim, rfl, h.typeId⟩
  have hbest : ({ s with isPim := false } : State D).best .pim = none := by
    rw [State.best, show ({ s with isPim := false } : State D).buffer .pim = [] from h.pim]
    rfl
  have hstays : (({ s with isPim := false } : State D).prune .pim).plain = s.plain :=
    State.plain_setBuffer_pim _ _
  rw [State.schedulePim]
  simp only [hbest]
  rw [← hstays]
  exact samePass_readWrite hD hfits (hplain.prune .pim)

theorem samePass_priority (h : s.IsPlain) :
    SamePass (s.schedulePriority w fits) (s.plain.schedulePriority w fits') := by
  have hpriority : s.plain.buffer .priority = s.buffer .priority := rfl
  rw [State.schedulePriority, Hbm3.State.schedulePriority, hpriority]
  cases hbuffer : s.buffer .priority with
  | nil => exact samePass_pim hD hfits h
  | cons req rest =>
    have hreq : req.typeId.IsPlain := h.typeId .priority req (hbuffer ▸ List.mem_cons_self)
    have hshared : IsShared (command s.dram req) := hD s.dram _ req.addrVec hreq
    have hcommand := hfits _ hshared
    have hready : s.plain.isReady ⟨.priority, 0, req, command s.dram req⟩ =
        s.isReady ⟨.priority, 0, req, command s.dram req⟩ := rfl
    simp only [show s.plain.dram = s.dram from rfl, hready,
      show fits' (command s.dram req) = fits (command s.dram req) from hcommand]
    split_ifs
    · exact ⟨rfl, rfl, ⟨h.pim, rfl, h.typeId⟩, hshared.of_mem_some⟩
    · exact ⟨rfl, rfl, h, hshared.of_mem_some⟩
    · exact samePass_pim hD hfits h

theorem samePass_active (h : s.IsPlain) :
    SamePass (s.scheduleActive w fits) (s.plain.scheduleActive w fits') := by
  have hprune : (s.prune .active).plain = s.plain.prune .active := s.plain_prune .active
  have hbest : s.best .active = (s.plain.best .active).map Hbm3.Cursor.toPim := s.best_toPim .active
  have hnext : SamePass ((s.prune .active).schedulePriority w fits)
      ((s.plain.prune .active).schedulePriority w fits') :=
    hprune ▸ samePass_priority hD hfits (h.prune .active)
  rw [State.scheduleActive, Hbm3.State.scheduleActive]
  cases hplain : s.plain.best .active with
  | none =>
    rw [hplain] at hbest
    simp only [hbest, Option.map_none]
    exact hnext
  | some c =>
    rw [hplain, Option.map_some] at hbest
    have hshared : IsShared c.toPim.command := isShared_of_best hD h hbest
    have hcommand : fits' c.command = fits c.toPim.command := hfits _ hshared
    have hready : s.plain.isReady c = s.isReady c.toPim := rfl
    simp only [hbest, hcommand, hready]
    split_ifs
    · exact ⟨hprune, rfl, h.prune .active, hshared.of_mem_some⟩
    · exact hnext

/-- **The passes of both controllers end alike.** -/
theorem samePass_schedule (h : s.IsPlain) :
    SamePass (s.schedule w fits) (s.plain.schedule w fits') := by
  obtain ⟨hstate, houtcome, hplain, hshared⟩ := samePass_active (w := w) hD hfits h
  rw [State.schedule, Hbm3.State.schedule]
  rcases hactive : s.scheduleActive w fits with ⟨s₁, o⟩
  rcases hactive' : s.plain.scheduleActive w fits' with ⟨s₁', o'⟩
  rw [hactive, hactive'] at hstate houtcome
  rw [hactive] at hplain hshared
  simp only at hstate houtcome hplain hshared
  subst hstate houtcome
  cases o' with
  | stopped reqIt => exact ⟨rfl, rfl, hplain, hshared⟩
  | found c =>
    have hinterrupts : s₁.plain.interrupts c = s₁.interrupts c.toPim := rfl
    simp only [Hbm3.Outcome.toPim, hinterrupts]
    split_ifs
    · exact ⟨rfl, rfl, hplain, hshared⟩
    · exact ⟨rfl, rfl, hplain, hshared⟩

end Stages

/-! ### Steps -/

theorem State.IsPlain.congr (h : s.IsPlain) (hbuffers : s'.buffers = s.buffers)
    (hisPim : s'.isPim = s.isPim) : s'.IsPlain where
  pim := (congrArg ReqBuffer.buffer (congrFun hbuffers .pim)).trans h.pim
  isPim := hisPim.trans h.isPim
  typeId id r hr := by
    have hid : s'.buffer id = s.buffer id := congrArg ReqBuffer.buffer (congrFun hbuffers id)
    exact h.typeId id r (hid ▸ hr)

theorem State.IsPlain.setBuffer (h : s.IsPlain) (id : Hbm3.BufferId) {b : ReqBuffer}
    (hb : ∀ r ∈ b.buffer, r.typeId.IsPlain) : (s.setBuffer id.toPim b).IsPlain where
  pim := by
    rw [State.buffer, State.buffers_setBuffer_of_ne id.toPim_ne_pim.symm]
    exact h.pim
  isPim := h.isPim
  typeId id' r hr := by
    rcases eq_or_ne id' id.toPim with rfl | hne
    · rw [State.buffer, State.buffers_setBuffer_self] at hr
      exact hb r hr
    · rw [State.buffer, State.buffers_setBuffer_of_ne hne] at hr
      exact h.typeId id' r hr

/-- A request leaves a buffer. -/
theorem State.IsPlain.remove (h : s.IsPlain) (id : Hbm3.BufferId) (pos : ℕ) :
    (s.setBuffer id.toPim ((s.buffers id.toPim).remove pos)).IsPlain :=
  h.setBuffer id fun r hr => h.typeId _ r ((List.eraseIdx_sublist _ _).subset hr)

/-- A request comes to a buffer. -/
theorem State.IsPlain.enqueue (h : s.IsPlain) (id : Hbm3.BufferId) {r : Request}
    (hr : r.typeId.IsPlain) : (s.setBuffer id.toPim ((s.buffers id.toPim).enqueue r)).IsPlain := by
  refine h.setBuffer id fun x hx => ?_
  rw [ReqBuffer.enqueue] at hx
  split_ifs at hx
  · exact h.typeId _ x hx
  · rcases List.mem_append.mp hx with hx | hx
    · exact h.typeId _ x hx
    · rw [List.mem_singleton.mp hx]
      exact hr

theorem plain_finish (h : s.IsPlain) (c : Hbm3.Cursor) :
    (s.finish c.toPim).plain = s.plain.finish c ∧ (s.finish c.toPim).IsPlain := by
  have hreq : c.toPim.req = c.req := rfl
  rw [State.finish, Hbm3.State.finish, hreq]
  split_ifs
  · refine ⟨State.plain_setBuffer _ c.id _, State.IsPlain.remove ?_ c.id c.pos⟩
    exact h.congr rfl rfl
  · exact ⟨State.plain_setBuffer _ c.id _, h.remove c.id c.pos⟩

theorem plain_moveToActive (h : s.IsPlain) (c : Hbm3.Cursor) (hreq : c.req.typeId.IsPlain) :
    (s.moveToActive c.toPim).plain = s.plain.moveToActive c ∧ (s.moveToActive c.toPim).IsPlain := by
  have hmove : ∀ s : State D, s.IsPlain →
      let s₁ := s.setBuffer Hbm3.BufferId.active.toPim ((s.buffers .active).enqueue c.req)
      let p₁ := s.plain.setBuffer .active ((s.plain.buffers .active).enqueue c.req)
      (s₁.setBuffer c.id.toPim ((s₁.buffers c.id.toPim).remove c.pos)).plain =
          p₁.setBuffer c.id ((p₁.buffers c.id).remove c.pos) ∧
        (s₁.setBuffer c.id.toPim ((s₁.buffers c.id.toPim).remove c.pos)).IsPlain := by
    intro s h s₁ p₁
    have hs₁ : s₁.plain = p₁ := s.plain_setBuffer .active _
    refine ⟨?_, (h.enqueue .active hreq).remove c.id c.pos⟩
    rw [← hs₁]
    exact s₁.plain_setBuffer c.id _
  have hfull : (s.plain.buffers .active).isFull = (s.buffers .active).isFull := rfl
  rw [State.moveToActive, Hbm3.State.moveToActive, hfull]
  split_ifs
  · exact hmove _ (h.congr rfl rfl)
  · exact hmove s h

theorem plain_issue (h : s.IsPlain) (c : Hbm3.Cursor) (hreq : c.req.typeId.IsPlain) :
    (s.issue c.toPim).plain = s.plain.issue c ∧ (s.issue c.toPim).IsPlain := by
  have hcommanded : (s.commanded c.toPim).IsPlain := h.congr rfl rfl
  rw [Hbm3.State.issue]
  by_cases hfinal : c.command = c.req.finalCommand
  · rw [State.issue_of_final (c := c.toPim) hfinal, if_pos hfinal]
    exact plain_finish hcommanded c
  · have hmoves : s.moves c.toPim = c.command.isOpening := by
      have hne : decide (c.toPim.command ≠ c.toPim.req.finalCommand) = true := decide_eq_true hfinal
      rw [State.moves, h.isPim, hne]
      rfl
    rw [if_neg hfinal]
    split_ifs with hopening
    · rw [State.issue_of_moves (c := c.toPim) hfinal (hmoves.trans hopening)]
      exact plain_moveToActive hcommanded c hreq
    · have hstays : s.moves c.toPim = false := hmoves.trans (eq_false_of_ne_true hopening)
      rw [State.issue_of_stays (c := c.toPim) hfinal hstays]
      exact ⟨rfl, hcommanded⟩

/-- **A pass of both controllers serves the same request.** -/
theorem plain_pass (hD : D.SharesCommands) (hfits : ∀ cmd, IsShared cmd → fits' cmd = fits cmd)
    (h : s.IsPlain) :
    ((s.schedule w fits).1.serve (s.schedule w fits).2).plain =
        (s.plain.schedule w fits').1.serve (s.plain.schedule w fits').2 ∧
      ((s.schedule w fits).1.serve (s.schedule w fits).2).IsPlain := by
  obtain ⟨hstate, houtcome, hplain, -⟩ := samePass_schedule (w := w) hD hfits h
  have hchosen := (s.schedule_spec w fits).2
  rw [← hstate]
  cases ho : (s.plain.schedule w fits').2 with
  | stopped reqIt =>
    rw [houtcome, ho]
    exact ⟨rfl, hplain⟩
  | found c =>
    rw [ho] at houtcome
    rw [houtcome]
    have hmem : c.req ∈ (s.schedule w fits).1.buffer c.id.toPim :=
      List.mem_of_getElem? (hchosen c.toPim houtcome).eligible.1
    exact plain_issue hplain c (hplain.typeId _ _ hmem)

/-- **Both passes of a tick.** -/
theorem plain_issuePasses (hD : D.SharesCommands) (h : s.IsPlain) {stale : Option Command}
    (hstale : ∀ cmd ∈ stale, IsShared cmd) :
    (s.issuePasses w stale).plain = s.plain.issuePasses w stale ∧
      (s.issuePasses w stale).IsPlain := by
  have hfits : ∀ cmd, IsShared cmd → (fun _ => true) cmd = (fun _ : Command => true) cmd :=
    fun _ _ => rfl
  have hpass := samePass_schedule (w := w) hD hfits h
  obtain ⟨hfirst, hplain⟩ := plain_pass (w := w) hD hfits h
  have hcommand : (s.scheduleRequest w).2.command stale =
      (s.plain.schedule w fun _ => true).2.command stale :=
    (congrArg (Outcome.command stale) hpass.outcome).trans (Hbm3.Outcome.command_toPim _ stale)
  have hshared : ∀ cmd ∈ (s.scheduleRequest w).2.command stale, IsShared cmd := by
    have hnone := hpass.isShared
    rw [State.scheduleRequest]
    revert hnone
    rcases (s.schedule w fun _ => true).2 with c | _ | c
    · exact id
    · exact fun _ => hstale
    · exact id
  have hsecond := plain_pass (w := w) hD
    (fun cmd hcmd => compareCommandType_of_isShared hshared hcmd) hplain
  rw [hfirst, hcommand] at hsecond
  rw [Hbm3.State.issuePasses, Hbm3.State.secondPass, Hbm3.State.firstPass]
  rw [State.issuePasses, State.secondPass, State.firstPass, hcommand]
  exact hsecond

theorem plain_accept (h : s.IsPlain) (id : Hbm3.BufferId) {r : Request} (hr : r.typeId.IsPlain) :
    ((s.accept id.toPim r).1.plain, (s.accept id.toPim r).2) = s.plain.accept id r ∧
      (s.accept id.toPim r).1.IsPlain := by
  have hfull : (s.plain.buffers id).isFull = (s.buffers id.toPim).isFull := rfl
  rw [State.accept, Hbm3.State.accept, hfull]
  split_ifs
  · exact ⟨rfl, h⟩
  · refine ⟨Prod.ext ?_ rfl, (h.enqueue id hr).congr rfl rfl⟩
    exact congrArg (fun p : Hbm3.State D => { p with accepted := r :: s.accepted })
      (s.plain_setBuffer id _)

/-- **The refreshes of a tick.** -/
theorem plain_refreshTick (h : s.IsPlain) (refreshes : List AddrVec) :
    (State.refreshTick refreshes s).map State.plain = Hbm3.State.refreshTick refreshes s.plain ∧
      ∀ s' ∈ State.refreshTick refreshes s, s'.IsPlain := by
  induction refreshes generalizing s with
  | nil => exact ⟨rfl, by rintro _ ⟨⟩; exact h⟩
  | cons addrVec rest ih =>
    obtain ⟨hpair, hplain⟩ := plain_accept h .priority
      (r := Request.new s.accepted.length ⟨-1, addrVec, .AllBankRefresh⟩) (.inr (.inr rfl))
    have hsend : s.plain.prioritySend ⟨-1, addrVec, .AllBankRefresh⟩ =
        ((s.prioritySend ⟨-1, addrVec, .AllBankRefresh⟩).1.plain,
          (s.prioritySend ⟨-1, addrVec, .AllBankRefresh⟩).2) := hpair.symm
    have hplain' : (s.prioritySend ⟨-1, addrVec, .AllBankRefresh⟩).1.IsPlain := hplain
    rw [State.refreshTick, Hbm3.State.refreshTick, hsend]
    rcases hpass : s.prioritySend ⟨-1, addrVec, .AllBankRefresh⟩ with ⟨s₁, _ | _⟩
    · exact ⟨rfl, fun _ hs => absurd hs (Option.not_mem_none _)⟩
    · rw [hpass] at hplain'
      exact ih hplain'

theorem plain_serveCompletedReads (h : s.IsPlain) :
    s.serveCompletedReads.plain = s.plain.serveCompletedReads ∧ s.serveCompletedReads.IsPlain := by
  have hpending : s.plain.pending = s.pending := rfl
  have hclk : s.plain.clk = s.clk := rfl
  rw [State.serveCompletedReads, Hbm3.State.serveCompletedReads, hpending, hclk]
  cases s.pending with
  | nil => exact ⟨rfl, h⟩
  | cons req rest =>
    simp only
    split_ifs
    · exact ⟨rfl, h.congr rfl rfl⟩
    · exact ⟨rfl, h⟩

theorem plain_beginTick (h : s.IsPlain) :
    s.beginTick.plain = s.plain.beginTick ∧ s.beginTick.IsPlain :=
  plain_serveCompletedReads (s := { s with clk := s.clk + 1, dram := D.tick s.dram })
    (h.congr rfl rfl)

/-- What may happen to a memory without PIM: no PIM requests are sent, and what is behind the end of
a buffer is no PIM command. -/
def Event.IsPlain : Event → Prop
  | .send p => p.typeId.sendBuffer ≠ some .pim
  | .tick _ stale => ∀ cmd ∈ stale, IsShared cmd

theorem plain_tick (hD : D.SharesCommands) (h : s.IsPlain) (refreshes : List AddrVec)
    {stale : Option Command} (hstale : ∀ cmd ∈ stale, IsShared cmd) :
    (s.tick w refreshes stale).map State.plain = s.plain.tick w refreshes stale ∧
      ∀ s' ∈ s.tick w refreshes stale, s'.IsPlain := by
  obtain ⟨hbegin, hplain⟩ := plain_beginTick h
  obtain ⟨hrefresh, hkeeps⟩ := plain_refreshTick hplain refreshes
  rw [State.tick, Hbm3.State.tick, ← hbegin, ← hrefresh]
  cases hs₁ : State.refreshTick refreshes s.beginTick with
  | none => exact ⟨rfl, fun _ hs => absurd hs (Option.not_mem_none _)⟩
  | some s₁ =>
    obtain ⟨hpasses, hend⟩ := plain_issuePasses (w := w) hD (hkeeps s₁ hs₁) hstale
    exact ⟨congrArg some hpasses, by rintro _ ⟨⟩; exact hend⟩

/-- **Both controllers answer a read or a write alike.** -/
theorem plain_send (h : s.IsPlain) {p : Packet} (hp : p.typeId.sendBuffer ≠ some .pim) :
    (s.send p).map (Prod.map State.plain id) = s.plain.send p ∧ ∀ r ∈ s.send p, r.1.IsPlain := by
  have hwrite : s.plain.buffer .write = s.buffer .write := rfl
  have hnew : Request.new s.plain.accepted.length p = Request.new s.accepted.length p := rfl
  rw [State.send, Hbm3.State.send, hwrite, hnew]
  simp only
  split_ifs with hforward hread hwrites
  · exact ⟨rfl, by rintro _ ⟨⟩; exact h.congr rfl rfl⟩
  · obtain ⟨hpair, hplain⟩ := plain_accept h .read
      (r := { Request.new s.accepted.length p with arrive := s.clk }) (.inl hread)
    rw [hread]
    exact ⟨congrArg some hpair, by rintro _ ⟨⟩; exact hplain⟩
  · obtain ⟨hpair, hplain⟩ := plain_accept h .write
      (r := { Request.new s.accepted.length p with arrive := s.clk }) (.inr (.inl hwrites))
    rw [hwrites]
    exact ⟨congrArg some hpair, by rintro _ ⟨⟩; exact hplain⟩
  · -- Refreshes are not sent, and PIM requests are excluded.
    have hnone : p.typeId.sendBuffer = none := by
      cases htype : p.typeId with
      | Read => exact absurd htype hread
      | Write => exact absurd htype hwrites
      | AllBankRefresh | PerBankRefresh => rfl
      | _ => exact absurd (congrArg RequestType.sendBuffer htype) hp
    rw [hnone]
    exact ⟨rfl, fun _ hr => absurd hr (Option.not_mem_none _)⟩

/-! ### Runs -/

theorem plain_step (hD : D.SharesCommands) (h : s.IsPlain) {e : Event} (he : e.IsPlain) :
    (step w s e).plain = Hbm3.step w s.plain e ∧ (step w s e).IsPlain := by
  cases e with
  | send p =>
    obtain ⟨hsend, hplain⟩ := plain_send h he
    rw [step, Hbm3.step, ← hsend]
    cases hr : s.send p with
    | none => exact ⟨rfl, h⟩
    | some r => exact ⟨rfl, hplain r hr⟩
  | tick refreshes stale =>
    obtain ⟨htick, hplain⟩ := plain_tick (w := w) hD h refreshes he
    rw [step, Hbm3.step, ← htick]
    cases hs' : s.tick w refreshes stale with
    | none => exact ⟨rfl, h⟩
    | some s' => exact ⟨rfl, hplain s' hs'⟩

theorem isPlain_initial (maxSize : BufferId → ℕ) (dram : D.State) :
    (State.initial maxSize dram).IsPlain :=
  ⟨rfl, rfl, fun _ _ hr => absurd hr List.not_mem_nil⟩

/-- **HBM3-PIM does without PIM requests what HBM3 does**, both with the scheduler `PIM`: in every
run in which no request is sent for PIM, and what is behind the end of a buffer is a command of
both, however the requests, refreshes and ticks follow each other, the two controllers are in the
same state up to the PIM part, which is unused; what has been issued is the same, and so is the
answer to every request that is not for PIM. -/
theorem plain_run (hD : D.SharesCommands) (w : Watermarks) (maxSize : BufferId → ℕ) (dram : D.State)
    {events : List Event} (h : ∀ e ∈ events, e.IsPlain) :
    let s := events.foldl (step w) (State.initial maxSize dram)
    let p := events.foldl (Hbm3.step w) (Hbm3.State.initial (fun id => maxSize id.toPim) dram)
    s.plain = p ∧ s.IsPlain ∧ ∀ packet, packet.typeId.sendBuffer ≠ some .pim →
      (s.send packet).map (Prod.map State.plain id) = p.send packet := by
  have hrun : ∀ (events : List Event) (s : State D), (∀ e ∈ events, e.IsPlain) → s.IsPlain →
      (events.foldl (step w) s).plain = events.foldl (Hbm3.step w) s.plain ∧
        (events.foldl (step w) s).IsPlain := by
    intro events
    induction events with
    | nil => exact fun s _ hs => ⟨rfl, hs⟩
    | cons e rest ih =>
      intro s hevents hs
      obtain ⟨he, hrest⟩ := List.forall_mem_cons.mp hevents
      obtain ⟨hstep, hplain⟩ := plain_step (w := w) hD hs he
      rw [List.foldl_cons, List.foldl_cons, ← hstep]
      exact ih _ hrest hplain
  obtain ⟨hsame, hplain⟩ := hrun events _ h (isPlain_initial maxSize dram)
  exact ⟨hsame, hplain, fun packet hp => hsame ▸ (plain_send hplain hp).1⟩

/-- `HBM3-PIM` asks for shared commands, where no PIM is asked for. -/
theorem sharesCommands_hbm3PIM {o : Dram.Organization} (base : Dram.NodeBase o) :
    (hbm3PIM base).SharesCommands := by
  have haccess : ∀ access : Dram.Access, access = .RD ∨ access = .WR → ∀ (s : (hbm3PIM base).State)
      (a : AddrVec), IsShared ((hbm3PIM base).getPreqCommand s access.command a) := by
    intro access hplain s a
    rw [preq_access]
    cases nodeAt o a with
    | none => rcases hplain with rfl | rfl <;> rfl
    | some node =>
      rw [Option.elim_some]
      rcases s.1.preq_cases access node (rowAt a) with ⟨-, h⟩ | ⟨-, -, -, h⟩ | ⟨-, -, -, h⟩
      all_goals
        rw [h]
        rcases hplain with rfl | rfl <;> rfl
  intro s t a ht
  rcases ht with rfl | rfl | rfl
  · exact haccess .RD (.inl rfl) s a
  · exact haccess .WR (.inr rfl) s a
  · show IsShared (Dram.Preq.RequireAllBanksClosed s.1 .REFab)
    rw [Dram.Preq.RequireAllBanksClosed]
    split_ifs
    · rfl
    · rfl

/-- A read and a write of one bank, and a refresh between them. -/
def readRefreshWrite : List Event :=
  [.send ⟨64, [0, 0, 0, 0, 0, 1, 0], .Read⟩, .tick [] none, .tick [[0, 0, -1, -1, -1, -1, -1]] none,
    .send ⟨128, [0, 0, 0, 0, 0, 2, 0], .Write⟩, .tick [] none]

/-- A channel of `HBM3-PIM` that has been idle. -/
def idleDram : (hbm3PIM (o := ⟨2, 2, 4, 4⟩)
    (Dram.timedNodes (Dram.timingcons Dram.hbm3_6400_8Gb) 25)).State :=
  (Dram.Banks.initial, Dram.NodeClks.initial)

/-- On `HBM3-PIM` as on `HBM3`, they are served alike. -/
theorem plain_run_read :
    (readRefreshWrite.foldl (step defaultWatermarks) (State.initial (fun _ => 32) idleDram)).plain =
      readRefreshWrite.foldl (Hbm3.step defaultWatermarks)
        (Hbm3.State.initial (fun _ => 32) idleDram) := by
  refine (plain_run (sharesCommands_hbm3PIM _) defaultWatermarks (fun _ => 32) idleDram ?_).1
  simp [readRefreshWrite, Event.IsPlain, RequestType.sendBuffer]

end AttAcc.Controller
