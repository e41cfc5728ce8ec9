import AttAcc.Controller.Scheduler
import AttAcc.Library.Runs
import AttAcc.Trace.File

/-!
# The frontend

`PIMLoadStoreTrace::tick` sends the requests of a trace until one is rejected, and
`PIMDRAMSystem::send` counts the accepted ones. The channel controllers are a parameter:
what they accept may depend on anything. The address mapper is one too.

The frontend walks through the trace with an index that wraps around, and stops by a count. The
index never wraps while there is work to do, and the counters are those of the lines before it
(`Inv`).
-/

namespace AttAcc.Trace

open Controller (Addr AddrVec Packet RequestType)
open Library

/-! ## The memory system -/

/-- The counters that `PIMDRAMSystem` registers, but for `m_clk`. -/
inductive Stat where
  | read
  | write
  | pimMacAllBank
  | pimMacSameBank
  | pimMacPerBank
  | pimWriteToGemvBuffer
  | pimMoveToSoftmaxBuffer
  | pimMoveToGemvBuffer
  | pimSoftmax
  | pimSetModel
  | pimSetHead
  | other
  deriving DecidableEq, Repr

/-- Which counter `send` increments for an accepted request. -/
def stat : RequestType → Option Stat
  | .Read => some .read
  | .Write => some .write
  | .PIM_MAC_AB => some .pimMacAllBank
  | .PIM_MAC_SB => some .pimMacSameBank
  | .PIM_MAC_PB => some .pimMacPerBank
  | .PIM_WR_GB => some .pimWriteToGemvBuffer
  | .PIM_MV_SB => some .pimMoveToSoftmaxBuffer
  | .PIM_MV_GB => some .pimMoveToGemvBuffer
  | .PIM_SFM => some .pimSoftmax
  | .PIM_SET_MODEL => some .pimSetModel
  | .PIM_SET_HEAD => some .pimSetHead
  | .PIM_BARRIER => none
  | .AllBankRefresh | .PerBankRefresh => some .other

variable {σ : Type*}

/-- The parts of the memory system: the address mapper, and the controllers of the channels. -/
structure Parts (σ : Type*) where
  applyMapper : Addr → AddrVec
  send : Addr → Packet → σ → Bool × σ
  tick : σ → σ

/-- `PIMDRAMSystem`. The counters are `int`s. -/
structure MemorySystem (σ : Type*) where
  clk : ℕ
  counters : Stat → BitVec 32
  controllers : σ

namespace MemorySystem

/-- Before the first cycle. -/
def init (controllers : σ) : MemorySystem σ := ⟨0, fun _ => 0, controllers⟩

/-- An accepted request is counted. -/
def count (type : RequestType) (m : MemorySystem σ) : MemorySystem σ :=
  match stat type with
  | none => m
  | some s => { m with counters := Function.update m.counters s (m.counters s + 1) }

/-- `send`. The first field of the address is the channel. -/
def send (parts : Parts σ) (addr : Addr) (type : RequestType) (m : MemorySystem σ) :
    Bool × MemorySystem σ :=
  let addrVec := parts.applyMapper addr
  let (isSuccess, controllers) :=
    parts.send (addrVec.getD 0 (-1)) ⟨addr, addrVec, type⟩ m.controllers
  let m := { m with controllers := controllers }
  (isSuccess, if isSuccess then m.count type else m)

/-- `tick`. -/
def tick (parts : Parts σ) (m : MemorySystem σ) : MemorySystem σ :=
  { m with clk := m.clk + 1, controllers := parts.tick m.controllers }

end MemorySystem

/-! ## The trace -/

/-- The type of the request that is sent for a `req_type`. -/
def requestType (reqType : ℤ) : Option RequestType :=
  if reqType = 0 then some .Read
  else if reqType = 1 then some .Write
  else if reqType = 4 then some .PIM_MAC_AB
  else if reqType = 5 then some .PIM_MAC_SB
  else if reqType = 6 then some .PIM_MAC_PB
  else if reqType = 7 then some .PIM_WR_GB
  else if reqType = 8 then some .PIM_MV_SB
  else if reqType = 9 then some .PIM_MV_GB
  else if reqType = 10 then some .PIM_SFM
  else if reqType = 11 then some .PIM_SET_MODEL
  else if reqType = 12 then some .PIM_SET_HEAD
  else if reqType = 13 then some .PIM_BARRIER
  else none

/-- `PIMLoadStoreTrace`. -/
structure Frontend where
  trace : List TraceEntry
  traceLength : ℕ
  currTraceIdx : ℕ
  traceCount : ℕ

/-- Behind `init_trace`. -/
def Frontend.init (trace : List TraceEntry) : Frontend := ⟨trace, trace.length, 0, 0⟩

/-- `is_finished`. -/
def Frontend.isFinished (f : Frontend) : Bool := decide (f.traceLength ≤ f.traceCount)

/-- An accepted request moves on. -/
def Frontend.advance (f : Frontend) : Frontend :=
  { f with
    currTraceIdx := (f.currTraceIdx + 1) % f.traceLength
    traceCount := f.traceCount + 1 }

/-- Both sides. The indices that were looked at, and those that were accepted, are not in the
source. -/
structure State (σ : Type*) where
  frontend : Frontend
  memory : MemorySystem σ
  looked : List ℕ
  accepted : List ℕ

namespace State

/-- Behind the initialization. -/
def init (trace : List TraceEntry) (controllers : σ) : State σ :=
  ⟨.init trace, .init controllers, [], []⟩

variable (parts : Parts σ)

/-- The body of the loop, with `request_sent`. An index that leaves the trace, and a `req_type`
without a case, send nothing. -/
def attempt (s : State σ) : Bool × State σ :=
  let idx := s.frontend.currTraceIdx
  let s := { s with looked := s.looked ++ [idx] }
  match s.frontend.trace[idx]? with
  | none => (false, s)
  | some t =>
    match requestType t.reqType with
    | none => (false, s)
    | some type =>
      let (requestSent, memory) := s.memory.send parts t.addr type
      if requestSent then
        (true, { s with
          frontend := s.frontend.advance
          memory := memory
          accepted := s.accepted ++ [idx] })
      else (false, { s with memory := memory })

/-- `while(!req_full && !is_finished())`, up to a number of rounds. -/
def loop : ℕ → State σ → State σ
  | 0, s => s
  | rounds + 1, s =>
    if s.frontend.isFinished then s
    else
      let (requestSent, s) := s.attempt parts
      if requestSent then loop rounds s else s

/-- `tick` of the frontend: a round that goes on uses up a line. -/
def tickFrontend (s : State σ) : State σ :=
  s.loop parts (s.frontend.traceLength - s.frontend.traceCount)

/-- `tick` of the memory system. -/
def tickMemory (s : State σ) : State σ := { s with memory := s.memory.tick parts }

end State

/-- Which side ticks. -/
inductive Side where
  | frontend
  | memory

/-- A step of the simulation. -/
def State.step (parts : Parts σ) (s : State σ) : Side → State σ
  | .frontend => s.tickFrontend parts
  | .memory => s.tickMemory parts

/-! ## Every line once -/

/-- The counter of an entry. -/
def TraceEntry.stat (t : TraceEntry) : Option Stat := (requestType t.reqType).bind Trace.stat

/-- What the loop keeps: lines are accepted one after the other, and counted. -/
structure Inv (entries : List TraceEntry) (s : State σ) : Prop where
  sameTrace : s.frontend.trace = entries
  traceLength : s.frontend.traceLength = entries.length
  traceCount : s.frontend.traceCount ≤ entries.length
  currTraceIdx : s.frontend.currTraceIdx = s.frontend.traceCount % entries.length
  looked : ∀ i ∈ s.looked, i < entries.length
  accepted : s.accepted = List.range s.frontend.traceCount
  counters : ∀ c, s.memory.counters c = BitVec.ofNat 32
    ((entries.take s.frontend.traceCount).countP fun t => decide (t.stat = some c))

section Invariant

variable {parts : Parts σ} {entries : List TraceEntry} {s : State σ}

theorem inv_init (entries : List TraceEntry) (controllers : σ) :
    Inv entries (State.init entries controllers) := by
  refine ⟨rfl, rfl, Nat.zero_le _, (Nat.zero_mod _).symm, nofun, rfl, ?_⟩
  intro c
  rfl

theorem Inv.isFinished_iff (h : Inv entries s) :
    s.frontend.isFinished = true ↔ s.frontend.traceCount = entries.length := by
  have hle := h.traceCount
  rw [Frontend.isFinished, decide_eq_true_iff, h.traceLength]
  omega

theorem Inv.lt_of_not_finished (h : Inv entries s) (hfinished : ¬s.frontend.isFinished = true) :
    s.frontend.traceCount < entries.length :=
  lt_of_le_of_ne h.traceCount (mt h.isFinished_iff.mpr hfinished)

/-- Before the end the index is the count. -/
theorem Inv.currTraceIdx_eq (h : Inv entries s) (hlt : s.frontend.traceCount < entries.length) :
    s.frontend.currTraceIdx = s.frontend.traceCount := by
  rw [h.currTraceIdx, Nat.mod_eq_of_lt hlt]

/-- Counting one request. -/
theorem MemorySystem.counters_count (m : MemorySystem σ) (type : RequestType) (c : Stat) :
    (m.count type).counters c =
      m.counters c + BitVec.ofNat 32 (if Trace.stat type = some c then 1 else 0) := by
  rw [MemorySystem.count]
  rcases hstat : Trace.stat type with _ | c'
  · simp
  · by_cases hc : c = c'
    · rw [hc]
      simp
    · have hne : ¬some c' = some c := fun h => hc (Option.some.inj h).symm
      simp [Function.update_of_ne hc, hne]

/-- An accepted request is counted, a rejected one is not. -/
theorem MemorySystem.counters_send {m m' : MemorySystem σ} {addr : Addr} {type : RequestType}
    {isSuccess : Bool} (h : m.send parts addr type = (isSuccess, m')) (c : Stat) :
    m'.counters c = m.counters c +
      BitVec.ofNat 32 (if isSuccess = true ∧ Trace.stat type = some c then 1 else 0) := by
  rw [MemorySystem.send] at h
  rcases hsend : parts.send ((parts.applyMapper addr).getD 0 (-1))
    ⟨addr, parts.applyMapper addr, type⟩ m.controllers with ⟨isSuccess', controllers⟩
  simp only [hsend] at h
  obtain ⟨rfl, rfl⟩ := Prod.mk.inj h
  cases isSuccess' with
  | false => simp
  | true => simpa using MemorySystem.counters_count { m with controllers := controllers } type c

/-- **One round**: it accepts the next line, or leaves everything as it was. -/
theorem Inv.attempt (h : Inv entries s) (hlt : s.frontend.traceCount < entries.length)
    {requestSent : Bool} {s' : State σ} (hs' : s.attempt parts = (requestSent, s')) :
    Inv entries s' ∧ s'.frontend.traceCount =
      s.frontend.traceCount + (if requestSent then 1 else 0) := by
  have hidx := h.currTraceIdx_eq hlt
  have hlooked : ∀ i ∈ s.looked ++ [s.frontend.currTraceIdx], i < entries.length := by
    intro i hi
    rcases List.mem_append.mp hi with hi | hi
    · exact h.looked i hi
    · rw [List.mem_singleton.mp hi, hidx]
      exact hlt
  have hget : s.frontend.trace[s.frontend.currTraceIdx]? = some entries[s.frontend.traceCount] := by
    rw [h.sameTrace, hidx]
    exact List.getElem?_eq_getElem hlt
  rw [State.attempt] at hs'
  simp only [hget] at hs'
  -- a line of no known type is not sent, and a line that is sent may be rejected
  rcases htype : requestType entries[s.frontend.traceCount].reqType with _ | type
  · rw [htype] at hs'
    obtain ⟨rfl, rfl⟩ := Prod.mk.inj hs'
    exact ⟨⟨h.sameTrace, h.traceLength, h.traceCount, h.currTraceIdx, hlooked, h.accepted,
      h.counters⟩, rfl⟩
  · rw [htype] at hs'
    rcases hsend : s.memory.send parts entries[s.frontend.traceCount].addr type with
      ⟨isSuccess, memory⟩
    have hcounters := MemorySystem.counters_send hsend
    simp only [hsend] at hs'
    cases isSuccess with
    | false =>
      obtain ⟨rfl, rfl⟩ := Prod.mk.inj hs'
      refine ⟨⟨h.sameTrace, h.traceLength, h.traceCount, h.currTraceIdx, hlooked, h.accepted, ?_⟩,
        rfl⟩
      intro c
      refine (hcounters c).trans ?_
      simpa using h.counters c
    | true =>
      obtain ⟨rfl, rfl⟩ := Prod.mk.inj hs'
      refine ⟨⟨h.sameTrace, h.traceLength, hlt, ?_, hlooked, ?_, ?_⟩, rfl⟩
      · show (s.frontend.currTraceIdx + 1) % s.frontend.traceLength = _
        rw [hidx, h.traceLength]
        rfl
      · show s.accepted ++ [s.frontend.currTraceIdx] = List.range (s.frontend.traceCount + 1)
        rw [h.accepted, hidx, List.range_succ]
      · -- the line that is accepted is the one behind those that were counted
        intro c
        have hstat : entries[s.frontend.traceCount].stat = Trace.stat type := by
          rw [TraceEntry.stat, htype, Option.bind_some]
        have htake : entries.take (s.frontend.traceCount + 1) =
            entries.take s.frontend.traceCount ++ [entries[s.frontend.traceCount]] :=
          List.take_succ_eq_append_getElem hlt
        refine (hcounters c).trans ?_
        show _ = BitVec.ofNat 32 ((entries.take (s.frontend.traceCount + 1)).countP _)
        rw [h.counters c, htake, List.countP_append, List.countP_singleton, hstat, BitVec.ofNat_add]
        simp

/-- The loop keeps the invariant. -/
theorem Inv.loop (h : Inv entries s) (rounds : ℕ) : Inv entries (s.loop parts rounds) := by
  induction rounds generalizing s with
  | zero => exact h
  | succ rounds ih =>
    rw [State.loop]
    split_ifs with hfinished
    · exact h
    · have hlt := h.lt_of_not_finished hfinished
      rcases hattempt : s.attempt parts with ⟨requestSent, s'⟩
      have hs' := (h.attempt hlt hattempt).1
      cases requestSent with
      | false => exact hs'
      | true => exact ih hs'

/-- So does every step. -/
theorem Inv.step (h : Inv entries s) (side : Side) : Inv entries (s.step parts side) := by
  cases side with
  | frontend => exact h.loop _
  | memory => exact ⟨h.sameTrace, h.traceLength, h.traceCount, h.currTraceIdx, h.looked, h.accepted,
      h.counters⟩

/-- Before the end a tick has a round left. -/
theorem Inv.rounds_eq (h : Inv entries s) (hlt : s.frontend.traceCount < entries.length) :
    s.frontend.traceLength - s.frontend.traceCount =
      (entries.length - (s.frontend.traceCount + 1)) + 1 := by
  rw [h.traceLength]
  omega

/-- The rounds of a tick do not run out: it is the loop of the source. -/
theorem tickFrontend_eq (h : Inv entries s) : s.tickFrontend parts =
    if s.frontend.isFinished then s
    else if (s.attempt parts).1 then (s.attempt parts).2.tickFrontend parts
    else (s.attempt parts).2 := by
  rw [State.tickFrontend]
  split_ifs with hfinished hsent
  · have hcount := h.isFinished_iff.mp hfinished
    rw [h.traceLength, hcount, Nat.sub_self]
    rfl
  · have hlt := h.lt_of_not_finished hfinished
    obtain ⟨hs', hcount⟩ := h.attempt hlt (Prod.mk.eta (p := s.attempt parts)).symm
    rw [if_pos hsent] at hcount
    rw [h.rounds_eq hlt, State.loop, if_neg hfinished, State.tickFrontend, hs'.traceLength, hcount]
    exact if_pos hsent
  · have hlt := h.lt_of_not_finished hfinished
    rw [h.rounds_eq hlt, State.loop, if_neg hfinished]
    exact if_neg hsent

/-- The run lemma. -/
theorem inv_run (entries : List TraceEntry) (controllers : σ) (sides : List Side) :
    Inv entries (sides.foldl (State.step parts) (State.init entries controllers)) :=
  foldl_of_step (fun _ side h => Inv.step h side) (inv_init entries controllers)

end Invariant

end AttAcc.Trace
