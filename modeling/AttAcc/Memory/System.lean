import AttAcc.Controller.Refresh
import AttAcc.Library.Components
import AttAcc.Trace.Frontend

/-!
# The simulated memory system

`PIMDRAMSystem` with a controller and a refresh manager for every channel, as `Parts` of the
memory system that the frontend sends to, and the loop of `main`: a tick of the frontend, a tick
of the memory system, until the trace is sent and no controller has work left.

A channel is a component of the whole: whatever the simulation does, its controller runs as one
that is on its own, and it accepts, in the order of the trace, exactly the lines that the address
mapper maps to it, and one round of refreshes every `nREFI` cycles (`channel_follows`).
-/

namespace AttAcc.Memory

open Controller (Addr AddrVec BufferId Device Event Packet RefreshManager RefreshScheme Watermarks
  refreshPacket)
open Dram (Command)
open Library
open Trace (Side TraceEntry requestType)

/-! ## Channels -/

variable {D : Device} {n : ℕ}

/-- What a simulation is set up with. The devices start in any state. What is behind the end of a
buffer, for a channel and a cycle, may be anything. -/
structure Setup (D : Device) (n : ℕ) where
  applyMapper : Addr → AddrVec
  watermarks : Watermarks
  maxSize : BufferId → ℕ
  dram : Fin n → D.State
  scheme : RefreshScheme
  dramOrgLevels : ℕ
  numRanks : ℕ
  nrefi : ℤ
  nrefi_pos : 0 < nrefi
  stale : Fin n → ℤ → Option Command

/-- A controller with its refresh manager. -/
structure Channel (D : Device) where
  controller : Controller.State D
  refresh : RefreshManager

/-- `tick` of a controller. -/
def Channel.tick (w : Watermarks) (stale : ℤ → Option Command) (ch : Channel D) :
    Option (Channel D) :=
  (ch.controller.tick w ch.refresh.tick.2 (stale ch.controller.clk)).map
    fun controller => ⟨controller, ch.refresh.tick.1⟩

/-- `m_controllers`. An exception ends the program: the channels then stay as they are. -/
structure Channels (D : Device) (n : ℕ) where
  channel : Fin n → Channel D
  thrown : Bool

namespace Setup

variable (setup : Setup D n)

/-- The controller of a channel, after its construction. -/
def controller (c : Fin n) : Controller.State D :=
  Controller.State.initial setup.maxSize (setup.dram c)

/-- Its refresh manager. -/
def refresh (c : Fin n) : RefreshManager :=
  RefreshManager.setup setup.scheme setup.dramOrgLevels setup.numRanks setup.nrefi (c : ℕ)

/-- All channels. -/
def channels : Channels D n := ⟨fun c => ⟨setup.controller c, setup.refresh c⟩, false⟩

/-- `m_controllers[channel_id]->send(req)`. There is no controller behind the last one. -/
def send (channelId : Addr) (p : Packet) (σ : Channels D n) : Bool × Channels D n :=
  if σ.thrown then (false, σ)
  else if h : 0 ≤ channelId ∧ channelId.toNat < n then
    let c : Fin n := ⟨channelId.toNat, h.2⟩
    match (σ.channel c).controller.send p with
    | none => (false, { σ with thrown := true })
    | some (controller, isSuccess) =>
      (isSuccess, { σ with
        channel := Function.update σ.channel c { σ.channel c with controller := controller } })
  else (false, { σ with thrown := true })

/-- The controllers tick one after the other, each on its own. -/
def tick (σ : Channels D n) : Channels D n :=
  if σ.thrown then σ
  else if h : ∀ c, ((σ.channel c).tick setup.watermarks (setup.stale c)).isSome then
    { σ with channel := fun c => ((σ.channel c).tick setup.watermarks (setup.stale c)).get (h c) }
  else { σ with thrown := true }

/-- The memory system. -/
def parts : Trace.Parts (Channels D n) where
  applyMapper := setup.applyMapper
  send := send
  tick := setup.tick

end Setup

/-- A simulation: the frontend, the memory system and its channels. -/
abbrev Simulation (D : Device) (n : ℕ) := Trace.State (Channels D n)

/-- `is_pending` of a controller. -/
def Channel.isPending (ch : Channel D) : Bool :=
  decide ((ch.controller.buffer .active).length ≠ 0) ||
    decide ((ch.controller.buffer .priority).length ≠ 0) ||
    decide ((ch.controller.buffer .read).length ≠ 0) ||
    decide ((ch.controller.buffer .write).length ≠ 0) ||
    decide ((ch.controller.buffer .pim).length ≠ 0) ||
    decide (ch.controller.pending.length ≠ 0)

end AttAcc.Memory

namespace AttAcc.Trace.State

open Memory (Channel Channels)

variable {D : Controller.Device} {n : ℕ} (s : State (Channels D n))

/-- A channel. -/
abbrev channel (c : Fin n) : Channel D := s.memory.controllers.channel c

/-- An exception has ended the program. -/
abbrev thrown : Bool := s.memory.controllers.thrown

/-- `is_pending` of the memory system. -/
def isPending : Bool := decide (∃ c, (s.channel c).isPending = true)

/-- The loop of `main` is left. -/
def isOver : Bool := s.frontend.isFinished && !s.isPending

end AttAcc.Trace.State

namespace AttAcc.Memory

open Controller (Addr AddrVec BufferId Device Event Packet RefreshManager RefreshScheme Watermarks
  refreshPacket)
open Dram (Command)
open Library
open Trace (Side TraceEntry requestType)

variable {D : Device} {n : ℕ}

namespace Setup

variable (setup : Setup D n) (entries : List TraceEntry)

/-- Before the first tick. -/
def start : Simulation D n := Trace.State.init entries setup.channels

/-- A simulation after some ticks, of the frontend and of the memory system in any order. -/
def run (sides : List Side) : Simulation D n :=
  sides.foldl (Trace.State.step setup.parts) (setup.start entries)

/-- The body of the loop of `main`, with a clock ratio of 1 on both sides. -/
def iteration (s : Simulation D n) : Simulation D n :=
  (s.tickFrontend setup.parts).tickMemory setup.parts

/-- The loop of `main`, up to a number of rounds. -/
def mainLoop : ℕ → Simulation D n → Simulation D n
  | 0, s => s
  | rounds + 1, s =>
    let s := setup.iteration s
    if s.thrown || s.isOver then s else mainLoop rounds s

end Setup

/-! ## Steps of a channel -/

section Steps

variable {setup : Setup D n} {σ σ' : Channels D n} {channelId : Addr} {p : Packet}

/-- **What sending does**: one channel accepts, and the others stay; or all stay. -/
theorem send_cases {isSuccess : Bool} (h : Setup.send channelId p σ = (isSuccess, σ')) :
    (isSuccess = true ∧ σ.thrown = false ∧ σ'.thrown = false ∧
      ∃ c : Fin n, ((c : ℕ) : ℤ) = channelId ∧
      ∃ s', (σ.channel c).controller.send p = some (s', true) ∧
        σ'.channel = Function.update σ.channel c { σ.channel c with controller := s' }) ∨
      isSuccess = false ∧ σ'.channel = σ.channel ∧ (σ'.thrown = false → σ.thrown = false) := by
  rw [Setup.send] at h
  split_ifs at h with hthrown hrange
  · obtain ⟨rfl, rfl⟩ := Prod.mk.inj h
    exact .inr ⟨rfl, rfl, id⟩
  · have hnot : σ.thrown = false := eq_false_of_ne_true hthrown
    have hid : ((channelId.toNat : ℕ) : ℤ) = channelId := Int.toNat_of_nonneg hrange.1
    cases hsend : (σ.channel ⟨channelId.toNat, hrange.2⟩).controller.send p with
    | none =>
      simp only [hsend] at h
      obtain ⟨rfl, rfl⟩ := Prod.mk.inj h
      exact .inr ⟨rfl, rfl, by simp⟩
    | some result =>
      obtain ⟨s', success⟩ := result
      simp only [hsend] at h
      obtain ⟨rfl, rfl⟩ := Prod.mk.inj h
      rcases Controller.send_cases hsend with ⟨rfl, -⟩ | ⟨rfl, rfl⟩
      · exact .inl ⟨rfl, hnot, hnot, _, hid, s', hsend, rfl⟩
      · exact .inr ⟨rfl, Function.update_eq_self _ _, fun _ => hnot⟩
  · obtain ⟨rfl, rfl⟩ := Prod.mk.inj h
    exact .inr ⟨rfl, rfl, by simp⟩

/-- **What a tick does**: every channel ticks, or one throws and all stay. -/
theorem tick_cases (setup : Setup D n) (σ : Channels D n) :
    ((setup.tick σ).thrown = false ∧ σ.thrown = false ∧ ∀ c,
      (σ.channel c).tick setup.watermarks (setup.stale c) = some ((setup.tick σ).channel c)) ∨
      (setup.tick σ).thrown = true ∧ (setup.tick σ).channel = σ.channel := by
  rw [Setup.tick]
  split_ifs with hthrown hall
  · exact .inr ⟨hthrown, rfl⟩
  · refine .inl ⟨eq_false_of_ne_true hthrown, eq_false_of_ne_true hthrown, ?_⟩
    intro c
    exact (Option.some_get (hall c)).symm
  · exact .inr ⟨rfl, rfl⟩

end Steps

/-! ## Steps of the frontend -/

end AttAcc.Memory

namespace AttAcc.Trace

open Controller (Addr AddrVec Packet)

/-- The request of a line, with its address mapped. -/
def TraceEntry.packet (applyMapper : Addr → AddrVec) (t : TraceEntry) : Option Packet :=
  (requestType t.reqType).map fun type => ⟨t.addr, applyMapper t.addr, type⟩

variable {σ : Type*} {parts : Parts σ} {entries : List TraceEntry} {s s' : State σ}

/-- Counting leaves the clock and the controllers alone. -/
theorem MemorySystem.frame_count (m : MemorySystem σ) (type : Controller.RequestType) :
    (m.count type).clk = m.clk ∧ (m.count type).controllers = m.controllers := by
  rw [MemorySystem.count]
  cases stat type with
  | none => exact ⟨rfl, rfl⟩
  | some c => exact ⟨rfl, rfl⟩

/-- Sending is up to the controllers. -/
theorem MemorySystem.controllers_send {m m' : MemorySystem σ} {addr : Addr}
    {type : Controller.RequestType} {isSuccess : Bool}
    (h : m.send parts addr type = (isSuccess, m')) : m'.clk = m.clk ∧
      parts.send ((parts.applyMapper addr).getD 0 (-1)) ⟨addr, parts.applyMapper addr, type⟩
        m.controllers = (isSuccess, m'.controllers) := by
  rw [MemorySystem.send] at h
  rcases hsend : parts.send ((parts.applyMapper addr).getD 0 (-1))
    ⟨addr, parts.applyMapper addr, type⟩ m.controllers with ⟨isSuccess', controllers⟩
  simp only [hsend] at h
  obtain ⟨rfl, rfl⟩ := Prod.mk.inj h
  split_ifs
  · obtain ⟨hclk, hcontrollers⟩ :=
      MemorySystem.frame_count { m with controllers := controllers } type
    exact ⟨hclk, by rw [hcontrollers]⟩
  · exact ⟨rfl, rfl⟩

/-- **What a round of the frontend does**: the next line is accepted, or rejected, or not sent. -/
theorem attempt_cases (h : Inv entries s) (hlt : s.frontend.traceCount < entries.length)
    {requestSent : Bool} (hs' : s.attempt parts = (requestSent, s')) :
    s'.memory.clk = s.memory.clk ∧
      ((requestSent = true ∧ s'.frontend.traceCount = s.frontend.traceCount + 1 ∧
        ∃ p, entries[s.frontend.traceCount].packet parts.applyMapper = some p ∧
          parts.send (p.addrVec.getD 0 (-1)) p s.memory.controllers =
            (true, s'.memory.controllers)) ∨
        requestSent = false ∧ s'.frontend.traceCount = s.frontend.traceCount ∧
          (s'.memory.controllers = s.memory.controllers ∨
            ∃ p, parts.send (p.addrVec.getD 0 (-1)) p s.memory.controllers =
              (false, s'.memory.controllers))) := by
  have hget : s.frontend.trace[s.frontend.currTraceIdx]? = some entries[s.frontend.traceCount] := by
    rw [h.sameTrace, h.currTraceIdx_eq hlt]
    exact List.getElem?_eq_getElem hlt
  rw [State.attempt] at hs'
  simp only [hget] at hs'
  rw [TraceEntry.packet]
  cases htype : requestType entries[s.frontend.traceCount].reqType with
  | none =>
    rw [htype] at hs'
    obtain ⟨rfl, rfl⟩ := Prod.mk.inj hs'
    exact ⟨rfl, .inr ⟨rfl, rfl, .inl rfl⟩⟩
  | some type =>
    rw [htype] at hs'
    rcases hsend : s.memory.send parts entries[s.frontend.traceCount].addr type with
      ⟨isSuccess, memory⟩
    obtain ⟨hclk, hcontrollers⟩ := MemorySystem.controllers_send hsend
    simp only [hsend] at hs'
    cases isSuccess with
    | false =>
      obtain ⟨rfl, rfl⟩ := Prod.mk.inj hs'
      exact ⟨hclk, .inr ⟨rfl, rfl, .inr ⟨⟨_, _, type⟩, hcontrollers⟩⟩⟩
    | true =>
      obtain ⟨rfl, rfl⟩ := Prod.mk.inj hs'
      exact ⟨hclk, .inl ⟨rfl, rfl, _, rfl, hcontrollers⟩⟩

/-- **Induction over the steps of a simulation**, on top of the invariant of the frontend. -/
theorem run_induction {P : State σ → Prop}
    (hattempt : ∀ s s' requestSent, Inv entries s → s.frontend.traceCount < entries.length →
      s.attempt parts = (requestSent, s') → P s → P s')
    (htick : ∀ s, Inv entries s → P s → P (s.tickMemory parts)) {controllers : σ}
    (h0 : P (State.init entries controllers)) (sides : List Side) :
    P (sides.foldl (State.step parts) (State.init entries controllers)) := by
  have hloop : ∀ rounds, ∀ s : State σ, Inv entries s → P s → P (s.loop parts rounds) := by
    intro rounds
    induction rounds with
    | zero => exact fun _ _ hP => hP
    | succ rounds ih =>
      intro s hs hP
      rw [State.loop]
      split_ifs with hfinished
      · exact hP
      · have hlt := hs.lt_of_not_finished hfinished
        rcases hround : s.attempt parts with ⟨requestSent, s'⟩
        have hP' := hattempt s s' requestSent hs hlt hround hP
        cases requestSent with
        | false => exact hP'
        | true => exact ih s' (hs.attempt hlt hround).1 hP'
  have hboth : Inv entries (sides.foldl (State.step parts) (State.init entries controllers)) ∧
      P (sides.foldl (State.step parts) (State.init entries controllers)) := by
    refine Library.foldl_of_step (P := fun s => Inv entries s ∧ P s) ?_
      ⟨inv_init entries controllers, h0⟩
    rintro s side ⟨hs, hP⟩
    refine ⟨hs.step side, ?_⟩
    cases side with
    | frontend => exact hloop _ s hs hP
    | memory => exact htick s hs hP
  exact hboth.2

end AttAcc.Trace

namespace AttAcc.Memory

open Controller (Addr AddrVec Device Packet RefreshManager RefreshScheme refreshPacket)
open Library
open Trace (Side TraceEntry requestType)

variable {D : Device} {n : ℕ}

/-! ## What a channel follows -/

/-- No refresh. -/
def fromFrontend (p : Packet) : Bool := p.typeId.sendBuffer.isSome

/-- The lines of a trace that are mapped to a channel, as requests. -/
def Setup.lines (setup : Setup D n) (entries : List TraceEntry) (c : Fin n) : List Packet :=
  (entries.filterMap (TraceEntry.packet setup.applyMapper)).filter
    fun p => decide (p.addrVec.getD 0 (-1) = (c : ℕ))

/-- A channel in a run of the whole: its controller runs on its own, and has accepted some lines
and the refreshes that were due. -/
structure Follows (setup : Setup D n) (c : Fin n) (lines : List Packet) (ch : Channel D) :
    Prop where
  runsTo : RunsTo (Controller.step setup.watermarks) (setup.controller c) ch.controller
  inPhase : ch.refresh.InPhase
  scheme : ch.refresh.scheme = setup.scheme
  round : ch.refresh.round = (setup.refresh c).round
  nrefi : ch.refresh.nrefi = setup.nrefi
  clk : ch.refresh.clk = ch.controller.clk
  lines : ch.controller.packets.filter fromFrontend = lines
  refreshes : ch.controller.packets.filter (fun p => !fromFrontend p) =
    (List.replicate ch.refresh.rounds (setup.refresh c).round).flatten.map refreshPacket

namespace Follows

variable {setup : Setup D n} {c : Fin n} {lines : List Packet} {ch ch' : Channel D}

theorem start (setup : Setup D n) (c : Fin n) : Follows setup c [] (setup.channels.channel c) := by
  refine ⟨.refl _, RefreshManager.inPhase_setup setup.nrefi_pos, rfl, rfl, rfl, rfl, rfl, ?_⟩
  have hrounds : (setup.channels.channel c).refresh.rounds = 0 := by
    show setup.scheme.rounds 0 setup.nrefi = 0
    cases setup.scheme with
    | allBankHBM3 => exact congrArg Int.toNat (Int.zero_ediv _)
    | no => rfl
  rw [hrounds]
  rfl

/-- A line is accepted. -/
theorem send (h : Follows setup c lines ch) {p : Packet} {s' : Controller.State D}
    (hsend : ch.controller.send p = some (s', true)) (hp : fromFrontend p = true) :
    Follows setup c (lines ++ [p]) { ch with controller := s' } := by
  obtain ⟨-, hpackets⟩ | ⟨hfalse, -⟩ := Controller.send_cases hsend
  · refine ⟨?_, h.inPhase, h.scheme, h.round, h.nrefi, ?_, ?_, ?_⟩
    · have hstep : Controller.step setup.watermarks ch.controller (.send p) = s' := by
        rw [Controller.step, hsend]
        rfl
      exact h.runsTo.trans (.single hstep)
    · exact h.clk.trans (Controller.clk_send hsend).symm
    · simp [hpackets, h.lines, hp]
    · simp [hpackets, h.refreshes, hp]
  · cases hfalse

/-- A cycle passes. -/
theorem tick (h : Follows setup c lines ch)
    (htick : ch.tick setup.watermarks (setup.stale c) = some ch') : Follows setup c lines ch' := by
  obtain ⟨s', hs', rfl⟩ := Option.map_eq_some_iff.mp htick
  obtain ⟨hscheme, hround, hclk, hnrefi⟩ := ch.refresh.frame_tick
  obtain ⟨hphase, hrounds⟩ := h.inPhase.tick
  have hpackets := Controller.packets_tick hs'
  have hnone : ∀ refreshes : List AddrVec,
      (refreshes.map refreshPacket).filter fromFrontend = [] := by
    intro refreshes
    simp [fromFrontend, refreshPacket, Controller.RequestType.sendBuffer]
  have hall : ∀ refreshes : List AddrVec,
      (refreshes.map refreshPacket).filter (fun p => !fromFrontend p) =
        refreshes.map refreshPacket := by
    intro refreshes
    simp [fromFrontend, refreshPacket, Controller.RequestType.sendBuffer]
  refine ⟨?_, hphase, hscheme.trans h.scheme, hround.trans h.round, hnrefi.trans h.nrefi, ?_, ?_,
    ?_⟩
  · have hstep : Controller.step setup.watermarks ch.controller
        (.tick ch.refresh.tick.2 (setup.stale c ch.controller.clk)) = s' := by
      rw [Controller.step, hs']
      rfl
    exact h.runsTo.trans (.single hstep)
  · rw [hclk, h.clk, Controller.clk_tick hs']
  · rw [hpackets, List.filter_append, hnone, List.append_nil, h.lines]
  · rw [hpackets, List.filter_append, hall, h.refreshes]
    rcases hrounds with ⟨hcount, hsubmitted⟩ | ⟨hcount, hsubmitted⟩
    · rw [hcount, hsubmitted, h.round, List.replicate_succ', List.flatten_append, List.map_append]
      simp
    · rw [hcount, hsubmitted]
      simp

end Follows

/-- All channels follow the trace, and their clocks are that of the memory system. -/
structure Consistent (setup : Setup D n) (entries : List TraceEntry) (s : Simulation D n) :
    Prop where
  follows : ∀ c, Follows setup c (setup.lines (entries.take s.frontend.traceCount) c) (s.channel c)
  clk : s.thrown = false → ∀ c, (s.channel c).controller.clk = s.memory.clk

/-- The lines of a channel, one line further on. -/
theorem lines_take_succ (setup : Setup D n) {entries : List TraceEntry} {k : ℕ}
    (hk : k < entries.length) {p : Packet}
    (hp : entries[k].packet setup.applyMapper = some p) (c : Fin n) :
    setup.lines (entries.take (k + 1)) c = setup.lines (entries.take k) c ++
      if p.addrVec.getD 0 (-1) = (c : ℕ) then [p] else [] := by
  rw [Setup.lines, List.take_succ_eq_append_getElem hk, List.filterMap_append, List.filter_append]
  simp only [List.filterMap_cons, hp, List.filterMap_nil, List.filter_singleton]
  split_ifs with hid
  · rw [decide_eq_true hid]
    rfl
  · rw [decide_eq_false hid]
    rfl

/-- The frontend sends no refreshes. -/
theorem isSome_sendBuffer {reqType : ℤ} {type : Controller.RequestType}
    (h : requestType reqType = some type) : type.sendBuffer.isSome = true := by
  rw [requestType] at h
  cases type with
  | AllBankRefresh =>
    simp only [ite_eq_iff, Option.some.injEq, reduceCtorEq, and_false, or_self] at h
  | PerBankRefresh =>
    simp only [ite_eq_iff, Option.some.injEq, reduceCtorEq, and_false, or_self] at h
  | _ => rfl

theorem fromFrontend_packet {applyMapper : Addr → AddrVec} {t : TraceEntry} {p : Packet}
    (h : t.packet applyMapper = some p) : fromFrontend p = true := by
  obtain ⟨type, htype, rfl⟩ := Option.map_eq_some_iff.mp h
  exact isSome_sendBuffer htype

namespace Consistent

variable {setup : Setup D n} {entries : List TraceEntry} {s s' : Simulation D n}

theorem start (setup : Setup D n) (entries : List TraceEntry) :
    Consistent setup entries (setup.start entries) := by
  refine ⟨fun c => ?_, fun _ _ => rfl⟩
  have hlines : setup.lines (entries.take 0) c = [] := by
    rw [List.take_zero]
    rfl
  show Follows setup c (setup.lines (entries.take 0) c) _
  rw [hlines]
  exact .start setup c

/-- A channel accepts the next line, and the others stay. -/
theorem sent (h : Consistent setup entries s) (hlt : s.frontend.traceCount < entries.length)
    {p : Packet} (hp : entries[s.frontend.traceCount].packet setup.applyMapper = some p)
    (hcount : s'.frontend.traceCount = s.frontend.traceCount + 1)
    (hclk : s'.memory.clk = s.memory.clk) (hthrown : s.thrown = false) {c : Fin n}
    (hc : ((c : ℕ) : ℤ) = p.addrVec.getD 0 (-1)) {s₁ : Controller.State D}
    (haccepts : (s.channel c).controller.send p = some (s₁, true))
    (hchannels : s'.memory.controllers.channel = Function.update s.memory.controllers.channel c
      { s.channel c with controller := s₁ }) : Consistent setup entries s' := by
  have hself : s'.channel c = { s.channel c with controller := s₁ } := by
    rw [Trace.State.channel, hchannels, Function.update_self]
  have hother : ∀ c' ≠ c, s'.channel c' = s.channel c' := by
    intro c' hne
    rw [Trace.State.channel, hchannels, Function.update_of_ne hne]
  refine ⟨?_, ?_⟩
  · intro c'
    rw [hcount, lines_take_succ setup hlt hp, ← hc]
    by_cases hsame : c' = c
    · rw [hsame, hself, if_pos rfl]
      exact (h.follows c).send haccepts (fromFrontend_packet hp)
    · have hid : ¬((c : ℕ) : ℤ) = (c' : ℕ) := fun hid => hsame (Fin.ext (Int.ofNat_inj.mp hid).symm)
      rw [hother c' hsame, if_neg hid, List.append_nil]
      exact h.follows c'
  · intro _ c'
    rw [hclk]
    by_cases hsame : c' = c
    · rw [hsame, hself]
      exact (Controller.clk_send haccepts).trans (h.clk hthrown c)
    · rw [hother c' hsame]
      exact h.clk hthrown c'

theorem attempt (h : Consistent setup entries s) (hs : Trace.Inv entries s)
    (hlt : s.frontend.traceCount < entries.length) {requestSent : Bool}
    (hattempt : s.attempt setup.parts = (requestSent, s')) : Consistent setup entries s' := by
  obtain ⟨hclk, ⟨-, hcount, p, hp, hsend⟩ | ⟨-, hcount, hstays⟩⟩ :=
    Trace.attempt_cases hs hlt hattempt
  · obtain ⟨-, hthrown, -, c, hc, s₁, haccepts, hchannels⟩ | ⟨hfalse, -⟩ := send_cases hsend
    · exact h.sent hlt hp hcount hclk hthrown hc haccepts hchannels
    · cases hfalse
  · have hchannels : s'.memory.controllers.channel = s.memory.controllers.channel ∧
        (s'.thrown = false → s.thrown = false) := by
      rcases hstays with hstays | ⟨p, hsend⟩
      · rw [Trace.State.thrown, hstays]
        exact ⟨rfl, id⟩
      · obtain ⟨htrue, -⟩ | ⟨-, hchannels, hthrown⟩ := send_cases hsend
        · cases htrue
        · exact ⟨hchannels, hthrown⟩
    refine ⟨?_, ?_⟩
    · intro c
      rw [Trace.State.channel, hchannels.1, hcount]
      exact h.follows c
    · intro hthrown c
      rw [Trace.State.channel, hchannels.1, hclk]
      exact h.clk (hchannels.2 hthrown) c

/-- Every channel ticks, or one throws and all stay. -/
theorem tickMemory (h : Consistent setup entries s) :
    Consistent setup entries (s.tickMemory setup.parts) := by
  obtain ⟨-, hthrown, hticks⟩ | ⟨hthrows, hsame⟩ := tick_cases setup s.memory.controllers
  · refine ⟨fun c => (h.follows c).tick (hticks c), ?_⟩
    intro _ c
    obtain ⟨s₁, hs₁, hchannel⟩ := Option.map_eq_some_iff.mp (hticks c)
    have hcontroller : ((s.tickMemory setup.parts).channel c).controller = s₁ :=
      (congrArg Channel.controller hchannel).symm
    have hclk : (s.tickMemory setup.parts).memory.clk = s.memory.clk + 1 := rfl
    rw [hcontroller, Controller.clk_tick hs₁, h.clk hthrown c, hclk, Nat.cast_succ]
  · refine ⟨?_, ?_⟩
    · intro c
      have hchannel : (s.tickMemory setup.parts).channel c = s.channel c := congrFun hsame c
      rw [hchannel]
      exact h.follows c
    · intro hfalse
      exact absurd (hthrows.symm.trans hfalse) (by decide)

/-- **The simulation keeps its channels consistent.** -/
theorem run (setup : Setup D n) (entries : List TraceEntry) (sides : List Side) :
    Consistent setup entries (setup.run entries sides) := by
  rw [Setup.run, Setup.start]
  refine Trace.run_induction (P := Consistent setup entries) ?_ ?_ (.start setup entries) sides
  · exact fun s s' requestSent hs hlt hattempt h => h.attempt hs hlt hattempt
  · exact fun s _ h => h.tickMemory

end Consistent

theorem Follows.rounds_eq {setup : Setup D n} {c : Fin n} {lines : List Packet} {ch : Channel D}
    (h : Follows setup c lines ch) : ch.refresh.rounds =
      setup.scheme.rounds ch.controller.clk setup.nrefi := by
  rw [RefreshManager.rounds, h.scheme, h.clk, h.nrefi]

/-- **What reaches a channel**: after any ticks of the frontend and of the memory system, with any
devices and any mapper, the controller of a channel is in a state that it runs to on its own. The
requests that it has accepted from the frontend are the lines sent so far that are mapped to it, in
the order of the trace and each once; the others are one round of refreshes for every `nREFI` cycles
of its clock, which is that of the memory system. -/
theorem channel_follows (setup : Setup D n) (entries : List TraceEntry) (sides : List Side)
    (c : Fin n) :
    let s := setup.run entries sides
    let ctrl := (s.channel c).controller
    RunsTo (Controller.step setup.watermarks) (setup.controller c) ctrl ∧
      ctrl.packets.filter fromFrontend = setup.lines (entries.take s.frontend.traceCount) c ∧
      ctrl.packets.filter (fun p => !fromFrontend p) =
        (List.replicate (setup.scheme.rounds ctrl.clk setup.nrefi)
          (setup.refresh c).round).flatten.map refreshPacket ∧
      (s.channel c).refresh.clk = ctrl.clk ∧ (s.thrown = false → ctrl.clk = s.memory.clk) := by
  have h := Consistent.run setup entries sides
  have hc := h.follows c
  refine ⟨hc.runsTo, hc.lines, ?_, hc.clk, fun hthrown => h.clk hthrown c⟩
  rw [← hc.rounds_eq]
  exact hc.refreshes

end AttAcc.Memory
