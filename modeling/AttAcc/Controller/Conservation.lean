import AttAcc.Controller.DualIssue
import Mathlib.Data.List.Perm.Basic

/-!
# No accepted request disappears

A request waits in one buffer until its final command is issued, and a read then waits in the
pending queue for its data. The one place where a request may disappear is its way to the
active buffer, which is not asked whether it accepts: the request is removed from its own
buffer in any case.

Requests are counted by key. Whatever the kind that is counted, the accepted requests are the
ones that wait, that are finished or forwarded, and that are lost; and the reads that are
pending or delivered are those that are finished or forwarded.
-/

namespace AttAcc.Controller

open Dram (Command)
open Library

variable {D : Device} {w : Watermarks} {s s' : State D} {fits : Command → Bool} {c : Cursor}

/-! ## Counting -/

/-- What does not change of a request. -/
def Request.key (r : Request) : ℕ × RequestType := (r.uid, r.typeId)

/-- A kind of requests to count. -/
abbrev Kind := ℕ × RequestType → Bool

/-- The reads of a kind. -/
def Kind.reads (p : Kind) : Kind := fun key => p key && decide (key.2 = .Read)

/-- The number of requests of a kind. -/
def number (p : Kind) (requests : List Request) : ℕ := requests.countP fun r => p r.key

section

variable (p : Kind) (requests requests' : List Request) (r : Request)

theorem number_cons : number p (r :: requests) = number p requests + number p [r] := by
  rw [number, List.countP_cons, number, number, List.countP_singleton]

@[simp]
theorem number_append : number p (requests ++ requests') = number p requests + number p requests' :=
  List.countP_append

theorem number_reads_of_read (h : r.typeId = .Read) : number p.reads [r] = number p [r] := by
  simp [number, Kind.reads, Request.key, h]

theorem number_reads_of_ne (h : r.typeId ≠ .Read) : number p.reads [r] = 0 := by
  simp [number, Kind.reads, Request.key, h]

/-- A request is taken out of a list. -/
theorem number_eraseIdx {pos : ℕ} (h : requests[pos]? = some r) :
    number p (requests.eraseIdx pos) + number p [r] = number p requests := by
  obtain ⟨hpos, rfl⟩ := List.getElem?_eq_some_iff.mp h
  rw [← number_cons]
  exact (List.getElem_cons_eraseIdx_perm hpos).countP_eq _

theorem number_eq_zero (h : ∀ r ∈ requests, p r.key = false) : number p requests = 0 := by
  refine List.countP_eq_zero.mpr ?_
  intro r hr
  rw [h r hr]
  decide

end

/-- Barriers are not of the kind. -/
def Kind.NoBarrier (p : Kind) : Prop := ∀ uid, p (uid, .PIM_BARRIER) = false

theorem Kind.NoBarrier.number_barriers {p : Kind} (hp : p.NoBarrier) {barriers : List Request}
    (h : ∀ r ∈ barriers, r.isBarrier = true) : number p barriers = 0 := by
  refine number_eq_zero p barriers ?_
  intro r hr
  have htype : r.typeId = .PIM_BARRIER := of_decide_eq_true (h r hr)
  rw [Request.key, htype]
  exact hp r.uid

theorem Dropped.number {p : Kind} (hp : p.NoBarrier) {before after : List Request}
    (h : Dropped before after) : number p before = number p after := by
  obtain ⟨barriers, hbarriers, rfl⟩ := h
  rw [number_append, hp.number_barriers hbarriers, Nat.zero_add]

/-! ## Where requests are -/

namespace Entry

/-- The request that gets its final command. -/
def final? : Entry → Option Request
  | .issued _ req command => if command = req.finalCommand then some req else none
  | _ => none

def forwarded? : Entry → Option Request
  | .forwarded req => some req
  | _ => none

def delivered? : Entry → Option Request
  | .delivered req => some req
  | _ => none

def lost? : Entry → Option Request
  | .lost req => some req
  | _ => none

end Entry

namespace State

/-- The requests in the five buffers. -/
def waiting (s : State D) : List Request :=
  s.buffer .active ++ s.buffer .priority ++ s.buffer .read ++ s.buffer .write ++ s.buffer .pim

/-- The requests whose final command was issued, once for each time. -/
def finals (s : State D) : List Request := s.log.filterMap Entry.final?

/-- The reads that were answered from the write buffer. -/
def forwards (s : State D) : List Request := s.log.filterMap Entry.forwarded?

/-- The reads that have their data. -/
def deliveries (s : State D) : List Request := s.log.filterMap Entry.delivered?

/-- The requests that the active buffer has rejected. -/
def losses (s : State D) : List Request := s.log.filterMap Entry.lost?

end State

/-- The requests with a number. -/
def ofUid (uid : ℕ) : Kind := fun key => decide (key.1 = uid)

/-- What may be the case with an accepted request. -/
inductive Situation where
  | waiting
  | pending
  | finished
  deriving DecidableEq, Repr

/-- A request is in a situation. -/
def State.In (s : State D) (r : Request) : Situation → Prop
  | .waiting => number (ofUid r.uid) s.waiting = 1 ∧ number (ofUid r.uid) s.finals = 0 ∧
      number (ofUid r.uid) s.forwards = 0 ∧ number (ofUid r.uid) s.pending = 0 ∧
      number (ofUid r.uid) s.deliveries = 0
  | .pending => r.typeId = .Read ∧ number (ofUid r.uid) s.waiting = 0 ∧
      number (ofUid r.uid) s.finals + number (ofUid r.uid) s.forwards = 1 ∧
      number (ofUid r.uid) s.pending = 1 ∧ number (ofUid r.uid) s.deliveries = 0
  | .finished => number (ofUid r.uid) s.waiting = 0 ∧
      number (ofUid r.uid) s.finals + number (ofUid r.uid) s.forwards = 1 ∧
      number (ofUid r.uid) s.pending = 0 ∧
      number (ofUid r.uid) s.deliveries = if r.typeId = .Read then 1 else 0

/-- Every accepted request that is no barrier is in exactly one situation. -/
def Conserved (s : State D) : Prop :=
  ∀ r ∈ s.accepted, r.isBarrier = false → ∃! situation, s.In r situation

/-- A request is in one situation at most. -/
theorem State.In.unique {r : Request} {a b : Situation} (ha : s.In r a) (hb : s.In r b) :
    a = b := by
  cases a with
  | waiting =>
    obtain ⟨hwaiting, -⟩ := ha
    cases b with
    | waiting => rfl
    | pending => exact absurd hb.2.1 (by omega)
    | finished => exact absurd hb.1 (by omega)
  | pending =>
    obtain ⟨-, hwaiting, -, hpending, -⟩ := ha
    cases b with
    | waiting => exact absurd hb.1 (by omega)
    | pending => rfl
    | finished => exact absurd hb.2.2.1 (by omega)
  | finished =>
    obtain ⟨hwaiting, -, hpending, -⟩ := ha
    cases b with
    | waiting => exact absurd hb.1 (by omega)
    | pending => exact absurd hb.2.2.2.1 (by omega)
    | finished => rfl

/-! ## The books -/

/-- The two balances. -/
structure Balanced (s : State D) : Prop where
  requests : ∀ p : Kind, p.NoBarrier →
    number p s.waiting + number p s.finals + number p s.forwards + number p s.losses =
      number p s.accepted
  reads : ∀ p : Kind, number p s.pending + number p s.deliveries =
    number p.reads s.finals + number p.reads s.forwards

theorem number_waiting_setBuffer (p : Kind) (s : State D) (id : BufferId) (b : ReqBuffer) :
    number p (s.setBuffer id b).waiting + number p (s.buffer id) =
      number p s.waiting + number p b.buffer := by
  cases id with
  | active => simp [State.waiting, State.buffer, State.setBuffer]; omega
  | priority => simp [State.waiting, State.buffer, State.setBuffer]; omega
  | read => simp [State.waiting, State.buffer, State.setBuffer]; omega
  | write => simp [State.waiting, State.buffer, State.setBuffer]; omega
  | pim => simp [State.waiting, State.buffer, State.setBuffer]; omega

/-- A request leaves its buffer. -/
theorem number_waiting_remove (p : Kind) (hreq : (s.buffer c.id)[c.pos]? = some c.req) :
    number p (s.setBuffer c.id ((s.buffers c.id).remove c.pos)).waiting + number p [c.req] =
      number p s.waiting := by
  have hset := number_waiting_setBuffer p s c.id ((s.buffers c.id).remove c.pos)
  have herase := number_eraseIdx p (s.buffer c.id) c.req hreq
  have hbuffer : ((s.buffers c.id).remove c.pos).buffer = (s.buffer c.id).eraseIdx c.pos := rfl
  rw [hbuffer] at hset
  omega

theorem Pruned.number_waiting {p : Kind} (hp : p.NoBarrier) (h : Pruned s s') :
    number p s'.waiting = number p s.waiting := by
  simp only [State.waiting, number_append, (h.buffer _).number hp]

namespace Balanced

theorem initial (maxSize : BufferId → ℕ) (dram : D.State) :
    Balanced (State.initial maxSize dram) := by
  refine ⟨?_, ?_⟩
  · intro p _
    rfl
  · intro p
    rfl

/-- Balances depend on the buffers, the pending queue, the accepted requests and the log. -/
theorem congr (h : Balanced s) (hbuffers : s'.buffers = s.buffers)
    (hpending : s'.pending = s.pending) (haccepted : s'.accepted = s.accepted)
    (hlog : s'.log = s.log) : Balanced s' := by
  refine ⟨?_, ?_⟩
  · intro p hp
    simp only [State.waiting, State.buffer, State.finals, State.forwards, State.losses, hbuffers,
      haccepted, hlog]
    exact h.requests p hp
  · intro p
    simp only [State.deliveries, State.finals, State.forwards, hpending, hlog]
    exact h.reads p

theorem prune (h : Balanced s) (hp : Pruned s s') : Balanced s' := by
  refine ⟨?_, ?_⟩
  · intro p hnot
    simp only [hp.number_waiting hnot, State.finals, State.forwards, State.losses, hp.log,
      hp.accepted]
    exact h.requests p hnot
  · intro p
    simp only [State.deliveries, State.finals, State.forwards, hp.pending, hp.log]
    exact h.reads p

theorem acceptInto (h : Balanced s) (id : BufferId) (r : Request) :
    Balanced (s.accept id r).1 := by
  rw [State.accept]
  split_ifs with hfull
  · exact h
  · refine ⟨?_, h.reads⟩
    intro p hp
    have hset := number_waiting_setBuffer p s id ((s.buffers id).enqueue r)
    have hbuffer : ((s.buffers id).enqueue r).buffer = s.buffer id ++ [r] := by
      rw [ReqBuffer.enqueue, if_neg hfull]
    rw [hbuffer, number_append] at hset
    have hrequests := h.requests p hp
    show number p (s.setBuffer id ((s.buffers id).enqueue r)).waiting + number p s.finals +
      number p s.forwards + number p s.losses = number p (r :: s.accepted)
    rw [number_cons]
    omega

/-- A read is answered from the write buffer. -/
theorem forward (h : Balanced s) {r : Request} (hread : r.typeId = .Read) :
    Balanced { s.record (.forwarded r) with
      pending := s.pending ++ [r], accepted := r :: s.accepted } := by
  refine ⟨?_, ?_⟩
  · intro p hp
    have hrequests := h.requests p hp
    show number p s.waiting + number p s.finals + number p (r :: s.forwards) +
      number p s.losses = number p (r :: s.accepted)
    rw [number_cons, number_cons p s.accepted]
    omega
  · intro p
    have hreads := h.reads p
    show number p (s.pending ++ [r]) + number p s.deliveries =
      number p.reads s.finals + number p.reads (r :: s.forwards)
    rw [number_append, number_cons p.reads, number_reads_of_read p r hread]
    omega

theorem send (h : Balanced s) {p : Packet} {r : State D × Bool} (hr : s.send p = some r) :
    Balanced r.1 := by
  rw [State.send] at hr
  simp only at hr
  split_ifs at hr with hforward
  · obtain rfl := Option.some.inj hr
    exact h.forward hforward.1
  · obtain ⟨id, -, rfl⟩ := Option.map_eq_some_iff.mp hr
    exact h.acceptInto id _

theorem refreshTick (h : Balanced s) {refreshes : List AddrVec}
    (hs : State.refreshTick refreshes s = some s') : Balanced s' :=
  State.refreshTick_induction (P := Balanced) (fun _ _ h => h.acceptInto _ _) h hs

theorem beginTick (h : Balanced s) : Balanced s.beginTick := by
  have hclk : Balanced ({ s with clk := s.clk + 1, dram := D.tick s.dram } : State D) :=
    h.congr rfl rfl rfl rfl
  rw [State.beginTick, State.serveCompletedReads]
  generalize ({ s with clk := s.clk + 1, dram := D.tick s.dram } : State D) = s₁ at hclk
  cases hpending : s₁.pending with
  | nil => exact hclk
  | cons req rest =>
    simp only
    split_ifs
    · refine ⟨hclk.requests, ?_⟩
      intro p
      have hreads := hclk.reads p
      rw [hpending, number_cons] at hreads
      show number p rest + number p (req :: s₁.deliveries) = _ + _
      rw [number_cons]
      show _ = number p.reads s₁.finals + number p.reads s₁.forwards
      omega
    · exact hclk

end Balanced

/-! ## Serving a request -/

namespace State

/-- The command of a request is issued, and the request is left where it is. -/
def commanded (s : State D) (c : Cursor) : State D :=
  { s.record (.issued s.clk c.req c.command) with
    dram := D.issueCommand s.dram c.command c.req.addrVec }

theorem issue_of_final (hfinal : c.command = c.req.finalCommand) :
    s.issue c = (s.commanded c).finish c := by
  rw [issue]
  exact if_pos hfinal

theorem issue_of_moves (hfinal : c.command ≠ c.req.finalCommand) (hmoves : s.moves c = true) :
    s.issue c = (s.commanded c).moveToActive c := by
  rw [issue]
  exact (if_neg hfinal).trans (if_pos hmoves)

theorem issue_of_stays (hfinal : c.command ≠ c.req.finalCommand) (hmoves : s.moves c = false) :
    s.issue c = s.commanded c := by
  have hnot : ¬s.moves c = true := by
    rw [hmoves]
    decide
  rw [issue]
  exact (if_neg hfinal).trans (if_neg hnot)

/-- The active buffer accepts a request. -/
theorem moveToActive_of_room (hroom : (s.buffers .active).isFull = false) :
    s.moveToActive c = (s.setBuffer .active ((s.buffers .active).enqueue c.req)).setBuffer c.id
      (((s.setBuffer .active ((s.buffers .active).enqueue c.req)).buffers c.id).remove c.pos) := by
  rw [moveToActive, hroom]
  rfl

/-- The active buffer rejects a request. -/
theorem moveToActive_of_full (hfull : (s.buffers .active).isFull = true) :
    s.moveToActive c =
      (s.record (.lost c.req)).setBuffer c.id ((s.buffers c.id).remove c.pos) := by
  have hsame : (s.record (.lost c.req)).setBuffer .active
      (((s.record (.lost c.req)).buffers .active).enqueue c.req) = s.record (.lost c.req) := by
    show ({ s.record (.lost c.req) with
      buffers := Function.update s.buffers .active
        ((s.buffers .active).enqueue c.req) } : State D) = _
    rw [ReqBuffer.enqueue, if_pos hfull, Function.update_eq_self]
    rfl
  rw [moveToActive]
  simp only [hfull, if_true]
  rw [hsame]
  rfl

/-- Serving a request to its end accepts none, and records no more than its command. -/
theorem frame_finish (s : State D) (c : Cursor) :
    (s.finish c).accepted = s.accepted ∧ (s.finish c).log = s.log := by
  rw [finish]
  split_ifs
  · exact ⟨rfl, rfl⟩
  · exact ⟨rfl, rfl⟩

end State

namespace Balanced

theorem finish (h : Balanced s) (hreq : (s.buffer c.id)[c.pos]? = some c.req)
    (hfinal : c.command = c.req.finalCommand) : Balanced ((s.commanded c).finish c) := by
  obtain ⟨haccepted, hlog⟩ := (s.commanded c).frame_finish c
  have hfinals : ((s.commanded c).finish c).finals = c.req :: s.finals := by
    have hentry : Entry.final? (.issued s.clk c.req c.command) = some c.req := if_pos hfinal
    rw [State.finals, hlog]
    exact List.filterMap_cons_some hentry
  have hwaiting : ∀ p, number p ((s.commanded c).finish c).waiting + number p [c.req] =
      number p s.waiting := by
    intro p
    rw [State.finish]
    split_ifs
    · exact number_waiting_remove p hreq
    · exact number_waiting_remove p hreq
  have hforwards : ((s.commanded c).finish c).forwards = s.forwards := by
    rw [State.forwards, hlog]
    rfl
  have hlosses : ((s.commanded c).finish c).losses = s.losses := by
    rw [State.losses, hlog]
    rfl
  have hdeliveries : ((s.commanded c).finish c).deliveries = s.deliveries := by
    rw [State.deliveries, hlog]
    rfl
  -- the command stands for the request: a read is pending in its place, anything else is done
  have hpending : ∀ p : Kind, number p ((s.commanded c).finish c).pending =
      number p s.pending + number p.reads [c.req] := by
    intro p
    rw [State.finish]
    split_ifs with hread
    · show number p (s.pending ++ [{ c.req with depart := s.clk + D.readLatency }]) = _
      rw [number_append, number_reads_of_read p c.req hread]
      rfl
    · rw [number_reads_of_ne p c.req hread]
      rfl
  refine ⟨?_, ?_⟩
  · intro p hp
    have hrequests := h.requests p hp
    have hleft := hwaiting p
    rw [hfinals, number_cons, hforwards, hlosses, haccepted]
    show _ = number p s.accepted
    omega
  · intro p
    have hreads := h.reads p
    rw [hpending, hdeliveries, hfinals, number_cons p.reads s.finals, hforwards]
    omega

/-- A request that does not get its final command leaves the balances alone. -/
theorem commanded (h : Balanced s) (hfinal : c.command ≠ c.req.finalCommand) :
    Balanced (s.commanded c) := by
  have hfinals : (s.commanded c).finals = s.finals := by
    have hentry : Entry.final? (.issued s.clk c.req c.command) = none := if_neg hfinal
    exact List.filterMap_cons_none hentry
  refine ⟨?_, ?_⟩
  · intro p hp
    rw [hfinals]
    exact h.requests p hp
  · intro p
    rw [hfinals]
    exact h.reads p

/-- A request that moves is in the active buffer, or lost. -/
theorem moveToActive (h : Balanced s) (hreq : (s.buffer c.id)[c.pos]? = some c.req) :
    Balanced (s.moveToActive c) := by
  cases hfull : (s.buffers .active).isFull with
  | false =>
    have hnot : ¬(s.buffers .active).isFull = true := by
      rw [hfull]
      decide
    have hbuffer : ((s.buffers .active).enqueue c.req).buffer = s.buffer .active ++ [c.req] :=
      congrArg ReqBuffer.buffer (if_neg hnot)
    rw [State.moveToActive_of_room hfull]
    -- It is still where it was, also if that is the active buffer.
    have hreq' : ((s.setBuffer .active ((s.buffers .active).enqueue c.req)).buffer c.id)[c.pos]? =
        some c.req := by
      by_cases hid : c.id = .active
      · rw [hid] at hreq ⊢
        rw [State.buffer, State.buffers_setBuffer_self, hbuffer]
        exact List.getElem?_append_left (List.getElem?_eq_some_iff.mp hreq).1 ▸ hreq
      · rw [State.buffer, State.buffers_setBuffer_of_ne hid]
        exact hreq
    refine ⟨?_, h.reads⟩
    intro p hp
    have hrequests := h.requests p hp
    have hset := number_waiting_setBuffer p s .active ((s.buffers .active).enqueue c.req)
    have hremove := number_waiting_remove p hreq'
    rw [hbuffer, number_append] at hset
    show number p (State.waiting _) + number p s.finals + number p s.forwards +
      number p s.losses = number p s.accepted
    omega
  | true =>
    rw [State.moveToActive_of_full hfull]
    refine ⟨?_, h.reads⟩
    intro p hp
    have hrequests := h.requests p hp
    have hremove : number p ((s.record (.lost c.req)).setBuffer c.id
        ((s.buffers c.id).remove c.pos)).waiting + number p [c.req] = number p s.waiting :=
      number_waiting_remove (s := s.record (.lost c.req)) p hreq
    show number p (State.waiting _) + number p s.finals + number p s.forwards +
      number p (c.req :: s.losses) = number p s.accepted
    rw [number_cons]
    omega

theorem issue (h : Balanced s) (hreq : (s.buffer c.id)[c.pos]? = some c.req) :
    Balanced (s.issue c) := by
  by_cases hfinal : c.command = c.req.finalCommand
  · rw [State.issue_of_final hfinal]
    exact h.finish hreq hfinal
  · cases hmoves : s.moves c with
    | false =>
      rw [State.issue_of_stays hfinal hmoves]
      exact h.commanded hfinal
    | true =>
      rw [State.issue_of_moves hfinal hmoves]
      exact (h.commanded hfinal).moveToActive hreq

/-- A pass, and what it finds is served. -/
theorem pass (h : Balanced s) (fits : Command → Bool) :
    Balanced ((s.schedule w fits).1.serve (s.schedule w fits).2) := by
  obtain ⟨hpruned, hchosen⟩ := s.schedule_spec w fits
  have hafter := h.prune hpruned
  cases houtcome : (s.schedule w fits).2 with
  | found c => exact hafter.issue (hchosen c houtcome).eligible.1
  | stopped reqIt => exact hafter

theorem step (h : Balanced s) (e : Event) : Balanced (step w s e) := by
  cases e with
  | send p =>
    rw [Controller.step]
    cases hsend : s.send p with
    | none => exact h
    | some r => exact h.send hsend
  | tick refreshes stale =>
    rw [Controller.step, State.tick]
    cases hrefresh : State.refreshTick refreshes s.beginTick with
    | none => exact h
    | some s₁ => exact ((h.beginTick.refreshTick hrefresh).pass _).pass _

end Balanced

/-! ## Requests are told apart -/

/-- What is known of every state: it is in order, the books balance, requests are told apart
by their numbers, reads are forwarded, and what is lost was accepted and is no barrier. -/
structure Accounted (s : State D) : Prop where
  ordered : Ordered s
  balanced : Balanced s
  distinct : s.accepted.Pairwise fun r r' => r'.uid < r.uid
  forwarded : ∀ r ∈ s.forwards, r.typeId = .Read
  lost : ∀ r ∈ s.losses, r ∈ s.accepted ∧ r.isBarrier = false

/-- Two kinds that agree on the keys of some requests. -/
theorem number_congr {p q : Kind} {requests : List Request}
    (h : ∀ r ∈ requests, p r.key = q r.key) : number p requests = number q requests := by
  refine List.countP_congr ?_
  intro r hr
  rw [h r hr]

/-- Of a kind with one number, there is at most one accepted request. -/
theorem number_distinct {p : Kind} {r : Request} (hp : ∀ key, p key = true → key.1 = r.uid)
    {accepted : List Request} (h : accepted.Pairwise fun r r' => r'.uid < r.uid)
    (hr : r ∈ accepted) : number p accepted = number p [r] := by
  have hother : ∀ x : Request, x.uid ≠ r.uid → p x.key = false :=
    fun x hx => Bool.eq_false_iff.mpr fun htrue => hx (hp x.key htrue)
  induction accepted with
  | nil => cases hr
  | cons head tail ih =>
    obtain ⟨hhead, htail⟩ := List.pairwise_cons.mp h
    rw [number_cons]
    rcases List.mem_cons.mp hr with rfl | hmem
    · rw [number_eq_zero p tail fun x hx => hother x (hhead x hx).ne, Nat.zero_add]
    · have hzero : number p [head] = 0 := by
        refine number_eq_zero p [head] ?_
        intro x hx
        rw [List.mem_singleton.mp hx]
        exact hother head (hhead r hmem).ne'
      rw [ih htail hmem, hzero, Nat.add_zero]

/-- The requests with a number, but for barriers. -/
def ofUidNoBarrier (uid : ℕ) : Kind := fun key => decide (key.1 = uid ∧ key.2 ≠ .PIM_BARRIER)

/-- Nothing is accepted, forwarded or lost before the passes of a tick. -/
theorem State.frame_beginTick (s : State D) : s.beginTick.accepted = s.accepted ∧
    s.beginTick.forwards = s.forwards ∧ s.beginTick.losses = s.losses := by
  rw [State.beginTick, State.serveCompletedReads]
  split
  · exact ⟨rfl, rfl, rfl⟩
  · split_ifs
    · exact ⟨rfl, rfl, rfl⟩
    · exact ⟨rfl, rfl, rfl⟩

namespace Accounted

variable {r : Request}

/-- Accepted requests are told apart by their numbers. -/
theorem eq_of_uid (h : Accounted s) (hr : r ∈ s.accepted) {x : Request} (hx : x ∈ s.accepted)
    (huid : x.uid = r.uid) : x = r := by
  have hnodup : (s.accepted.map Request.uid).Nodup :=
    List.pairwise_map.mpr (h.distinct.imp fun hlt => hlt.ne')
  exact List.inj_on_of_nodup_map hnodup hx hr huid

theorem mem_of_mem_waiting (h : Accounted s) {x : Request} (hx : x ∈ s.waiting) :
    x ∈ s.accepted := by
  simp only [State.waiting, List.mem_append] at hx
  rcases hx with (((hx | hx) | hx) | hx) | hx
  all_goals exact h.ordered.mem_accepted _ x hx

theorem mem_of_mem_finals (h : Accounted s) {x : Request} (hx : x ∈ s.finals) :
    x ∈ s.accepted := by
  obtain ⟨e, he, hfinal⟩ := List.mem_filterMap.mp hx
  cases e with
  | issued clk req command =>
    rw [Entry.final?] at hfinal
    split_ifs at hfinal
    obtain rfl := Option.some.inj hfinal
    exact (h.ordered.logged clk req command he).1
  | forwarded req => cases hfinal
  | delivered req => cases hfinal
  | lost req => cases hfinal

/-- **One accepted request**: it waits, or it is finished or forwarded, or lost; and it is
pending or delivered if it is a read that is finished or forwarded. -/
theorem of_mem (h : Accounted s) (hr : r ∈ s.accepted) (hbarrier : r.isBarrier = false) :
    number (ofUid r.uid) s.waiting + number (ofUid r.uid) s.finals +
        number (ofUid r.uid) s.forwards + number (ofUid r.uid) s.losses = 1 ∧
      number (ofUid r.uid) s.pending + number (ofUid r.uid) s.deliveries =
        if r.typeId = .Read then
          number (ofUid r.uid) s.finals + number (ofUid r.uid) s.forwards
        else 0 := by
  have hkind : r.typeId ≠ .PIM_BARRIER := of_decide_eq_false hbarrier
  -- None of the barriers has the number of `r`, nor any forwarded or lost request.
  have hcount : ∀ requests : List Request,
      (∀ x ∈ requests, x.uid = r.uid → x.typeId ≠ .PIM_BARRIER) →
      number (ofUidNoBarrier r.uid) requests = number (ofUid r.uid) requests := by
    intro requests hrequests
    refine number_congr ?_
    intro x hx
    rw [ofUidNoBarrier, ofUid, Request.key]
    exact decide_eq_decide.mpr ⟨And.left, fun huid => ⟨huid, hrequests x hx huid⟩⟩
  have hsame : ∀ {x : Request}, x ∈ s.accepted → x.uid = r.uid → x.typeId = r.typeId :=
    fun hx huid => congrArg Request.typeId (h.eq_of_uid hr hx huid)
  have hwaiting := hcount s.waiting fun x hx huid => by
    rw [hsame (h.mem_of_mem_waiting hx) huid]
    exact hkind
  have hfinals := hcount s.finals fun x hx huid => by
    rw [hsame (h.mem_of_mem_finals hx) huid]
    exact hkind
  have hforwards := hcount s.forwards fun x hx _ => by
    rw [h.forwarded x hx]
    decide
  have hlosses := hcount s.losses fun x hx _ => of_decide_eq_false (h.lost x hx).2
  have haccepted : number (ofUidNoBarrier r.uid) s.accepted = 1 := by
    rw [number_distinct (r := r) (fun key hkey => (of_decide_eq_true hkey).1) h.distinct hr]
    simp [number, ofUidNoBarrier, Request.key, hkind]
  have hrequests := h.balanced.requests (ofUidNoBarrier r.uid) fun uid => by simp [ofUidNoBarrier]
  rw [hwaiting, hfinals, hforwards, hlosses, haccepted] at hrequests
  refine ⟨hrequests, ?_⟩
  rw [h.balanced.reads]
  split_ifs with hread
  · have hall : ∀ {requests : List Request},
        (∀ x ∈ requests, x.uid = r.uid → x.typeId = .Read) →
        number (ofUid r.uid).reads requests = number (ofUid r.uid) requests := by
      intro requests hreads
      refine number_congr ?_
      intro x hx
      by_cases huid : x.uid = r.uid
      · simp [Kind.reads, ofUid, Request.key, huid, hreads x hx huid]
      · simp [Kind.reads, ofUid, Request.key, huid]
    have hfinal : ∀ x ∈ s.finals, x.uid = r.uid → x.typeId = .Read := by
      intro x hx huid
      rw [hsame (h.mem_of_mem_finals hx) huid, hread]
    rw [hall hfinal, hall fun x hx _ => h.forwarded x hx]
  · -- No read has the number of a request that is none.
    have hnone : number (ofUid r.uid).reads s.accepted = 0 := by
      refine number_eq_zero _ _ ?_
      intro x hx
      by_cases huid : x.uid = r.uid
      · simp [Kind.reads, Request.key, hsame hx huid, hread]
      · simp [Kind.reads, ofUid, Request.key, huid]
    have hreads := h.balanced.requests (ofUid r.uid).reads fun uid => by simp [Kind.reads]
    omega

/-- A request that is lost is in no situation, and otherwise it is in exactly one. -/
theorem existsUnique_iff (h : Accounted s) (hr : r ∈ s.accepted) (hbarrier : r.isBarrier = false) :
    (∃! situation, s.In r situation) ↔ number (ofUid r.uid) s.losses = 0 := by
  obtain ⟨hrequests, hreads⟩ := h.of_mem hr hbarrier
  refine ⟨?_, ?_⟩
  · rintro ⟨situation, hin, -⟩
    cases situation with
    | waiting => exact (by obtain ⟨hwaiting, -⟩ := hin; omega)
    | pending => exact (by obtain ⟨-, hwaiting, hfinal, -⟩ := hin; omega)
    | finished => exact (by obtain ⟨hwaiting, hfinal, -⟩ := hin; omega)
  · intro hlosses
    have hexists : ∃ situation, s.In r situation := by
      by_cases hwaiting : number (ofUid r.uid) s.waiting = 1
      · have hreads' : number (ofUid r.uid) s.pending + number (ofUid r.uid) s.deliveries = 0 := by
          rw [hreads]
          split_ifs
          · omega
          · rfl
        exact ⟨.waiting, hwaiting, by omega, by omega, by omega, by omega⟩
      · by_cases hread : r.typeId = .Read
        · rw [if_pos hread] at hreads
          by_cases hpending : number (ofUid r.uid) s.pending = 1
          · exact ⟨.pending, hread, by omega, by omega, hpending, by omega⟩
          · refine ⟨.finished, by omega, by omega, by omega, ?_⟩
            rw [if_pos hread]
            omega
        · rw [if_neg hread] at hreads
          refine ⟨.finished, by omega, by omega, by omega, ?_⟩
          rw [if_neg hread]
          omega
    obtain ⟨situation, hin⟩ := hexists
    exact ⟨situation, hin, fun _ hother => hother.unique hin⟩

/-- **What is not conserved is lost.** -/
theorem conserved_iff_losses (h : Accounted s) : Conserved s ↔ s.losses = [] := by
  refine ⟨?_, ?_⟩
  · intro hconserved
    refine List.eq_nil_iff_forall_not_mem.mpr ?_
    intro r hlost
    obtain ⟨hr, hbarrier⟩ := h.lost r hlost
    have hzero := (h.existsUnique_iff hr hbarrier).mp (hconserved r hr hbarrier)
    have hnot := List.countP_eq_zero.mp hzero r hlost
    exact hnot (decide_eq_true rfl)
  · intro hlosses r hr hbarrier
    refine (h.existsUnique_iff hr hbarrier).mpr ?_
    rw [hlosses]
    rfl

/-! ### Every step is accounted for -/

theorem initial (maxSize : BufferId → ℕ) (dram : D.State) :
    Accounted (State.initial maxSize dram) := by
  refine ⟨.initial maxSize dram, .initial maxSize dram, List.Pairwise.nil, ?_, ?_⟩
  · intro r hr
    cases hr
  · intro r hr
    cases hr

/-- Nothing is accepted, forwarded or lost. -/
theorem congr (h : Accounted s) (hordered : Ordered s') (hbalanced : Balanced s')
    (haccepted : s'.accepted = s.accepted) (hforwards : s'.forwards = s.forwards)
    (hlosses : s'.losses = s.losses) : Accounted s' := by
  refine ⟨hordered, hbalanced, ?_, ?_, ?_⟩
  · rw [haccepted]
    exact h.distinct
  · rw [hforwards]
    exact h.forwarded
  · rw [hlosses, haccepted]
    exact h.lost

/-- A request is accepted. -/
theorem accept (h : Accounted s) (hordered : Ordered s') (hbalanced : Balanced s')
    (hr : r.uid = s.accepted.length) (haccepted : s'.accepted = r :: s.accepted)
    (hforwards : s'.forwards = s.forwards ∨ s'.forwards = r :: s.forwards ∧ r.typeId = .Read)
    (hlosses : s'.losses = s.losses) : Accounted s' := by
  refine ⟨hordered, hbalanced, ?_, ?_, ?_⟩
  · rw [haccepted]
    refine List.pairwise_cons.mpr ⟨?_, h.distinct⟩
    intro x hx
    rw [hr]
    exact h.ordered.uid_lt x hx
  · intro x hx
    rcases hforwards with heq | ⟨heq, hread⟩
    · rw [heq] at hx
      exact h.forwarded x hx
    · rw [heq] at hx
      rcases List.mem_cons.mp hx with rfl | hx
      · exact hread
      · exact h.forwarded x hx
  · rw [hlosses, haccepted]
    intro x hx
    obtain ⟨hmem, hbarrier⟩ := h.lost x hx
    exact ⟨List.mem_cons_of_mem _ hmem, hbarrier⟩

theorem acceptInto (h : Accounted s) {id : BufferId} (hr : r.uid = s.accepted.length)
    (hkind : r.IsPim ↔ id = .pim) : Accounted (s.accept id r).1 := by
  have hordered := h.ordered.acceptInto hr hkind
  have hbalanced := h.balanced.acceptInto id r
  rw [State.accept] at hordered hbalanced ⊢
  split_ifs at hordered hbalanced ⊢ with hfull
  · exact h
  · exact h.accept hordered hbalanced hr rfl (.inl rfl) rfl

theorem send (h : Accounted s) {p : Packet} {q : State D × Bool} (hq : s.send p = some q) :
    Accounted q.1 := by
  have hordered := h.ordered.send hq
  have hbalanced := h.balanced.send hq
  rw [State.send] at hq
  simp only at hq
  split_ifs at hq with hforward
  · obtain rfl := Option.some.inj hq
    exact h.accept hordered hbalanced rfl rfl (.inr ⟨rfl, hforward.1⟩) rfl
  · obtain ⟨id, hid, rfl⟩ := Option.map_eq_some_iff.mp hq
    refine h.acceptInto rfl ?_
    show p.typeId.sendBuffer = some .pim ↔ id = .pim
    rw [hid, Option.some.injEq]

theorem refreshTick (h : Accounted s) {refreshes : List AddrVec}
    (hs : State.refreshTick refreshes s = some s') : Accounted s' :=
  State.refreshTick_induction (P := Accounted)
    (fun _ _ h => h.acceptInto rfl (iff_of_false nofun (by decide))) h hs

theorem beginTick (h : Accounted s) : Accounted s.beginTick := by
  obtain ⟨haccepted, hforwards, hlosses⟩ := s.frame_beginTick
  exact h.congr h.ordered.beginTick h.balanced.beginTick haccepted hforwards hlosses

end Accounted

/-! ## Overflows -/

/-- The active buffer does not accept a request that is to move to it. -/
def State.Overflows (s : State D) (c : Cursor) : Prop :=
  c.command.isOpening = true ∧ s.isPim = false ∧ (s.buffers .active).isFull = true

/-- An opening command is not the last one of a request. -/
theorem ne_finalCommand_of_isOpening (h : c.command.isOpening = true) :
    c.command ≠ c.req.finalCommand := by
  intro hfinal
  have hnot := RequestType.opensOrCloses_translation c.req.typeId
  rw [show c.req.typeId.translation = c.command from hfinal.symm, Command.opensOrCloses, h] at hnot
  cases hnot

/-- What is lost when a request is served. -/
theorem losses_issue (s : State D) (c : Cursor) :
    (s.Overflows c ∧ (s.issue c).losses = c.req :: s.losses) ∨
      ¬s.Overflows c ∧ (s.issue c).losses = s.losses := by
  by_cases hfinal : c.command = c.req.finalCommand
  · refine .inr ⟨fun h => ne_finalCommand_of_isOpening h.1 hfinal, ?_⟩
    rw [State.issue_of_final hfinal, State.losses, (State.frame_finish _ c).2]
    rfl
  · have hmoves : s.moves c = true ↔ c.command.isOpening = true ∧ s.isPim = false := by
      rw [State.moves, decide_eq_true hfinal]
      cases s.isPim with
      | false => simp
      | true => simp
    cases hcase : s.moves c with
    | false =>
      refine .inr ⟨fun h => ?_, ?_⟩
      · rw [hmoves.mpr ⟨h.1, h.2.1⟩] at hcase
        cases hcase
      · rw [State.issue_of_stays hfinal hcase]
        rfl
    | true =>
      obtain ⟨hopening, hisPim⟩ := hmoves.mp hcase
      rw [State.issue_of_moves hfinal hcase]
      cases hfull : (s.buffers .active).isFull with
      | false =>
        refine .inr ⟨fun h => ?_, ?_⟩
        · rw [h.2.2] at hfull
          cases hfull
        · rw [State.moveToActive_of_room (s := s.commanded c) hfull]
          rfl
      | true =>
        refine .inl ⟨⟨hopening, hisPim, hfull⟩, ?_⟩
        rw [State.moveToActive_of_full (s := s.commanded c) hfull]
        rfl

theorem losses_accept (s : State D) (id : BufferId) (r : Request) :
    (s.accept id r).1.losses = s.losses := by
  rw [State.accept]
  split_ifs
  · rfl
  · rfl

theorem losses_refreshTick {refreshes : List AddrVec}
    (hs : State.refreshTick refreshes s = some s') : s'.losses = s.losses :=
  State.refreshTick_induction (P := fun s' => s'.losses = s.losses)
    (fun s₁ _ h => (losses_accept s₁ _ _).trans h) rfl hs

/-- Serving a request accepts none, and answers none from the write buffer. -/
theorem frame_issue (s : State D) (c : Cursor) :
    (s.issue c).accepted = s.accepted ∧ (s.issue c).forwards = s.forwards := by
  by_cases hfinal : c.command = c.req.finalCommand
  · obtain ⟨haccepted, hlog⟩ := (s.commanded c).frame_finish c
    rw [State.issue_of_final hfinal, State.forwards, hlog, haccepted]
    exact ⟨rfl, rfl⟩
  · cases hmoves : s.moves c with
    | false =>
      rw [State.issue_of_stays hfinal hmoves]
      exact ⟨rfl, rfl⟩
    | true =>
      rw [State.issue_of_moves hfinal hmoves, State.moveToActive]
      split_ifs
      · exact ⟨rfl, rfl⟩
      · exact ⟨rfl, rfl⟩

/-- A pass loses a request: the one that it serves does not come from the PIM buffer, its
command opens a row, and the active buffer is full. A request of the active buffer moves
unless the pass before has left the flag for PIM requests. -/
def PassOverflows (w : Watermarks) (s : State D) (fits : Command → Bool) : Prop :=
  ∃ c, Serves w s fits c ∧ c.command.isOpening = true ∧ c.id ≠ .pim ∧
    (c.id = .active → s.isPim = false) ∧ (s.buffers .active).isFull = true

/-- A step loses no request. -/
def Roomy (w : Watermarks) (s : State D) : Event → Prop
  | .send _ => True
  | .tick refreshes stale => ∀ s', State.refreshTick refreshes s.beginTick = some s' →
      ¬PassOverflows w s' anyCommand ∧
        ¬PassOverflows w (s'.firstPass w)
          (compareCommandType ((firstOutcome w s').command stale))

/-- The flag for PIM requests after a pass. -/
theorem isPim_looked (w : Watermarks) (s : State D) (id : BufferId) :
    (looked w s id).isPim = false ↔ id ≠ .pim ∧ (id = .active → s.isPim = false) := by
  have hmode : ((lookedBelow s).setWriteMode w).isPim = false := by
    obtain ⟨b, hb⟩ := (lookedBelow s).setWriteMode_eq (w := w)
    rw [hb]
    rfl
  cases id with
  | active => exact ⟨fun h => ⟨nofun, fun _ => h⟩, fun h => h.2 rfl⟩
  | priority => exact iff_of_true rfl ⟨nofun, nofun⟩
  | read => exact iff_of_true hmode ⟨nofun, nofun⟩
  | write => exact iff_of_true hmode ⟨nofun, nofun⟩
  | pim => exact iff_of_false nofun fun h => h.1 rfl

/-- There are no barriers in the active buffer. -/
theorem Ordered.dropBarrier_active (h : Ordered s) :
    dropBarrier (s.buffer .active) = s.buffer .active := by
  rcases dropBarrier_eq_or (s.buffer .active) with heq | ⟨head, hbarrier, hcons⟩
  · exact heq
  · have hmem : head ∈ s.buffer .active := by
      rw [hcons]
      exact List.mem_cons_self
    have hpim := (h.isPim_iff .active head hmem).mp (isPim_of_isBarrier hbarrier)
    cases hpim

/-- Whether a pass overflows can be told before it. -/
theorem overflows_looked_iff (h : Ordered s) (hserves : Serves w s fits c) :
    (looked w s c.id).Overflows c ↔ c.command.isOpening = true ∧ c.id ≠ .pim ∧
      (c.id = .active → s.isPim = false) ∧ (s.buffers .active).isFull = true := by
  have hactive : (looked w s c.id).buffer .active = s.buffer .active := by
    have hbuffer := buffer_active_scheduleActive s w fits
    rwa [scheduleActive_of_reaches hserves.1, h.dropBarrier_active] at hbuffer
  have hpruned : Pruned s (looked w s c.id) := by
    have hspec := (s.scheduleActive_spec w fits).1
    rwa [scheduleActive_of_reaches hserves.1] at hspec
  have hfull : ((looked w s c.id).buffers .active).isFull = (s.buffers .active).isFull := by
    rw [ReqBuffer.isFull, ReqBuffer.isFull, hpruned.maxSize]
    rw [State.buffer, State.buffer] at hactive
    rw [hactive]
  rw [State.Overflows, isPim_looked, hfull, and_assoc]

namespace Accounted

theorem prune (h : Accounted s) (hp : Pruned s s') : Accounted s' := by
  refine h.congr (h.ordered.prune hp) (h.balanced.prune hp) hp.accepted ?_ ?_
  · rw [State.forwards, State.forwards, hp.log]
  · rw [State.losses, State.losses, hp.log]

/-- A request that a pass has found is served. -/
theorem issue (h : Accounted s) (hc : Chosen s fits c) : Accounted (s.issue c) := by
  have hreq := hc.eligible.1
  obtain ⟨haccepted, hforwards⟩ := frame_issue s c
  refine ⟨h.ordered.issue hc, h.balanced.issue hreq, ?_, ?_, ?_⟩
  · rw [haccepted]
    exact h.distinct
  · rw [hforwards]
    exact h.forwarded
  · rw [haccepted]
    intro r hr
    rcases losses_issue s c with ⟨hoverflows, hlosses⟩ | ⟨-, hlosses⟩
    · rw [hlosses] at hr
      rcases List.mem_cons.mp hr with rfl | hr
      · -- what is lost has been taken from a buffer, and not from that of the barriers
        have hmem := List.mem_of_getElem? hreq
        refine ⟨h.ordered.mem_accepted c.id c.req hmem, ?_⟩
        by_contra hbarrier
        have hpim := (h.ordered.isPim_iff c.id c.req hmem).mp
          (isPim_of_isBarrier (Bool.eq_true_of_not_eq_false hbarrier))
        have hflag := hc.isPim hpim
        rw [hoverflows.2.1] at hflag
        cases hflag
      · exact h.lost r hr
    · rw [hlosses] at hr
      exact h.lost r hr

/-- **A pass** keeps the accounts, and loses a request exactly if it overflows. -/
theorem pass (h : Accounted s) (fits : Command → Bool) :
    Accounted ((s.schedule w fits).1.serve (s.schedule w fits).2) ∧
      (((s.schedule w fits).1.serve (s.schedule w fits).2).losses = [] ↔
        s.losses = [] ∧ ¬PassOverflows w s fits) := by
  obtain ⟨hpruned, hchosen⟩ := s.schedule_spec w fits
  have hafter := h.prune hpruned
  have hlosses : (s.schedule w fits).1.losses = s.losses := by
    rw [State.losses, State.losses, hpruned.log]
  cases houtcome : (s.schedule w fits).2 with
  | found c =>
    have hserves : Serves w s fits c := schedule_found_iff.mp houtcome
    have hstate : (s.schedule w fits).1 = looked w s c.id := by
      rw [State.schedule, scheduleActive_of_reaches hserves.1]
    refine ⟨hafter.issue (hchosen c houtcome), ?_⟩
    have hoverflows : (s.schedule w fits).1.Overflows c ↔ PassOverflows w s fits := by
      rw [hstate, overflows_looked_iff h.ordered hserves]
      refine ⟨fun hc => ⟨c, hserves, hc⟩, ?_⟩
      rintro ⟨c', hserves', hc'⟩
      have hsame := (schedule_found_iff.mpr hserves').symm.trans houtcome
      obtain rfl := Outcome.found.inj hsame
      exact hc'
    show ((s.schedule w fits).1.issue c).losses = [] ↔ _
    rcases losses_issue (s.schedule w fits).1 c with ⟨hlost, heq⟩ | ⟨hkept, heq⟩
    · rw [heq]
      exact iff_of_false (by simp) fun hno => hno.2 (hoverflows.mp hlost)
    · rw [heq, hlosses]
      exact ⟨fun hnone => ⟨hnone, fun hover => hkept (hoverflows.mpr hover)⟩, And.left⟩
  | stopped reqIt =>
    refine ⟨hafter, ?_⟩
    show (s.schedule w fits).1.losses = [] ↔ _
    rw [hlosses]
    refine ⟨fun hnone => ⟨hnone, ?_⟩, And.left⟩
    rintro ⟨c, hserves, -⟩
    have hfound := schedule_found_iff.mpr hserves
    rw [houtcome] at hfound
    cases hfound

/-- **A step** keeps the accounts, and loses a request exactly if one of its passes does. -/
theorem step (h : Accounted s) (e : Event) : Accounted (step w s e) ∧
    ((Controller.step w s e).losses = [] ↔ s.losses = [] ∧ Roomy w s e) := by
  cases e with
  | send p =>
    rw [Controller.step, Roomy, and_true]
    cases hsend : s.send p with
    | none => exact ⟨h, Iff.rfl⟩
    | some q =>
      refine ⟨h.send hsend, ?_⟩
      have hlosses : q.1.losses = s.losses := by
        rw [State.send] at hsend
        simp only at hsend
        split_ifs at hsend
        · obtain rfl := Option.some.inj hsend
          rfl
        · obtain ⟨id, -, rfl⟩ := Option.map_eq_some_iff.mp hsend
          exact losses_accept s id _
      show q.1.losses = [] ↔ _
      rw [hlosses]
  | tick refreshes stale =>
    rw [Controller.step, State.tick, Roomy]
    cases hrefresh : State.refreshTick refreshes s.beginTick with
    | none => exact ⟨h, by simp⟩
    | some s₁ =>
      have h₁ : Accounted s₁ := h.beginTick.refreshTick hrefresh
      have hlosses : s₁.losses = s.losses :=
        (losses_refreshTick hrefresh).trans s.frame_beginTick.2.2
      obtain ⟨hfirst, hfirstLosses⟩ := h₁.pass (w := w) fun _ => true
      obtain ⟨hsecond, hsecondLosses⟩ := hfirst.pass (w := w)
        (compareCommandType ((firstOutcome w s₁).command stale))
      refine ⟨hsecond, hsecondLosses.trans ?_⟩
      rw [hfirstLosses, hlosses, and_assoc]
      refine and_congr_right fun _ => ?_
      simp only [Option.some.injEq, forall_eq']
      rfl

end Accounted

/-- **When no accepted request disappears**: throughout a run, every accepted request that is
no barrier is in exactly one situation if and only if no step of the run overflows the active
buffer. -/
theorem conserved_iff {D : Device} (w : Watermarks) (maxSize : BufferId → ℕ) (dram : D.State)
    (events : List Event) :
    Throughout (step w) Conserved (State.initial maxSize dram) events ↔
      Along (step w) (Roomy w) (State.initial maxSize dram) events := by
  refine throughout_iff_along_of_invariant (J := Accounted)
    (fun s e h => (h.step e).1) ?_ (.initial maxSize dram) ?_
  · intro s e h hconserved
    obtain ⟨hnext, hlosses⟩ := h.step (w := w) e
    rw [hnext.conserved_iff_losses, hlosses, ← h.conserved_iff_losses]
    exact ⟨And.right, fun hroomy => ⟨hconserved, hroomy⟩⟩
  · exact (Accounted.initial maxSize dram).conserved_iff_losses.mpr rfl

/-- A device on which a row can be opened at any time, and nothing is read. -/
def openOnlyDevice : Device where
  State := List AddrVec
  tick := id
  getPreqCommand rows cmd addrVec := if addrVec ∈ rows then cmd else .ACT
  checkReady _ cmd _ := decide (cmd = .ACT)
  checkRowbufferHit _ _ _ := false
  issueCommand rows cmd addrVec := if cmd = .ACT then addrVec :: rows else rows
  readLatency := 1

/-- Reads of different rows, of which each is activated before the next is sent. -/
def readsOfRows (n : ℕ) : List Event :=
  (List.range n).flatMap fun row => [.send ⟨row, [row], .Read⟩, .tick [] none]

/-- The active buffer takes 33 requests, and the next one is lost. -/
theorem not_conserved_reads : ¬Throughout (step defaultWatermarks) Conserved
    (State.initial (D := openOnlyDevice) (fun _ => 32) []) (readsOfRows 34) := by
  intro h
  have haccounted : Accounted ((readsOfRows 34).foldl (step defaultWatermarks)
      (State.initial (D := openOnlyDevice) (fun _ => 32) [])) :=
    foldl_of_step (fun _ e hs => (hs.step e).1) (.initial _ _)
  have hnone := haccounted.conserved_iff_losses.mp h.last
  revert hnone
  decide +kernel

end AttAcc.Controller
