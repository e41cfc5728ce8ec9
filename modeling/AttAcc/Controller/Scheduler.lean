import AttAcc.Dram.Banks

/-!
# The PIM scheduler

Requests and request buffers, and how the scheduler `PIM` (`pim_scheduler.cpp`) picks the
best request of a buffer. The DRAM device is a parameter: what it answers and which commands
are ready may depend on its state in any way.

A request's `command` is written by each scheduling pass before it is read, from the state of
the device that the pass sees. It is not stored here, but part of what a pass returns.
-/

namespace AttAcc.Controller

open Dram (Command)

/-! ## Commands and requests -/

end AttAcc.Controller

namespace AttAcc.Dram.Command

/-- `m_command_meta`, `is_opening`. -/
def isOpening : Command → Bool
  | ACT | ACTAB | ACTSB | ACTPB => true
  | _ => false

/-- `m_command_meta`, `is_closing`. -/
def isClosing : Command → Bool
  | PRE | PREA | PRESB | PREPB => true
  | _ => false

/-- A command that opens or closes rows. -/
def opensOrCloses (c : Command) : Bool := c.isOpening || c.isClosing

end AttAcc.Dram.Command

namespace AttAcc.Controller

open Dram (Command)

/-- `Request::Type` and the refresh requests of `m_requests`. -/
inductive RequestType where
  | Read
  | Write
  | AllBankRefresh
  | PerBankRefresh
  | PIM_MAC_AB
  | PIM_MAC_SB
  | PIM_MAC_PB
  | PIM_WR_GB
  | PIM_MV_SB
  | PIM_MV_GB
  | PIM_SFM
  | PIM_SET_MODEL
  | PIM_SET_HEAD
  | PIM_BARRIER
  deriving DecidableEq, Repr

/-- `m_request_translations`. -/
def RequestType.translation : RequestType → Command
  | Read => .RD
  | Write => .WR
  | AllBankRefresh => .REFab
  | PerBankRefresh => .REFsb
  | PIM_MAC_AB => .MACAB
  | PIM_MAC_SB => .MACSB
  | PIM_MAC_PB => .MACPB
  | PIM_WR_GB => .WRGB
  | PIM_MV_SB => .MVSB
  | PIM_MV_GB => .MVGB
  | PIM_SFM => .SFM
  | PIM_SET_MODEL => .SETM
  | PIM_SET_HEAD => .SETH
  | PIM_BARRIER => .BARRIER

/-- No request's own command opens or closes rows. -/
theorem RequestType.opensOrCloses_translation (t : RequestType) :
    t.translation.opensOrCloses = false := by cases t <;> rfl

abbrev Addr := ℤ
abbrev AddrVec := List Addr

instance : LawfulBEq AddrVec := inferInstance

/-- What a sender hands over. -/
structure Packet where
  addr : Addr
  addrVec : AddrVec
  typeId : RequestType
  deriving DecidableEq, Repr

/-- A request in the controller. The `uid` is not in the source: it numbers the accepted
requests. -/
structure Request where
  uid : ℕ
  addr : Addr
  addrVec : AddrVec
  typeId : RequestType
  arrive : ℤ
  depart : ℤ
  deriving DecidableEq, Repr

namespace Request

/-- A request that has just been constructed. -/
def new (uid : ℕ) (p : Packet) : Request := ⟨uid, p.addr, p.addrVec, p.typeId, -1, -1⟩

variable (r : Request)

/-- `final_command`, which `send` sets. -/
def finalCommand : Command := r.typeId.translation

/-- `PIM_BARRIER`. -/
def isBarrier : Bool := decide (r.typeId = .PIM_BARRIER)

end Request

/-- `m_levels("row")`. -/
def rowLevel : ℕ := 5

/-- `get_bank_addr_vec`: the address down to the bank. -/
def bankAddrVec (r : Request) : AddrVec := r.addrVec.take rowLevel

/-! ## The device -/

/-- What the controller uses of the DRAM device. -/
structure Device where
  State : Type
  /-- `tick`: a cycle passes. -/
  tick : State → State
  getPreqCommand : State → Command → AddrVec → Command
  checkReady : State → Command → AddrVec → Bool
  checkRowbufferHit : State → Command → AddrVec → Bool
  issueCommand : State → Command → AddrVec → State
  readLatency : ℤ

/-! ## The scheduler -/

section

variable {D : Device} (dram : D.State)

/-- The `command` of a request, as a pass sets it. -/
def command (r : Request) : Command := D.getPreqCommand dram r.finalCommand r.addrVec

/-- `check_ready` of a request's command. -/
def ready (r : Request) : Bool := D.checkReady dram (command dram r) r.addrVec

/-- `check_rowbuffer_hit` of a request's command. -/
def rowHit (r : Request) : Bool := D.checkRowbufferHit dram (command dram r) r.addrVec

/-- `rowhit_list`. -/
def rowhitList (buffer : List Request) : List AddrVec :=
  (buffer.filter (rowHit dram)).map bankAddrVec

/-- An iterator of a buffer: a position, and the request there. -/
abbrev Iter := ℕ × Request

/-- `compare`. -/
def compare (rowhits : List AddrVec) (req1 req2 : Iter) : Iter :=
  if ready dram req1.2 ≠ ready dram req2.2 then
    if ready dram req1.2 then req1
    else if rowHit dram req2.2 = false ∧ bankAddrVec req2.2 ∈ rowhits then req1
    else req2
  else if req1.2.arrive ≤ req2.2.arrive then req1 else req2

/-- The loop of `get_best_request`. Behind a barrier only commands that open or close rows
are candidates. -/
def scan (rowhits : List AddrVec) (candidate : Iter) (barrier : Bool) (pos : ℕ) :
    List Request → Iter
  | [] => candidate
  | next :: rest =>
    let barrier := barrier || next.isBarrier
    let candidate :=
      if barrier = false ∨ (command dram next).opensOrCloses then
        compare dram rowhits candidate (pos, next)
      else candidate
    scan rowhits candidate barrier (pos + 1) rest

/-- The barrier at the head of a buffer is removed. -/
def dropBarrier : List Request → List Request
  | [] => []
  | head :: rest => if head.isBarrier then rest else head :: rest

/-- `get_best_request`: the buffer it leaves, and an iterator of it, or `end()`. -/
def getBestRequest (buffer : List Request) : List Request × Option Iter :=
  match dropBarrier buffer with
  | [] => ([], none)
  | head :: rest => (head :: rest, some (scan dram (rowhitList dram buffer) (0, head) false 1 rest))

/-! ## What the scheduler picks -/

variable {dram}

theorem compare_eq_or (rowhits : List AddrVec) (req1 req2 : Iter) :
    compare dram rowhits req1 req2 = req1 ∨ compare dram rowhits req1 req2 = req2 := by
  rw [compare]
  split_ifs
  · exact .inl rfl
  · exact .inl rfl
  · exact .inr rfl
  · exact .inl rfl
  · exact .inr rfl

/-- A position of a buffer that is not behind a barrier other than the head, or whose command
opens or closes rows. -/
def Eligible (dram : D.State) (buffer : List Request) (it : Iter) : Prop :=
  buffer[it.1]? = some it.2 ∧
    ((∀ j r, 0 < j → j ≤ it.1 → buffer[j]? = some r → r.isBarrier = false) ∨
      (command dram it.2).opensOrCloses = true)

/-- The loop keeps its candidate eligible. The flag says whether there was a barrier among
the requests seen, but for the head. -/
theorem scan_eligible (front : List Request) {buffer rest : List Request}
    {rowhits : List AddrVec} {candidate : Iter} {barrier : Bool}
    (hbuffer : buffer = front ++ rest) (hfront : front ≠ [])
    (hbarrier : barrier = false →
      ∀ j r, 0 < j → j < front.length → buffer[j]? = some r → r.isBarrier = false)
    (hcandidate : Eligible dram buffer candidate) :
    Eligible dram buffer (scan dram rowhits candidate barrier front.length rest) := by
  induction rest generalizing front candidate barrier with
  | nil => exact hcandidate
  | cons next rest ih =>
    have hnext : buffer[front.length]? = some next := by simp [hbuffer]
    -- whichever candidate the comparison leaves, the rest is searched with one more in front
    have hstep : ∀ {barrier' : Bool} {candidate' : Iter},
        (barrier' = false → ∀ j r, 0 < j → j < (front ++ [next]).length →
          buffer[j]? = some r → r.isBarrier = false) → Eligible dram buffer candidate' →
        Eligible dram buffer
          (scan dram rowhits candidate' barrier' (front.length + 1) rest) := by
      intro barrier' candidate' hbarrier' hcandidate'
      have hlength : front.length + 1 = (front ++ [next]).length := by simp
      rw [hlength]
      exact ih (front ++ [next]) (by simp [hbuffer]) (by simp) hbarrier' hcandidate'
    rw [scan]
    refine hstep ?_ ?_
    · intro hfalse j r hj hlt hr
      obtain ⟨hbefore, hnextBarrier⟩ := Bool.or_eq_false_iff.mp hfalse
      rw [List.length_append, List.length_singleton] at hlt
      rcases Nat.lt_succ_iff_lt_or_eq.mp hlt with hlt | rfl
      · exact hbarrier hbefore j r hj hlt hr
      · obtain rfl := Option.some.inj (hnext.symm.trans hr)
        exact hnextBarrier
    · split_ifs with hcond
      · rcases compare_eq_or rowhits candidate (front.length, next) with hsame | hnew
        · rw [hsame]
          exact hcandidate
        · rw [hnew]
          refine ⟨hnext, ?_⟩
          rcases hcond with hfalse | hrow
          · left
            intro j r hj hle hr
            obtain ⟨hbefore, hnextBarrier⟩ := Bool.or_eq_false_iff.mp hfalse
            rcases Nat.lt_or_eq_of_le hle with hlt | rfl
            · exact hbarrier hbefore j r hj hlt hr
            · obtain rfl := Option.some.inj (hnext.symm.trans hr)
              exact hnextBarrier
          · exact .inr hrow
      · exact hcandidate

theorem dropBarrier_eq_or (buffer : List Request) :
    dropBarrier buffer = buffer ∨
      ∃ head, head.isBarrier = true ∧ buffer = head :: dropBarrier buffer := by
  cases buffer with
  | nil => exact .inl rfl
  | cons head rest =>
    rw [dropBarrier]
    split_ifs with hbarrier
    · exact .inr ⟨head, hbarrier, rfl⟩
    · exact .inl rfl

theorem getBestRequest_fst (buffer : List Request) :
    (getBestRequest dram buffer).1 = dropBarrier buffer := by
  rw [getBestRequest]
  cases dropBarrier buffer with
  | nil => rfl
  | cons head rest => rfl

/-- **What the scheduler picks**: from the buffer without the barrier at its head, a request
that is not behind another barrier, unless its command opens or closes rows. -/
theorem getBestRequest_eligible {buffer : List Request} {it : Iter}
    (h : (getBestRequest dram buffer).2 = some it) :
    Eligible dram (dropBarrier buffer) it := by
  rw [getBestRequest] at h
  cases hdrop : dropBarrier buffer with
  | nil =>
    rw [hdrop] at h
    cases h
  | cons head rest =>
    rw [hdrop] at h
    obtain rfl := Option.some.inj h
    have hhead : Eligible dram (head :: rest) (0, head) := by
      refine ⟨rfl, .inl ?_⟩
      intro j r hj hle _
      omega
    refine scan_eligible [head] rfl (List.cons_ne_nil _ _) ?_ hhead
    intro _ j r hj hlt _
    rw [List.length_singleton] at hlt
    omega

end

end AttAcc.Controller
