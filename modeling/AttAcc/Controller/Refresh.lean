import AttAcc.Controller.Conservation

/-!
# Refresh managers

`all_bank_refresh_hbm3.cpp` submits a round of refreshes, one for each pseudo channel, every
`nREFI` cycles, and `no_refresh.cpp` only counts cycles. The rounds are counted by a division
(`InPhase`). What a controller accepts in a tick is what its refresh manager submits, and
nothing it accepts is ever taken back.
-/

namespace AttAcc.Controller

open Dram (Command)

/-! ## The managers -/

/-- `AllBankHBM3` and `No`. -/
inductive RefreshScheme where
  | allBankHBM3
  | no
  deriving DecidableEq, Repr

/-- How many rounds of refreshes are due in a number of cycles. -/
def RefreshScheme.rounds (clk nrefi : ℤ) : RefreshScheme → ℕ
  | allBankHBM3 => (clk / nrefi).toNat
  | no => 0

/-- `AllBankRefreshHBM3` and `NoRefresh`, which have the same members. -/
structure RefreshManager where
  scheme : RefreshScheme
  dramOrgLevels : ℕ
  numRanks : ℕ
  nrefi : ℤ
  /-- `m_ctrl->m_channel_id`. -/
  channelId : Addr
  clk : ℤ
  nextRefreshCycle : ℤ
  deriving DecidableEq, Repr

namespace RefreshManager

/-- `setup`. The ranks of the first manager are the pseudo channels of the device. -/
def setup (scheme : RefreshScheme) (dramOrgLevels numRanks : ℕ) (nrefi : ℤ) (channelId : Addr) :
    RefreshManager where
  scheme := scheme
  dramOrgLevels := dramOrgLevels
  numRanks := numRanks
  nrefi := nrefi
  channelId := channelId
  clk := 0
  nextRefreshCycle := nrefi

variable (m : RefreshManager)

/-- The `addr_vec` of a refresh. -/
def addrVec (r : ℕ) : AddrVec := ((List.replicate m.dramOrgLevels (-1)).set 0 m.channelId).set 1 r

/-- A round of refreshes. -/
def round : List AddrVec := (List.range m.numRanks).map m.addrVec

/-- `tick`, and the refreshes that it submits. -/
def tick : RefreshManager × List AddrVec :=
  let m := { m with clk := m.clk + 1 }
  if m.scheme = .allBankHBM3 ∧ m.clk = m.nextRefreshCycle then
    ({ m with nextRefreshCycle := m.nextRefreshCycle + m.nrefi }, m.round)
  else (m, [])

/-- How many rounds have been submitted. -/
def rounds : ℕ := m.scheme.rounds m.clk m.nrefi

/-- The next round is due at the next multiple of `nREFI`. -/
structure InPhase : Prop where
  clk_nonneg : 0 ≤ m.clk
  nrefi_pos : 0 < m.nrefi
  nextRefreshCycle : m.scheme = .allBankHBM3 → m.nextRefreshCycle = m.nrefi * (m.clk / m.nrefi + 1)

variable {m}

theorem inPhase_setup {scheme : RefreshScheme} {levels ranks : ℕ} {nrefi : ℤ} {channelId : Addr}
    (h : 0 < nrefi) : InPhase (setup scheme levels ranks nrefi channelId) := by
  refine ⟨le_rfl, h, ?_⟩
  intro _
  simp [setup]

/-- What a manager is set up with stays. -/
theorem frame_tick (m : RefreshManager) : m.tick.1.scheme = m.scheme ∧ m.tick.1.round = m.round ∧
    m.tick.1.clk = m.clk + 1 ∧ m.tick.1.nrefi = m.nrefi := by
  rw [tick]
  simp only
  split_ifs
  · exact ⟨rfl, rfl, rfl, rfl⟩
  · exact ⟨rfl, rfl, rfl, rfl⟩

/-- A division counts the multiples that are passed. -/
theorem ediv_succ {clk n : ℤ} (hn : 0 < n) :
    (clk + 1) / n = if clk + 1 = n * (clk / n + 1) then clk / n + 1 else clk / n := by
  split_ifs with hdue
  · rw [hdue, Int.mul_ediv_cancel_left _ hn.ne']
  · have hlt := Int.lt_ediv_add_one_mul_self clk hn
    have hnext : clk + 1 < (clk / n + 1) * n := by
      refine lt_of_le_of_ne hlt ?_
      rw [mul_comm]
      exact hdue
    refine le_antisymm ?_ (Int.ediv_le_ediv hn (by omega))
    exact Int.lt_add_one_iff.mp (Int.ediv_lt_of_lt_mul hn hnext)

/-- **A tick submits a round exactly if the count of rounds goes up.** -/
theorem InPhase.tick (h : m.InPhase) : m.tick.1.InPhase ∧
    (m.tick.1.rounds = m.rounds + 1 ∧ m.tick.2 = m.round ∨
      m.tick.1.rounds = m.rounds ∧ m.tick.2 = []) := by
  obtain ⟨hclk, hpos, hnext⟩ := h
  have hquot : 0 ≤ m.clk / m.nrefi := Int.ediv_nonneg hclk hpos.le
  have hsucc := @ediv_succ m.clk _ hpos
  have hnonneg : 0 ≤ m.clk + 1 := by omega
  cases hscheme : m.scheme with
  | no =>
    have htick : m.tick = ({ m with clk := m.clk + 1 }, []) := if_neg (by simp [hscheme])
    rw [htick]
    refine ⟨⟨hnonneg, hpos, ?_⟩, .inr ⟨?_, rfl⟩⟩
    · intro hall
      exact absurd (hscheme.symm.trans hall) (by decide)
    · simp [rounds, hscheme, RefreshScheme.rounds]
  | allBankHBM3 =>
    have hcycle := hnext hscheme
    by_cases hdue : m.clk + 1 = m.nextRefreshCycle
    · have htick : m.tick = ({ m with
          clk := m.clk + 1, nextRefreshCycle := m.nextRefreshCycle + m.nrefi }, m.round) :=
        if_pos ⟨hscheme, hdue⟩
      rw [hcycle] at hdue
      rw [if_pos hdue] at hsucc
      rw [htick]
      refine ⟨⟨hnonneg, hpos, ?_⟩, .inl ⟨?_, rfl⟩⟩
      · intro _
        show m.nextRefreshCycle + m.nrefi = m.nrefi * ((m.clk + 1) / m.nrefi + 1)
        rw [hsucc, hcycle, mul_add m.nrefi (m.clk / m.nrefi + 1), mul_one]
      · simp only [rounds, hscheme, hsucc, RefreshScheme.rounds]
        omega
    · have htick : m.tick = ({ m with clk := m.clk + 1 }, []) := if_neg fun hc => hdue hc.2
      rw [hcycle] at hdue
      rw [if_neg hdue] at hsucc
      rw [htick]
      refine ⟨⟨hnonneg, hpos, ?_⟩, .inr ⟨?_, rfl⟩⟩
      · intro _
        show m.nextRefreshCycle = m.nrefi * ((m.clk + 1) / m.nrefi + 1)
        rw [hsucc, hcycle]
      · simp only [rounds, hscheme, hsucc, RefreshScheme.rounds]

end RefreshManager

/-! ## What a controller accepts -/

section Intake

variable {D : Device} {w : Watermarks} {s s' : State D}

/-- What a sender has handed over. -/
def Request.packet (r : Request) : Packet := ⟨r.addr, r.addrVec, r.typeId⟩

/-- What a refresh manager hands over. -/
def refreshPacket (addrVec : AddrVec) : Packet := ⟨-1, addrVec, .AllBankRefresh⟩

/-- What has been accepted, oldest first. -/
def State.packets (s : State D) : List Packet := s.accepted.reverse.map Request.packet

/-- A request of the frontend is accepted as it is, or leaves no trace. -/
theorem send_cases {p : Packet} {isSuccess : Bool} (h : s.send p = some (s', isSuccess)) :
    isSuccess = true ∧ s'.packets = s.packets ++ [p] ∨ isSuccess = false ∧ s' = s := by
  rw [State.send] at h
  simp only at h
  split_ifs at h with hforward
  · obtain ⟨rfl, rfl⟩ := Prod.mk.inj (Option.some.inj h)
    exact .inl ⟨rfl, by simp [State.packets, Request.packet, Request.new]⟩
  · obtain ⟨id, -, hid⟩ := Option.map_eq_some_iff.mp h
    rw [State.accept] at hid
    split_ifs at hid
    · obtain ⟨rfl, rfl⟩ := Prod.mk.inj hid
      exact .inr ⟨rfl, rfl⟩
    · obtain ⟨rfl, rfl⟩ := Prod.mk.inj hid
      exact .inl ⟨rfl, by simp [State.packets, Request.packet, Request.new]⟩

theorem packets_refreshTick {refreshes : List AddrVec}
    (h : State.refreshTick refreshes s = some s') :
    s'.packets = s.packets ++ refreshes.map refreshPacket := by
  induction refreshes generalizing s with
  | nil =>
    obtain rfl := Option.some.inj h
    simp
  | cons addrVec rest ih =>
    rw [State.refreshTick, State.prioritySend, State.accept] at h
    split_ifs at h
    have hrest := ih h
    rw [hrest]
    simp [State.packets, Request.packet, Request.new, refreshPacket]

/-- Serving requests accepts none. -/
theorem packets_pass (s : State D) (fits : Command → Bool) :
    ((s.schedule w fits).1.serve (s.schedule w fits).2).packets = s.packets := by
  have haccepted := (s.schedule_spec w fits).1.accepted
  rw [State.packets, State.packets, ← haccepted]
  cases (s.schedule w fits).2 with
  | found c =>
    show ((s.schedule w fits).1.issue c).accepted.reverse.map _ = _
    rw [(frame_issue _ c).1]
  | stopped reqIt => rfl

/-- **What a tick accepts** is what the refresh manager submits in it. -/
theorem packets_tick {refreshes : List AddrVec} {stale : Option Command}
    (h : s.tick w refreshes stale = some s') :
    s'.packets = s.packets ++ refreshes.map refreshPacket := by
  obtain ⟨s₁, hs₁, rfl⟩ := Option.map_eq_some_iff.mp h
  have hbegin : s.beginTick.packets = s.packets := by
    rw [State.packets, s.frame_beginTick.1, State.packets]
  rw [State.issuePasses, State.secondPass, State.scheduleSecRequest, packets_pass,
    State.firstPass, State.scheduleRequest, packets_pass, packets_refreshTick hs₁, hbegin]

/-! Only the start of a tick moves the clock. -/

theorem clk_issue (s : State D) (c : Cursor) : (s.issue c).clk = s.clk := by
  rw [State.issue]
  simp only
  split_ifs
  · rw [State.finish]
    split_ifs
    · rfl
    · rfl
  · rw [State.moveToActive]
    simp only
    split_ifs
    · rfl
    · rfl
  · rfl

theorem clk_pass (s : State D) (fits : Command → Bool) :
    ((s.schedule w fits).1.serve (s.schedule w fits).2).clk = s.clk := by
  rw [← (s.schedule_spec w fits).1.clk]
  cases (s.schedule w fits).2 with
  | found c => exact clk_issue _ c
  | stopped reqIt => rfl

theorem clk_beginTick (s : State D) : s.beginTick.clk = s.clk + 1 := by
  rw [State.beginTick, State.serveCompletedReads]
  split
  · rfl
  · split_ifs
    · rfl
    · rfl

theorem clk_accept (s : State D) (id : BufferId) (r : Request) : (s.accept id r).1.clk = s.clk := by
  rw [State.accept]
  split_ifs
  · rfl
  · rfl

theorem clk_tick {refreshes : List AddrVec} {stale : Option Command}
    (h : s.tick w refreshes stale = some s') : s'.clk = s.clk + 1 := by
  obtain ⟨s₁, hs₁, rfl⟩ := Option.map_eq_some_iff.mp h
  have hrefresh : s₁.clk = s.beginTick.clk :=
    State.refreshTick_induction (P := fun s' => s'.clk = s.beginTick.clk)
      (fun s' _ hs' => (clk_accept s' _ _).trans hs') rfl hs₁
  rw [State.issuePasses, State.secondPass, State.scheduleSecRequest, clk_pass, State.firstPass,
    State.scheduleRequest, clk_pass, hrefresh, clk_beginTick]

theorem clk_send {p : Packet} {isSuccess : Bool} (h : s.send p = some (s', isSuccess)) :
    s'.clk = s.clk := by
  rw [State.send] at h
  simp only at h
  split_ifs at h
  · obtain ⟨rfl, rfl⟩ := Prod.mk.inj (Option.some.inj h)
    rfl
  · obtain ⟨id, -, hid⟩ := Option.map_eq_some_iff.mp h
    have hstate : (State.accept s id _).1 = s' := congrArg Prod.fst hid
    rw [← hstate]
    exact clk_accept _ _ _

end Intake

end AttAcc.Controller
