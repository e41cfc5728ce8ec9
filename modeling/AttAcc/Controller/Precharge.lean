import AttAcc.Controller.DualIssue

/-!
# Precharges and active requests

A pass does not serve a request whose command would close the row of a request in the active
buffer. It compares the addresses down to the bank, while a precharge may close more banks
than the addressed one: `PREA` those of the channel, `PRESB` and `PREPB` the bank of every
pseudo channel; and a refresh leaves the levels below its pseudo channel open. So a refresh
interrupts the requests it should wait for (`passes_spare_iff`).
-/

namespace AttAcc.Controller

open Dram (Command Banks Node Organization)

/-! ## Which banks a precharge closes -/

/-- The levels of the channel and the pseudo channel. -/
def channelLevel : ℕ := 0
def pseudochannelLevel : ℕ := 1

/-- A level of an address leads to a bank: through the node on its path, or through all. -/
def Leads (addrVec bank : AddrVec) (level : ℕ) : Prop :=
  addrVec[level]? = some (-1) ∨ addrVec[level]? = bank[level]?

instance (addrVec bank : AddrVec) (level : ℕ) : Decidable (Leads addrVec bank level) :=
  inferInstanceAs (Decidable (_ ∨ _))

/-- The command, issued to an address, closes the bank at another one. -/
def Closes (command : Command) (addrVec bank : AddrVec) : Prop :=
  match command with
  | .PRE => ∀ level < rowLevel, Leads addrVec bank level
  | .PREA => Leads addrVec bank channelLevel
  | .PRESB | .PREPB => ∀ level < rowLevel, level ≠ pseudochannelLevel → Leads addrVec bank level
  | _ => False

/-- The address of a bank node of a channel. -/
def addrVecOf {o : Organization} (channel : Addr) (node : Node o) : AddrVec :=
  [channel, (node.pseudochannel : ℕ), (node.rank : ℕ), (node.bankgroup : ℕ), (node.bank : ℕ)]

theorem forall_lt_rowLevel {P : ℕ → Prop} :
    (∀ level < rowLevel, P level) ↔ P 0 ∧ P 1 ∧ P 2 ∧ P 3 ∧ P 4 := by
  rw [rowLevel]
  refine ⟨?_, ?_⟩
  · intro h
    exact ⟨h 0 (by decide), h 1 (by decide), h 2 (by decide), h 3 (by decide), h 4 (by decide)⟩
  · rintro ⟨h0, h1, h2, h3, h4⟩ level hlevel
    match level with
    | 0 => exact h0
    | 1 => exact h1
    | 2 => exact h2
    | 3 => exact h3
    | 4 => exact h4

section Nodes

variable {o : Organization} {channel : Addr} {node n : Node o} {addrVec bank below below' : AddrVec}

/-- An address without wildcards leads to the bank nodes with the same ids. -/
theorem leads_addrVecOf (haddr : addrVec = addrVecOf channel node ++ below)
    (hbank : bank = addrVecOf channel n ++ below') :
    Leads addrVec bank 0 ∧ (Leads addrVec bank 1 ↔ n.pseudochannel = node.pseudochannel) ∧
      (Leads addrVec bank 2 ↔ n.rank = node.rank) ∧
      (Leads addrVec bank 3 ↔ n.bankgroup = node.bankgroup) ∧
      (Leads addrVec bank 4 ↔ n.bank = node.bank) := by
  have hid : ∀ {k : ℕ} {i j : Fin k}, ((i : ℕ) = (j : ℕ)) ↔ j = i :=
    Fin.ext_iff.symm.trans eq_comm
  simp [Leads, addrVecOf, haddr, hbank, hid]

/-- What an action leaves open. -/
theorem state_closeAll (banks : Banks o) (range : Node o → Bool)
    (hopen : (banks n).state = .Opened) :
    (banks.closeAll range n).state = .Closed ↔ range n = true := by
  rw [Banks.closeAll]
  cases range n <;> simp [hopen]

/-- A precharge closes the open banks that its address leads to, and no other command closes
any. -/
theorem closes_iff_state (banks : Banks o) (command : Command) (row : ℕ)
    (haddr : addrVec = addrVecOf channel node ++ below)
    (hbank : bank = addrVecOf channel n ++ below') (hopen : (banks n).state = .Opened) :
    Closes command addrVec bank ↔ (banks.issueCommand command node row n).state = .Closed := by
  obtain ⟨h0, h1, h2, h3, h4⟩ := leads_addrVecOf haddr hbank
  have hsame : (banks n).state ≠ .Closed := by
    rw [hopen]
    exact nofun
  have hopened : ∀ range, (banks.openAll range row n).state ≠ .Closed := by
    intro range
    rw [Banks.openAll]
    split_ifs
    · exact nofun
    · exact hsame
  -- `PRESB` and `PREPB` share a range: the bank in every pseudo channel
  have hperBank : (∀ level < rowLevel, level ≠ pseudochannelLevel → Leads addrVec bank level) ↔
      Dram.perBank node n = true := by
    rw [forall_lt_rowLevel]
    simp [pseudochannelLevel, h0, h2, h3, h4, Dram.perBank]
  cases command with
  | PRE =>
    have hone : (∀ level < rowLevel, Leads addrVec bank level) ↔ Dram.oneBank node n = true := by
      rw [forall_lt_rowLevel]
      simp [h0, h1, h2, h3, h4, Dram.oneBank, Node.ext_iff]
    exact hone.trans (state_closeAll banks _ hopen).symm
  | PREA => exact iff_of_true h0 ((state_closeAll banks _ hopen).mpr rfl)
  | PRESB => exact hperBank.trans (state_closeAll banks _ hopen).symm
  | PREPB => exact hperBank.trans (state_closeAll banks _ hopen).symm
  | ACT => exact iff_of_false id (hopened _)
  | ACTAB => exact iff_of_false id (hopened _)
  | ACTSB => exact iff_of_false id (hopened _)
  | ACTPB => exact iff_of_false id (hopened _)
  | _ => exact iff_of_false id hsame

end Nodes

/-! ## What the guard sees -/

variable {D : Device} {w : Watermarks} {s : State D} {fits : Command → Bool} {c : Cursor}

/-- The active buffer holds a request for exactly the bank that the command is addressed to. -/
def HoldsBank (s : State D) (c : Cursor) : Prop :=
  ∃ it ∈ dropBarrier (s.buffer .active), bankAddrVec it = bankAddrVec c.req

/-- The command closes the bank of a request that the active buffer holds. -/
def HitsActive (s : State D) (c : Cursor) : Prop :=
  ∃ it ∈ dropBarrier (s.buffer .active), Closes c.command c.req.addrVec it.addrVec

/-- A precharge of one bank that is fully addressed. -/
def IsPlainPre (c : Cursor) : Prop := c.command = .PRE ∧ -1 ∉ bankAddrVec c.req

theorem isClosing_of_closes {command : Command} {addrVec bank : AddrVec}
    (h : Closes command addrVec bank) : command.isClosing = true := by
  cases command <;> first | rfl | exact h.elim

/-- Such a precharge is seen. -/
theorem holdsBank_of_isPlainPre (hplain : IsPlainPre c) (h : HitsActive s c) : HoldsBank s c := by
  obtain ⟨hpre, hfull⟩ := hplain
  obtain ⟨it, hit, hcloses⟩ := h
  refine ⟨it, hit, ?_⟩
  rw [hpre] at hcloses
  have hlevel : ∀ level < rowLevel, it.addrVec[level]? = c.req.addrVec[level]? := by
    intro level hlt
    rcases hcloses level hlt with hwild | heq
    · refine absurd (List.mem_iff_getElem?.mpr ⟨level, ?_⟩) hfull
      rw [bankAddrVec, List.getElem?_take_of_lt hlt]
      exact hwild
    · exact heq.symm
  refine List.ext_getElem? ?_
  intro level
  rw [bankAddrVec, bankAddrVec, List.getElem?_take, List.getElem?_take]
  split_ifs with hlt
  · exact hlevel level hlt
  · rfl

/-- A pass issues no precharge that closes the bank of a request in the active buffer. -/
def SparesActive (pass : State D × Outcome) : Prop :=
  ∀ c, pass.2 = .found c → c.command.isClosing = true →
    ∀ it ∈ pass.1.buffer .active, ¬Closes c.command c.req.addrVec it.addrVec

/-- Where the cascade reaches a precharge that closes more banks than one, or has wildcards in
its address, and the bank of an active request among them, there is also an active request for
the very address. -/
def GuardSuffices (w : Watermarks) (s : State D) (fits : Command → Bool) : Prop :=
  ∀ c, Reaches w s fits c → ¬IsPlainPre c → HitsActive s c → HoldsBank s c

theorem buffer_active_schedule (s : State D) (w : Watermarks) (fits : Command → Bool) :
    (s.schedule w fits).1.buffer .active = dropBarrier (s.buffer .active) := by
  rw [← buffer_active_scheduleActive s w fits, State.schedule]
  rcases s.scheduleActive w fits with ⟨s₁, _ | _⟩ <;> rfl

theorem sparesActive_schedule_iff : SparesActive (s.schedule w fits) ↔ GuardSuffices w s fits := by
  rw [SparesActive, buffer_active_schedule]
  simp only [schedule_found_iff]
  refine ⟨?_, ?_⟩
  · intro hspares c hreaches _ hhits
    -- what the guard does not see, the pass serves
    by_contra hunseen
    obtain ⟨it, hit, hcloses⟩ := hhits
    have hserves : Serves w s fits c := ⟨hreaches, fun hstop => hunseen hstop.2⟩
    exact hspares c hserves (isClosing_of_closes hcloses) it hit hcloses
  · rintro hguard c ⟨hreaches, hgoesOn⟩ hclosing it hit hcloses
    have hseen : HoldsBank s c := by
      by_cases hplain : IsPlainPre c
      · exact holdsBank_of_isPlainPre hplain ⟨it, hit, hcloses⟩
      · exact hguard c hreaches hplain ⟨it, hit, hcloses⟩
    exact hgoesOn ⟨hclosing, hseen⟩

/-- **When the passes spare active requests**: where the guard sees every broadcast or wildcard
precharge that would close one's bank. A precharge of one fully addressed bank it always
sees. -/
theorem passes_spare_iff {D : Device} (w : Watermarks) (s : State D) (first : Option Command) :
    (SparesActive (s.scheduleRequest w) ↔ GuardSuffices w s anyCommand) ∧
      (SparesActive (s.scheduleSecRequest w first) ↔
        GuardSuffices w s (compareCommandType first)) :=
  ⟨sparesActive_schedule_iff, sparesActive_schedule_iff⟩

/-- A device on which rows can be opened and closed at any time, and nothing is read. -/
def rowsOnlyDevice : Device where
  State := List AddrVec
  tick := id
  getPreqCommand rows cmd addrVec :=
    if cmd = .REFab then if rows = [] then cmd else .PREA
    else if addrVec ∈ rows then cmd else .ACT
  checkReady _ cmd _ := decide (cmd = .ACT ∨ cmd = .PREA)
  checkRowbufferHit _ _ _ := false
  issueCommand rows cmd addrVec :=
    if cmd = .ACT then addrVec :: rows else if cmd = .PREA then [] else rows
  readLatency := 1

/-- A read whose row has been opened, at row 7 of a bank. -/
def readActivated : State rowsOnlyDevice :=
  [.send ⟨0, [0, 0, 0, 0, 0, 7, 0], .Read⟩, .tick [] none].foldl (step defaultWatermarks)
    (State.initial (fun _ => 32) [])

/-- The refresh of its pseudo channel closes it. -/
theorem not_passes_spare_refresh : ∃ s',
    State.refreshTick [[0, 0, -1, -1, -1, -1, -1]] readActivated.beginTick = some s' ∧
      ¬SparesActive (s'.scheduleRequest defaultWatermarks) := by
  have hpass : (State.refreshTick [[0, 0, -1, -1, -1, -1, -1]] readActivated.beginTick).map
      (fun s' => ((s'.scheduleRequest defaultWatermarks).2,
        (s'.scheduleRequest defaultWatermarks).1.buffer .active)) =
      some (.found ⟨.priority, 0, Request.new 1
          ⟨-1, [0, 0, -1, -1, -1, -1, -1], .AllBankRefresh⟩, .PREA⟩,
        [⟨0, 0, [0, 0, 0, 0, 0, 7, 0], .Read, 0, -1⟩]) := by decide +kernel
  obtain ⟨s', hs', houtcome⟩ := Option.map_eq_some_iff.mp hpass
  obtain ⟨hfound, hactive⟩ := Prod.mk.inj houtcome
  refine ⟨s', hs', ?_⟩
  intro hspares
  refine hspares _ hfound rfl _ (hactive ▸ List.mem_singleton_self _) ?_
  exact .inr rfl

end AttAcc.Controller
