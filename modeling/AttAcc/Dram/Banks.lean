import Mathlib.Data.Finset.Card
import Mathlib.Data.List.FinRange
import Mathlib.Tactic.Common

/-!
# The banks of a channel

What the HBM3-PIM device model (`HBM3-PIM.cpp` and the patched lambdas `action.h` and
`preq.h`) does to the rows of the banks of a channel: the actions of the commands that open
and close rows, and the prerequisites of the requests that need open or closed rows. The
timing of commands is not part of it.
-/

namespace AttAcc.Dram

/-- `m_commands`. -/
inductive Command where
  | ACT
  | PRE
  | PREA
  | PRESB
  | PREPB
  | RD
  | WR
  | REFab
  | REFsb
  | ACTAB
  | ACTSB
  | ACTPB
  | MACAB
  | MACSB
  | MACPB
  | WRGB
  | MVSB
  | MVGB
  | SFM
  | SETM
  | SETH
  | BARRIER
  deriving DecidableEq, Repr

/-- The level counts below a channel. -/
structure Organization where
  pseudochannel : ℕ
  rank : ℕ
  bankgroup : ℕ
  bank : ℕ
  deriving DecidableEq, Repr

/-- A bank node: the node ids on the path from the channel to it. -/
@[ext]
structure Node (o : Organization) where
  pseudochannel : Fin o.pseudochannel
  rank : Fin o.rank
  bankgroup : Fin o.bankgroup
  bank : Fin o.bank
  deriving DecidableEq

variable {o : Organization}

/-- The bank nodes of a channel, in the order of the nested loops over child nodes. -/
def nodes (o : Organization) : List (Node o) :=
  (List.finRange o.pseudochannel).flatMap fun pc =>
    (List.finRange o.rank).flatMap fun rank =>
      (List.finRange o.bankgroup).flatMap fun bg =>
        (List.finRange o.bank).map fun bank => ⟨pc, rank, bg, bank⟩

@[simp]
theorem mem_nodes (node : Node o) : node ∈ nodes o := by
  simp [nodes, Node.ext_iff]

/-- The states of a bank node. -/
inductive BankState where
  | Opened
  | Closed
  deriving DecidableEq, Repr

/-- A bank: `m_state`, and the rows that `m_row_state` holds. -/
structure Bank where
  state : BankState
  rowState : Finset ℕ
  deriving DecidableEq

namespace Bank

/-- `m_init_states`. -/
def initial : Bank := ⟨.Closed, ∅⟩

/-- `m_state = Opened`, `m_row_state[row] = Opened`. -/
def openRow (b : Bank) (row : ℕ) : Bank := ⟨.Opened, insert row b.rowState⟩

/-- `m_state = Closed`, `m_row_state.clear()`. -/
def closeRows (_ : Bank) : Bank := ⟨.Closed, ∅⟩

/-- The bank is open, and on this row. -/
def RowOpen (b : Bank) (row : ℕ) : Prop := b.state = .Opened ∧ row ∈ b.rowState

/-- The bank is open, and not on this row. -/
def OtherOpen (b : Bank) (row : ℕ) : Prop := b.state = .Opened ∧ row ∉ b.rowState

instance (b : Bank) (row : ℕ) : Decidable (b.RowOpen row) := inferInstanceAs (Decidable (_ ∧ _))

instance (b : Bank) (row : ℕ) : Decidable (b.OtherOpen row) :=
  inferInstanceAs (Decidable (_ ∧ _))

@[simp] theorem openRow_state (b : Bank) (row : ℕ) : (b.openRow row).state = .Opened := rfl
@[simp] theorem closeRows_state (b : Bank) : b.closeRows.state = .Closed := rfl

@[simp]
theorem rowOpen_openRow (b : Bank) (row : ℕ) : (b.openRow row).RowOpen row :=
  ⟨rfl, Finset.mem_insert_self _ _⟩

@[simp]
theorem not_rowOpen_closeRows (b : Bank) (row : ℕ) : ¬b.closeRows.RowOpen row := by
  rintro ⟨hstate, -⟩
  cases hstate

/-- A bank is closed, on the row or on others. -/
theorem closed_or_rowOpen_or_otherOpen (b : Bank) (row : ℕ) :
    b.state = .Closed ∨ b.RowOpen row ∨ b.OtherOpen row := by
  cases hstate : b.state with
  | Closed => exact .inl rfl
  | Opened =>
    by_cases hrow : row ∈ b.rowState
    · exact .inr (.inl ⟨hstate, hrow⟩)
    · exact .inr (.inr ⟨hstate, hrow⟩)

end Bank

/-- The banks of a channel. -/
abbrev Banks (o : Organization) := Node o → Bank

namespace Banks

/-- Every bank is closed. -/
def initial : Banks o := fun _ => .initial

variable (banks : Banks o)

/-! ## Actions -/

/-- The loop of an activation over the nodes that pass its tests. -/
def openAll (range : Node o → Bool) (row : ℕ) : Banks o := fun node =>
  if range node then (banks node).openRow row else banks node

/-- The loop of a precharge over the nodes that pass its tests. -/
def closeAll (range : Node o → Bool) : Banks o := fun node =>
  if range node then (banks node).closeRows else banks node

end Banks

/-! The tests on node ids in the loops. -/

/-- The addressed bank itself. -/
def oneBank (node : Node o) : Node o → Bool := fun n => decide (n = node)

/-- Every bank of the channel. -/
def allBanks (_ : Node o) : Node o → Bool := fun _ => true

/-- The banks of the same id, in every rank and bank group. -/
def sameBanks (node : Node o) : Node o → Bool := fun n => decide (n.bank = node.bank)

/-- The bank at the same place in every pseudo channel. -/
def perBank (node : Node o) : Node o → Bool := fun n =>
  decide (n.rank = node.rank ∧ n.bankgroup = node.bankgroup ∧ n.bank = node.bank)

namespace Action

variable (banks : Banks o) (node : Node o)

/-! `ACT` and `PRE` act on the addressed bank, `Channel::PREA` on all banks of its channel. -/

def ACT (row : ℕ) : Banks o := banks.openAll (oneBank node) row
def PRE : Banks o := banks.closeAll (oneBank node)
def PREA : Banks o := banks.closeAll (allBanks node)

/-! The broadcast activations and precharges. `PRESB` has the body of `PREPB`, tests on the
rank and the bank group included, while `ACTSB` tests the bank id only. -/

def ACTAB (row : ℕ) : Banks o := banks.openAll (allBanks node) row
def ACTSB (row : ℕ) : Banks o := banks.openAll (sameBanks node) row
def ACTPB (row : ℕ) : Banks o := banks.openAll (perBank node) row
def PRESB : Banks o := banks.closeAll (perBank node)
def PREPB : Banks o := banks.closeAll (perBank node)

end Action

/-- `m_actions`: what issuing a command does to the banks. The other commands have no action,
or one that only updates timings. -/
def Banks.issueCommand (banks : Banks o) (command : Command) (node : Node o) (row : ℕ) :
    Banks o :=
  match command with
  | .ACT => Action.ACT banks node row
  | .PRE => Action.PRE banks node
  | .PREA => Action.PREA banks node
  | .PRESB => Action.PRESB banks node
  | .PREPB => Action.PREPB banks node
  | .ACTAB => Action.ACTAB banks node row
  | .ACTSB => Action.ACTSB banks node row
  | .ACTPB => Action.ACTPB banks node row
  | _ => banks

/-! ## Prerequisites -/

namespace Preq

/-- The loop of a prerequisite over the nodes that pass its tests: it returns at the first
bank that is closed, or open without the row. -/
def requireOpen (banks : Banks o) (act pre cmd : Command) (row : ℕ) : List (Node o) → Command
  | [] => cmd
  | node :: rest =>
    match (banks node).state with
    | .Closed => act
    | .Opened => if row ∈ (banks node).rowState then requireOpen banks act pre cmd row rest else pre

/-- The nodes of a loop that pass its tests. -/
def inRange (range : Node o → Bool) : List (Node o) := (nodes o).filter range

variable (banks : Banks o) (node : Node o) (cmd : Command) (row : ℕ)

def RequireRowOpen : Command :=
  requireOpen banks .ACT .PRE cmd row [node]

def RequireAllBanksRowOpen : Command :=
  requireOpen banks .ACTAB .PREA cmd row (inRange (allBanks node))

def RequirePIMSameBanksRowOpen : Command :=
  requireOpen banks .ACTSB .PRESB cmd row (inRange (sameBanks node))

def RequirePIMPerBanksRowOpen : Command :=
  requireOpen banks .ACTPB .PREPB cmd row (inRange (perBank node))

/-- `Channel::RequireAllBanksClosed`. -/
def RequireAllBanksClosed : Command :=
  if (nodes o).all fun n => decide ((banks n).state = .Closed) then cmd else .PREA

end Preq

/-! ## Requests -/

/-- The requests that need rows open. -/
inductive Access where
  | RD
  | WR
  | MACAB
  | MACSB
  | MACPB
  deriving DecidableEq, Repr

/-- A request in range, by its final command. -/
inductive Request (o : Organization) where
  | access (access : Access) (node : Node o) (row : ℕ)
  | REFab (node : Node o)
  deriving DecidableEq

/-- The final command of an access. -/
def Access.command : Access → Command
  | RD => .RD
  | WR => .WR
  | MACAB => .MACAB
  | MACSB => .MACSB
  | MACPB => .MACPB

namespace Banks

variable (banks : Banks o)

/-- `get_preq_command` of an access, by `m_preqs`. -/
def preqOfAccess (access : Access) (node : Node o) (row : ℕ) : Command :=
  match access with
  | .RD => Preq.RequireRowOpen banks node .RD row
  | .WR => Preq.RequireRowOpen banks node .WR row
  | .MACAB => Preq.RequireAllBanksRowOpen banks node .MACAB row
  | .MACSB => Preq.RequirePIMSameBanksRowOpen banks node .MACSB row
  | .MACPB => Preq.RequirePIMPerBanksRowOpen banks node .MACPB row

/-- The banks after the command that `get_preq_command` returns for a request is issued. -/
def serve (req : Request o) : Banks o :=
  match req with
  | .access access node row => banks.issueCommand (banks.preqOfAccess access node row) node row
  | .REFab node => banks.issueCommand (Preq.RequireAllBanksClosed banks .REFab) node 0

end Banks

/-! ## What serving an access can do -/

namespace Access

variable (access : Access) (node : Node o)

/-- The banks whose row an access needs open, which are those its activation opens. -/
def range : Node o → Bool :=
  match access with
  | RD | WR => oneBank node
  | MACAB => allBanks node
  | MACSB => sameBanks node
  | MACPB => perBank node

/-- The banks that its precharge closes. -/
def closes : Node o → Bool :=
  match access with
  | RD | WR => oneBank node
  | MACAB => allBanks node
  | MACSB | MACPB => perBank node

/-- The banks that its prerequisite goes over. -/
def loop : List (Node o) :=
  match access with
  | RD | WR => [node]
  | MACAB | MACSB | MACPB => Preq.inRange (access.range node)

/-- The activation of an access. -/
def act : Command :=
  match access with
  | RD | WR => .ACT
  | MACAB => .ACTAB
  | MACSB => .ACTSB
  | MACPB => .ACTPB

/-- The precharge of an access. -/
def pre : Command :=
  match access with
  | RD | WR => .PRE
  | MACAB => .PREA
  | MACSB => .PRESB
  | MACPB => .PREPB

variable {access node}

@[simp]
theorem mem_loop {n : Node o} : n ∈ access.loop node ↔ access.range node n = true := by
  cases access with
  | RD => simp [loop, range, oneBank]
  | WR => simp [loop, range, oneBank]
  | MACAB => simp [loop, Preq.inRange]
  | MACSB => simp [loop, Preq.inRange]
  | MACPB => simp [loop, Preq.inRange]

theorem pre_ne_command : access.pre ≠ access.command := by cases access <;> decide

end Access

namespace Banks

variable (banks : Banks o) (access : Access) (node : Node o) (row : ℕ)

/-- The first bank of the loop that does not have the row open. -/
def firstMissing : Option (Node o) :=
  (access.loop node).find? fun n => decide (¬(banks n).RowOpen row)

theorem requireOpen_eq (act pre cmd : Command) (loop : List (Node o)) :
    Preq.requireOpen banks act pre cmd row loop =
      match loop.find? fun n => decide (¬(banks n).RowOpen row) with
      | none => cmd
      | some n => if (banks n).state = .Closed then act else pre := by
  induction loop with
  | nil => rfl
  | cons n rest ih =>
    rw [Preq.requireOpen, List.find?_cons]
    rcases (banks n).closed_or_rowOpen_or_otherOpen row with hclosed | hopen | hother
    · simp [Bank.RowOpen, hclosed]
    · rw [hopen.1]
      simp [hopen, hopen.2, ih]
    · rw [hother.1]
      simp [Bank.RowOpen, hother.1, hother.2]

/-- What the prerequisite of an access returns. -/
theorem preqOfAccess_eq : banks.preqOfAccess access node row =
    match banks.firstMissing access node row with
    | none => access.command
    | some n => if (banks n).state = .Closed then access.act else access.pre := by
  rw [firstMissing, ← requireOpen_eq]
  cases access <;> rfl

theorem issue_act : banks.issueCommand access.act node row =
    banks.openAll (access.range node) row := by cases access <;> rfl

theorem issue_pre : banks.issueCommand access.pre node row =
    banks.closeAll (access.closes node) := by cases access <;> rfl

theorem issue_command : banks.issueCommand access.command node row = banks := by
  cases access <;> rfl

/-- No bank in range misses the row: the access itself is issued. -/
theorem preqOfAccess_of_forall (h : ∀ n, access.range node n = true → (banks n).RowOpen row) :
    banks.preqOfAccess access node row = access.command := by
  have hnone : banks.firstMissing access node row = none := by
    rw [firstMissing, List.find?_eq_none]
    intro n hn
    simp [h n (Access.mem_loop.mp hn)]
  rw [preqOfAccess_eq, hnone]

/-- **What serving an access can do**: nothing to the banks, if all in range have the row
open; else, by the first bank that misses the row, open the row in the range or close what
the precharge closes. -/
theorem preq_cases :
    ((∀ n, access.range node n = true → (banks n).RowOpen row) ∧
      banks.preqOfAccess access node row = access.command) ∨
    (∃ n, banks.firstMissing access node row = some n ∧ (banks n).state = .Closed ∧
      banks.preqOfAccess access node row = access.act) ∨
    ∃ n, banks.firstMissing access node row = some n ∧ (banks n).OtherOpen row ∧
      banks.preqOfAccess access node row = access.pre := by
  have heq := banks.preqOfAccess_eq access node row
  cases hfirst : banks.firstMissing access node row with
  | none =>
    rw [hfirst] at heq
    refine .inl ⟨?_, heq⟩
    intro n hn
    have hmissing := List.find?_eq_none.mp hfirst n (Access.mem_loop.mpr hn)
    simpa using hmissing
  | some n =>
    rw [hfirst] at heq
    have hmissing : ¬(banks n).RowOpen row := by
      have hfound := List.find?_some hfirst
      simpa using hfound
    rcases (banks n).closed_or_rowOpen_or_otherOpen row with hclosed | hopen | hother
    · exact .inr (.inl ⟨n, rfl, hclosed, by rw [heq]; exact if_pos hclosed⟩)
    · exact absurd hopen hmissing
    · have hopened : (banks n).state ≠ .Closed := by
        rw [hother.1]
        decide
      exact .inr (.inr ⟨n, rfl, hother, by rw [heq]; exact if_neg hopened⟩)

end Banks

end AttAcc.Dram
