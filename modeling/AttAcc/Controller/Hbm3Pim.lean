import Mathlib.Order.Lattice.Nat
import AttAcc.Controller.Precharge
import AttAcc.Controller.Rows
import AttAcc.Dram.Progress

/-!
# HBM3-PIM as the controller's device

`HBM3-PIM.cpp` as a device of the controller: the commands go to the banks of a channel, by their
address vectors (`hbm3PIM`). How the nodes of the simulator keep time, and two of its lambdas that
the repository leaves as they are, are parameters (`NodeBase`).

To a trace that uses one kind of MAC the banks are row buffers, one for each address that is used
(`rowMachine`), if the banks that the MACs need are disjoint, and each precharge closes the bank
that its prerequisite looks at first. The latter rules out the requests that get stuck.
-/

namespace AttAcc.Dram

variable {o : Organization}

/-- What the base class of the nodes does: the timing of commands, the row hits, and the
prerequisite of `REFsb`. -/
structure NodeBase (o : Organization) where
  Timing : Type
  /-- The clock goes on. -/
  tick : Timing → Timing
  checkReady : Timing → Command → List ℤ → Bool
  updateTiming : Timing → Command → List ℤ → Timing
  /-- `RowHit::Bank::RDWR`. -/
  rowHit : Bank → ℕ → Bool
  /-- `Preq::Bank::RequireBankClosed`. -/
  requireBankClosed : Bank → Command → Command
  readLatency : ℤ

/-- What it does, as far as PIM work relies on it. -/
structure NodeBase.Documented (base : NodeBase o) where
  /-- The cycles until every command is ready. -/
  wait : base.Timing → ℕ
  /-- The longest time that a command keeps others from being ready. -/
  latency : ℕ
  refreshLatency : ℕ
  ready : ∀ {t cmd a}, wait t = 0 → base.checkReady t cmd a = true
  tick : ∀ {t}, wait (base.tick t) ≤ wait t - 1
  update : ∀ {t cmd} (a : List ℤ), cmd ≠ .REFab →
    wait (base.updateTiming t cmd a) ≤ max (wait t) latency
  updateRefresh : ∀ {t} (a : List ℤ),
    wait (base.updateTiming t .REFab a) ≤ max (wait t) refreshLatency
  /-- The commands of rows have the scope of a bank, or a wider one. -/
  readyBank : ∀ {t cmd} {a b : List ℤ}, cmd.opensOrCloses = true →
    a.take Controller.rowLevel = b.take Controller.rowLevel →
      base.checkReady t cmd a = base.checkReady t cmd b
  rowHit : ∀ {b : Bank} {row : ℕ}, b.RowOpen row → base.rowHit b row = true

/-! ## Banks as row buffers -/

/-- The banks that some MACs need are disjoint, and the precharge of each closes the bank that its
prerequisite looks at first. -/
structure Placed (access : Access) (used : Finset (Node o)) : Prop where
  disjoint : ∀ x ∈ used, ∀ y ∈ used, ∀ n, access.range x n = true → access.range y n = true → x = y
  first : ∀ x ∈ used, ∃ n rest, access.loop x = n :: rest ∧ access.closes x n = true

/-- The bank that a prerequisite looks at first. -/
def Access.firstBank (access : Access) (x : Node o) : Node o := (access.loop x).head?.getD x

/-- The row that a bank holds. -/
def Bank.heldRow (b : Bank) : Option ℕ :=
  match b.state with
  | .Closed => none
  | .Opened => some (b.rowState.sup id)

/-- The banks of a MAC act as one row buffer: it is closed, or holds a row in all of them. -/
def Banks.Buffers (banks : Banks o) (access : Access) (x : Node o) : Prop :=
  banks (access.firstBank x) = .initial ∨
    ∃ row, (banks (access.firstBank x)).rowState = {row} ∧
      ∀ n, access.range x n = true → (banks n).RowOpen row

theorem Access.range_of_closes {access : Access} {x n : Node o} (h : access.closes x n = true) :
    access.range x n = true := by
  cases access with
  | RD | WR | MACAB | MACPB => exact h
  | MACSB =>
    have hsame := of_decide_eq_true h
    exact decide_eq_true hsame.2.2

theorem Access.range_self (access : Access) (x : Node o) : access.range x x = true := by
  cases access with
  | RD | WR => exact decide_eq_true rfl
  | MACAB => rfl
  | MACSB => exact decide_eq_true rfl
  | MACPB => exact decide_eq_true ⟨rfl, rfl, rfl⟩

section Buffers

variable {access : Access} {used : Finset (Node o)} {banks banks' : Banks o} {x y : Node o}
  {row : ℕ}

theorem Placed.firstBank (h : Placed access used) (hx : x ∈ used) :
    access.closes x (access.firstBank x) = true ∧
      access.range x (access.firstBank x) = true := by
  obtain ⟨n, rest, hloop, hcloses⟩ := h.first x hx
  have hfirst : access.firstBank x = n := by rw [Access.firstBank, hloop]; rfl
  rw [hfirst]
  exact ⟨hcloses, Access.range_of_closes hcloses⟩

/-- The other row buffers have other banks. -/
theorem Placed.range_eq_false (h : Placed access used) (hx : x ∈ used) (hy : y ∈ used)
    (hne : y ≠ x) {n : Node o} (hn : access.range y n = true) : access.range x n = false :=
  eq_false_of_ne_true fun hrange => hne (h.disjoint y hy x hx n hn hrange)

/-- If the first bank lacks the row, it is the first that does. -/
theorem Placed.firstMissing (h : Placed access used) (hx : x ∈ used)
    (hmissing : ¬(banks (access.firstBank x)).RowOpen row) :
    banks.firstMissing access x row = some (access.firstBank x) := by
  obtain ⟨n, rest, hloop, -⟩ := h.first x hx
  have hfirst : access.firstBank x = n := by rw [Access.firstBank, hloop]; rfl
  rw [hfirst] at hmissing ⊢
  rw [Banks.firstMissing, hloop]
  exact List.find?_cons_of_pos (decide_eq_true hmissing)

/-- **What a MAC asks of a row buffer.** -/
theorem Placed.preqOfAccess (h : Placed access used) (hx : x ∈ used)
    (hbuffers : banks.Buffers access x) : banks.preqOfAccess access x row =
      match (banks (access.firstBank x)).heldRow with
      | none => access.act
      | some r => if r = row then access.command else access.pre := by
  rcases hbuffers with hinitial | ⟨held, hheld, hopen⟩
  · have hmissing : ¬(banks (access.firstBank x)).RowOpen row := by
      rw [hinitial]
      rintro ⟨hstate, -⟩
      cases hstate
    rw [Banks.preqOfAccess_eq, h.firstMissing hx hmissing]
    simp [hinitial, Bank.initial, Bank.heldRow]
  · have hstate := (hopen _ (h.firstBank hx).2).1
    have hrow : (banks (access.firstBank x)).heldRow = some held := by
      rw [Bank.heldRow, hstate, hheld]
      simp
    rw [hrow]
    simp only
    split_ifs with hsame
    · exact banks.preqOfAccess_of_forall access x row fun n hn => hsame ▸ hopen n hn
    · have hmissing : ¬(banks (access.firstBank x)).RowOpen row := by
        rintro ⟨-, hmem⟩
        rw [hheld, Finset.mem_singleton] at hmem
        exact hsame hmem.symm
      rw [Banks.preqOfAccess_eq, h.firstMissing hx hmissing]
      simp [hstate]

/-- Row buffers that keep their banks stay. -/
theorem Banks.Buffers.congr (hbuffers : banks.Buffers access y)
    (hfirst : access.range y (access.firstBank y) = true)
    (hsame : ∀ n, access.range y n = true → banks' n = banks n) : banks'.Buffers access y := by
  rw [Banks.Buffers, hsame _ hfirst]
  refine hbuffers.imp_right ?_
  rintro ⟨row, hrow, hopen⟩
  exact ⟨row, hrow, fun n hn => (hsame n hn).symm ▸ hopen n hn⟩

/-- An activation of a closed row buffer. -/
theorem Placed.openAll (h : Placed access used) (hx : x ∈ used)
    (hbuffers : ∀ z ∈ used, banks.Buffers access z)
    (hclosed : (banks (access.firstBank x)).heldRow = none) :
    ((banks.openAll (access.range x) row) (access.firstBank x)).heldRow = some row ∧
      (∀ z ∈ used, (banks.openAll (access.range x) row).Buffers access z) ∧
      ∀ z ∈ used, z ≠ x → (banks.openAll (access.range x) row) (access.firstBank z) =
        banks (access.firstBank z) := by
  have hrange := (h.firstBank hx).2
  have hinitial : banks (access.firstBank x) = .initial := by
    rcases hbuffers x hx with hinitial | ⟨held, -, hopen⟩
    · exact hinitial
    · rw [Bank.heldRow, (hopen _ hrange).1] at hclosed
      cases hclosed
  have hfirst : (banks.openAll (access.range x) row) (access.firstBank x) = ⟨.Opened, {row}⟩ := by
    rw [Banks.openAll, if_pos hrange, hinitial]
    rfl
  have hother : ∀ z ∈ used, z ≠ x → ∀ n, access.range z n = true →
      (banks.openAll (access.range x) row) n = banks n := by
    intro z hz hne n hn
    rw [Banks.openAll, h.range_eq_false hx hz hne hn]
    rfl
  refine ⟨?_, ?_, fun z hz hne => hother z hz hne _ (h.firstBank hz).2⟩
  · rw [hfirst]
    simp [Bank.heldRow]
  · intro z hz
    by_cases hsame : z = x
    · subst hsame
      refine .inr ⟨row, by rw [hfirst], fun n hn => ?_⟩
      rw [Banks.openAll, if_pos hn]
      exact Bank.rowOpen_openRow _ _
    · exact (hbuffers z hz).congr (h.firstBank hz).2 (hother z hz hsame)

/-- A precharge of a row buffer. -/
theorem Placed.closeAll (h : Placed access used) (hx : x ∈ used)
    (hbuffers : ∀ z ∈ used, banks.Buffers access z) :
    ((banks.closeAll (access.closes x)) (access.firstBank x)).heldRow = none ∧
      (∀ z ∈ used, (banks.closeAll (access.closes x)).Buffers access z) ∧
      ∀ z ∈ used, z ≠ x → (banks.closeAll (access.closes x)) (access.firstBank z) =
        banks (access.firstBank z) := by
  have hfirst : (banks.closeAll (access.closes x)) (access.firstBank x) = .initial := by
    rw [Banks.closeAll, if_pos (h.firstBank hx).1]
    rfl
  have hother : ∀ z ∈ used, z ≠ x → ∀ n, access.range z n = true →
      (banks.closeAll (access.closes x)) n = banks n := by
    intro z hz hne n hn
    have hnot : ¬access.closes x n = true := fun hcloses =>
      absurd (Access.range_of_closes hcloses) (by rw [h.range_eq_false hx hz hne hn]; decide)
    rw [Banks.closeAll, if_neg hnot]
  refine ⟨?_, ?_, fun z hz hne => hother z hz hne _ (h.firstBank hz).2⟩
  · rw [hfirst]
    rfl
  · intro z hz
    by_cases hsame : z = x
    · subst hsame
      exact .inl hfirst
    · exact (hbuffers z hz).congr (h.firstBank hz).2 (hother z hz hsame)

end Buffers

end AttAcc.Dram

namespace AttAcc.Controller

open Dram (Access Bank Banks Command Node NodeBase Organization)
open Library

section Device

variable {o : Organization} (base : NodeBase o)

/-- The bank node that an address vector leads to. -/
def nodeAt (o : Organization) (addrVec : AddrVec) : Option (Node o) :=
  (Dram.nodes o).find? fun n =>
    decide ((addrVec.drop 1).take 4 = (addrVecOf 0 n).drop 1)

/-- The row of an address vector. -/
def rowAt (addrVec : AddrVec) : ℕ := (addrVec.getD rowLevel 0).toNat

/-- A channel of `HBM3PIM`. -/
def hbm3PIM : Device where
  State := Banks o × base.Timing
  tick s := (s.1, base.tick s.2)
  getPreqCommand s cmd addrVec :=
    match cmd with
    | .REFab => Dram.Preq.RequireAllBanksClosed s.1 .REFab
    | .REFsb => (nodeAt o addrVec).elim cmd fun node => base.requireBankClosed (s.1 node) cmd
    | .RD => (nodeAt o addrVec).elim cmd fun node => s.1.preqOfAccess .RD node (rowAt addrVec)
    | .WR => (nodeAt o addrVec).elim cmd fun node => s.1.preqOfAccess .WR node (rowAt addrVec)
    | .MACAB => (nodeAt o addrVec).elim cmd fun node => s.1.preqOfAccess .MACAB node (rowAt addrVec)
    | .MACSB => (nodeAt o addrVec).elim cmd fun node => s.1.preqOfAccess .MACSB node (rowAt addrVec)
    | .MACPB => (nodeAt o addrVec).elim cmd fun node => s.1.preqOfAccess .MACPB node (rowAt addrVec)
    | _ => cmd
  checkReady s cmd addrVec := base.checkReady s.2 cmd addrVec
  checkRowbufferHit s cmd addrVec :=
    match cmd with
    | .RD | .WR | .MACAB | .MACSB | .MACPB =>
      (nodeAt o addrVec).elim false fun node => base.rowHit (s.1 node) (rowAt addrVec)
    | _ => false
  issueCommand s cmd addrVec :=
    (match cmd with
      | .PREA => s.1.closeAll fun _ => true
      | _ => (nodeAt o addrVec).elim s.1 fun node => s.1.issueCommand cmd node (rowAt addrVec),
      base.updateTiming s.2 cmd addrVec)
  readLatency := base.readLatency

/-- What the base class keeps of the time, the device does. -/
def latencies {base : NodeBase o} (h : base.Documented) : Latencies (hbm3PIM base) where
  wait s := h.wait s.2
  latency := h.latency
  refreshLatency := h.refreshLatency
  ready hwait := h.ready hwait
  tick := h.tick
  issue a hcmd := h.update a hcmd
  issue_refresh a := h.updateRefresh a

end Device

/-! ## The machine of rows -/

section Machine

variable {o : Organization} {base : NodeBase o} {access : Access} {used : Finset (Node o)}
  {channel : Addr} {a : AddrVec} {x : Node o} {s : (hbm3PIM base).State}

/-- The address of a bank, in a channel. -/
def LeadsTo (channel : Addr) (addrVec : AddrVec) (x : Node o) : Prop :=
  addrVec.take rowLevel = addrVecOf channel x

theorem addrVecOf_injective {x y : Node o} (h : (addrVecOf 0 x).drop 1 = (addrVecOf 0 y).drop 1) :
    x = y := by
  simp only [addrVecOf, List.drop_succ_cons, List.drop_zero, List.cons.injEq, Nat.cast_inj] at h
  obtain ⟨hpch, hrank, hbg, hbank, -⟩ := h
  exact Node.ext (Fin.ext hpch) (Fin.ext hrank) (Fin.ext hbg) (Fin.ext hbank)

theorem nodeAt_of_leadsTo (h : LeadsTo channel a x) : nodeAt o a = some x := by
  have hids : (a.drop 1).take 4 = (addrVecOf 0 x).drop 1 := by
    have hdrop : (a.take rowLevel).drop 1 = (a.drop 1).take 4 := List.drop_take
    rw [← hdrop, show a.take rowLevel = _ from h]
    rfl
  have hfound : (decide ((a.drop 1).take 4 = (addrVecOf 0 x).drop 1)) = true :=
    decide_eq_true hids
  rw [nodeAt]
  cases hfind : (Dram.nodes o).find? fun n =>
      decide ((a.drop 1).take 4 = (addrVecOf 0 n).drop 1) with
  | none => exact absurd hfound (List.find?_eq_none.mp hfind x (Dram.mem_nodes x))
  | some y =>
    have hy := List.find?_some hfind
    rw [addrVecOf_injective (hids.symm.trans (of_decide_eq_true hy))]

/-- A request that needs rows open. -/
def RequestType.isAccess (t : RequestType) : Bool :=
  decide (t.translation ∈ [Command.RD, .WR, .MACAB, .MACSB, .MACPB])

/-- The requests of a trace that uses one kind of MAC on some banks. -/
def KnownPacket (access : Access) (channel : Addr) (used : Finset (Node o)) (p : Packet) : Prop :=
  p.typeId.sendBuffer = some .pim ∧ (p.typeId.isAccess = true →
    p.typeId.translation = access.command ∧ ∃ x ∈ used, LeadsTo channel p.addrVec x)

/-- Its class: the bank that it is addressed to. -/
def classOfPacket (o : Organization) (access : Access) (p : Packet) : Option (Node o) :=
  if p.typeId.translation = access.command then nodeAt o p.addrVec else none

theorem isAccess_of_translation {t : RequestType} (h : t.translation = access.command) :
    t.isAccess = true := by
  rw [RequestType.isAccess, h]
  cases access <;> rfl

theorem KnownPacket.of_classOf {p : Packet} (hp : KnownPacket access channel used p)
    (hclass : classOfPacket o access p = some x) : p.typeId.translation = access.command ∧
      x ∈ used ∧ LeadsTo channel p.addrVec x ∧ nodeAt o p.addrVec = some x := by
  rw [classOfPacket] at hclass
  split_ifs at hclass with htype
  obtain ⟨-, y, hy, hleads⟩ := hp.2 (isAccess_of_translation htype)
  obtain rfl : y = x := Option.some.inj ((nodeAt_of_leadsTo hleads).symm.trans hclass)
  exact ⟨htype, hy, hleads, hclass⟩

theorem KnownPacket.of_classOf_none {p : Packet} (hp : KnownPacket access channel used p)
    (hclass : classOfPacket o access p = none) : p.typeId.isAccess = false := by
  refine eq_false_of_ne_true fun haccess => ?_
  obtain ⟨htype, x, -, hleads⟩ := hp.2 haccess
  rw [classOfPacket, if_pos htype, nodeAt_of_leadsTo hleads] at hclass
  cases hclass

/-! The commands of the device. -/

theorem preq_access (access : Access) (s : (hbm3PIM base).State) (a : AddrVec) :
    (hbm3PIM base).getPreqCommand s access.command a =
      (nodeAt o a).elim access.command fun node => s.1.preqOfAccess access node (rowAt a) := by
  cases access <;> rfl

theorem preq_of_not_isAccess {t : RequestType} (hpim : t.sendBuffer = some .pim)
    (h : t.isAccess = false) (s : (hbm3PIM base).State) (a : AddrVec) :
    (hbm3PIM base).getPreqCommand s t.translation a = t.translation := by
  cases t with
  | Read | Write | AllBankRefresh | PerBankRefresh => cases hpim
  | PIM_MAC_AB | PIM_MAC_SB | PIM_MAC_PB => exact absurd h (by decide)
  | _ => rfl

theorem banks_translation (t : RequestType) (s : (hbm3PIM base).State) (a : AddrVec) :
    ((hbm3PIM base).issueCommand s t.translation a).1 = s.1 := by
  show (match t.translation with
    | .PREA => s.1.closeAll fun _ => true
    | _ => (nodeAt o a).elim s.1 fun node => s.1.issueCommand t.translation node (rowAt a)) = s.1
  cases t <;> cases nodeAt o a <;> rfl

theorem banks_act (hnode : nodeAt o a = some x) :
    ((hbm3PIM base).issueCommand s access.act a).1 = s.1.openAll (access.range x) (rowAt a) := by
  rw [← Banks.issue_act]
  simp only [hbm3PIM]
  cases access <;> simp [Access.act, hnode]

theorem banks_pre (hnode : nodeAt o a = some x) :
    ((hbm3PIM base).issueCommand s access.pre a).1 = s.1.closeAll (access.closes x) := by
  cases access with
  | MACAB => rfl
  | _ =>
    simp only [hbm3PIM, Access.pre, hnode, Option.elim_some]
    rfl

/-- Every bank is closed. -/
def allClosed (banks : Banks o) : Bool :=
  (Dram.nodes o).all fun n => decide ((banks n).state = .Closed)

theorem state_of_allClosed {banks : Banks o} (h : allClosed banks = true) (n : Node o) :
    (banks n).state = .Closed :=
  of_decide_eq_true (List.all_eq_true.mp h n (Dram.mem_nodes n))

section Known

variable {p : Packet} (hplaced : Dram.Placed access used)
  (hvalid : ∀ z ∈ used, s.1.Buffers access z) (hp : KnownPacket access channel used p)
include hplaced hvalid hp

theorem preq_of_classOf (hclass : classOfPacket o access p = some x) :
    (hbm3PIM base).getPreqCommand s p.typeId.translation p.addrVec =
      match (s.1 (access.firstBank x)).heldRow with
      | none => access.act
      | some r => if r = rowAt p.addrVec then p.typeId.translation else access.pre := by
  obtain ⟨htype, hx, -, hnode⟩ := hp.of_classOf hclass
  rw [htype, preq_access, hnode]
  exact hplaced.preqOfAccess hx (hvalid x hx)

theorem hit_of_classOf (h : base.Documented) (hclass : classOfPacket o access p = some x)
    (hopened : (s.1 (access.firstBank x)).heldRow = some (rowAt p.addrVec)) :
    (hbm3PIM base).checkRowbufferHit s p.typeId.translation p.addrVec = true := by
  obtain ⟨htype, hx, -, hnode⟩ := hp.of_classOf hclass
  have hopen : (s.1 x).RowOpen (rowAt p.addrVec) := by
    rcases hvalid x hx with hinitial | ⟨row, hrow, hopen⟩
    · rw [hinitial] at hopened
      cases hopened
    · rw [Dram.Bank.heldRow, (hopen _ (hplaced.firstBank hx).2).1, hrow] at hopened
      have heq : row = rowAt p.addrVec := by simpa using hopened
      exact heq ▸ hopen x (Access.range_self access x)
  have hhit : (nodeAt o p.addrVec).elim false
      (fun node => base.rowHit (s.1 node) (rowAt p.addrVec)) = true := by
    rw [hnode]
    exact h.rowHit hopen
  rw [htype]
  cases access with
  | RD | WR | MACAB | MACSB | MACPB => exact hhit

theorem valid_issue_of_known : ∀ z ∈ used, ((hbm3PIM base).issueCommand s
    ((hbm3PIM base).getPreqCommand s p.typeId.translation p.addrVec)
    p.addrVec).1.Buffers access z := by
  cases hclass : classOfPacket o access p with
  | none =>
    rw [preq_of_not_isAccess hp.1 (hp.of_classOf_none hclass), banks_translation]
    exact hvalid
  | some x =>
    obtain ⟨htype, hx, -, hnode⟩ := hp.of_classOf hclass
    rw [preq_of_classOf hplaced hvalid hp hclass]
    cases hopened : (s.1 (access.firstBank x)).heldRow with
    | none =>
      simp only
      rw [banks_act hnode]
      exact (hplaced.openAll hx hvalid hopened).2.1
    | some row =>
      simp only
      split_ifs
      · rw [banks_translation]
        exact hvalid
      · rw [banks_pre hnode]
        exact (hplaced.closeAll hx hvalid).2.1

end Known

/-- **The banks as a machine of rows**, for a trace that uses one kind of MAC on some banks. -/
def rowMachine (h : base.Documented) (channel : Addr) (hplaced : Dram.Placed access used) :
    RowMachine (hbm3PIM base) where
  Class := Node o
  decEq := inferInstance
  Known := KnownPacket access channel used
  classOf := classOfPacket o access
  row p := rowAt p.addrVec
  classes := used
  act := access.act
  pre := access.pre
  Valid s := ∀ z ∈ used, s.1.Buffers access z
  opened s x := (s.1 (access.firstBank x)).heldRow
  isClean s := allClosed s.1
  isOpening_act := by cases access <;> rfl
  isClosing_pre := by cases access <;> rfl
  mem_classes hp hclass := (hp.of_classOf hclass).2.1
  bank_eq hp hq hpclass hqclass :=
    (hp.of_classOf hpclass).2.2.1.trans (hq.of_classOf hqclass).2.2.1.symm
  ready_bank := h.readyBank
  not_hit := by
    intro s cmd a hcmd
    cases cmd with
    | RD | WR | MACAB | MACSB | MACPB => cases hcmd
    | _ => rfl
  hit hvalid hp hclass hopened := hit_of_classOf hplaced hvalid hp h hclass hopened
  preq_none _ hp hclass := preq_of_not_isAccess hp.1 (hp.of_classOf_none hclass) _ _
  preq_some hvalid hp hclass := preq_of_classOf hplaced hvalid hp hclass
  preq_refresh := rfl
  valid_issue hvalid hp := valid_issue_of_known hplaced hvalid hp
  opened_act := by
    intro s p x hvalid hp hclass hopened
    obtain ⟨-, hx, -, hnode⟩ := hp.of_classOf hclass
    obtain ⟨hsame, -, hother⟩ := hplaced.openAll hx hvalid hopened
    rw [banks_act hnode]
    exact ⟨hsame, fun z hz hne => congrArg Bank.heldRow (hother z hz hne)⟩
  opened_pre := by
    intro s p x hvalid hp hclass
    obtain ⟨-, hx, -, hnode⟩ := hp.of_classOf hclass
    obtain ⟨hsame, -, hother⟩ := hplaced.closeAll hx hvalid
    rw [banks_pre hnode]
    exact ⟨hsame, fun z hz hne => congrArg Bank.heldRow (hother z hz hne)⟩
  opened_of_clean := by
    intro s x _ hclean _
    rw [Bank.heldRow, state_of_allClosed hclean]
  precharge _ _ := ⟨fun _ _ => .inl rfl, List.all_eq_true.mpr fun _ _ => rfl⟩
  refresh := by
    intro s a hvalid hclean
    rw [show ((hbm3PIM base).issueCommand s .REFab a).1 = s.1 from
      banks_translation .AllBankRefresh s a]
    exact ⟨hvalid, hclean⟩
  tick hvalid := ⟨hvalid, rfl, rfl⟩

end Machine

end AttAcc.Controller
