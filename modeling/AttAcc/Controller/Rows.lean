import AttAcc.Controller.BestRequest
import AttAcc.Controller.Refresh
import AttAcc.Library.Demand

/-!
# Rows, as PIM work asks for them

What PIM requests and refreshes see of a device. The requests that need a row open fall into
classes, and a class holds one row or none (`RowMachine`). Commands have to wait for each other, but
no longer than their latencies (`Latencies`).

On such a device the scheduler serves a class in order: a request whose command opens or closes
rows is the first of its class in the queue (`firstOf_of_best`), since the requests in front of it
would have been ready for the same command, or are protected by the list of row hits.
-/

namespace AttAcc.Controller

open Dram (Command)
open Library

/-- The rows of a device, in classes of requests. -/
structure RowMachine (D : Device) where
  Class : Type
  decEq : DecidableEq Class
  /-- The requests that are sent. -/
  Known : Packet → Prop
  /-- The class of a request that needs a row open. -/
  classOf : Packet → Option Class
  row : Packet → ℕ
  classes : Finset Class
  act : Command
  pre : Command
  /-- What the device keeps. -/
  Valid : D.State → Prop
  /-- The row that a class holds. -/
  opened : D.State → Class → Option ℕ
  /-- Nothing is open. -/
  isClean : D.State → Bool
  isOpening_act : act.isOpening = true
  isClosing_pre : pre.isClosing = true
  mem_classes : ∀ {p k}, Known p → classOf p = some k → k ∈ classes
  bank_eq : ∀ {p q k}, Known p → Known q → classOf p = some k → classOf q = some k →
    p.addrVec.take rowLevel = q.addrVec.take rowLevel
  /-- Whether a command that opens or closes rows is ready is a matter of its bank. -/
  ready_bank : ∀ {dram cmd} {a b : AddrVec}, cmd.opensOrCloses = true →
    a.take rowLevel = b.take rowLevel → D.checkReady dram cmd a = D.checkReady dram cmd b
  not_hit : ∀ {dram cmd a}, cmd.opensOrCloses = true → D.checkRowbufferHit dram cmd a = false
  hit : ∀ {dram p k}, Valid dram → Known p → classOf p = some k → opened dram k = some (row p) →
    D.checkRowbufferHit dram p.typeId.translation p.addrVec = true
  preq_none : ∀ {dram p}, Valid dram → Known p → classOf p = none →
    D.getPreqCommand dram p.typeId.translation p.addrVec = p.typeId.translation
  preq_some : ∀ {dram p k}, Valid dram → Known p → classOf p = some k →
    D.getPreqCommand dram p.typeId.translation p.addrVec =
      match opened dram k with
      | none => act
      | some r => if r = row p then p.typeId.translation else pre
  preq_refresh : ∀ {dram a}, D.getPreqCommand dram .REFab a =
    if isClean dram then .REFab else .PREA
  valid_issue : ∀ {dram p}, Valid dram → Known p → Valid (D.issueCommand dram
    (D.getPreqCommand dram p.typeId.translation p.addrVec) p.addrVec)
  opened_act : ∀ {dram p k}, Valid dram → Known p → classOf p = some k → opened dram k = none →
    opened (D.issueCommand dram act p.addrVec) k = some (row p) ∧
      ∀ k' ∈ classes, k' ≠ k → opened (D.issueCommand dram act p.addrVec) k' = opened dram k'
  opened_pre : ∀ {dram p k}, Valid dram → Known p → classOf p = some k →
    opened (D.issueCommand dram pre p.addrVec) k = none ∧
      ∀ k' ∈ classes, k' ≠ k → opened (D.issueCommand dram pre p.addrVec) k' = opened dram k'
  opened_of_clean : ∀ {dram k}, Valid dram → isClean dram = true → k ∈ classes →
    opened dram k = none
  precharge : ∀ {dram} (a : AddrVec), Valid dram →
    Valid (D.issueCommand dram .PREA a) ∧ isClean (D.issueCommand dram .PREA a) = true
  refresh : ∀ {dram} (a : AddrVec), Valid dram → isClean dram = true →
    Valid (D.issueCommand dram .REFab a) ∧ isClean (D.issueCommand dram .REFab a) = true
  tick : ∀ {dram}, Valid dram → Valid (D.tick dram) ∧ opened (D.tick dram) = opened dram ∧
    isClean (D.tick dram) = isClean dram

instance {D : Device} (M : RowMachine D) : DecidableEq M.Class := M.decEq

/-- How long the commands of a device wait for each other. -/
structure Latencies (D : Device) where
  /-- The cycles after which every command is ready. -/
  wait : D.State → ℕ
  /-- Of any command but a refresh. -/
  latency : ℕ
  refreshLatency : ℕ
  ready : ∀ {dram cmd a}, wait dram = 0 → D.checkReady dram cmd a = true
  tick : ∀ {dram}, wait (D.tick dram) ≤ wait dram - 1
  issue : ∀ {dram cmd} (a : AddrVec), cmd ≠ .REFab →
    wait (D.issueCommand dram cmd a) ≤ max (wait dram) latency
  issue_refresh : ∀ {dram} (a : AddrVec),
    wait (D.issueCommand dram .REFab a) ≤ max (wait dram) refreshLatency

/-! ## The best request of a queue -/

section

variable {D : Device} {dram : D.State} {buffer rest : List Request} {head : Request} {it : Iter}

theorem dropBarrier_sublist (buffer : List Request) : (dropBarrier buffer).Sublist buffer := by
  rcases dropBarrier_eq_or buffer with heq | ⟨barrier, -, heq⟩
  · rw [heq]
  · conv_rhs => rw [heq]
    exact List.sublist_cons_self barrier _

/-- **The best request** is the head, or the first that overtakes a head that is not ready. -/
theorem best_cases (horder : InArrivalOrder buffer) (hqueue : dropBarrier buffer = head :: rest) :
    ∃ it, (getBestRequest dram buffer).2 = some it ∧ (it = (0, head) ∨
      ready dram head = false ∧ Overtakes dram buffer (head :: rest) it ∧
        ∀ it', Overtakes dram buffer (head :: rest) it' → it.1 ≤ it'.1) := by
  have hsub : (head :: rest).Sublist buffer := hqueue ▸ dropBarrier_sublist buffer
  have horder' : InArrivalOrder (head :: rest) := horder.sublist hsub
  have hbehind := (List.pairwise_cons.mp horder').1
  rw [getBestRequest, hqueue]
  refine ⟨_, rfl, ?_⟩
  cases hready : ready dram head with
  | true => exact .inl (scan_of_ready hready hbehind _ _)
  | false =>
    have hbarrier : false = false ↔ ∀ j r, 0 < j → j < [head].length →
        (head :: rest)[j]? = some r → r.isBarrier = false := by
      refine iff_of_true rfl ?_
      intro j r hj hlt _
      rw [List.length_singleton] at hlt
      omega
    have hspec := scan_spec buffer [head] false rfl hready hbehind horder' (List.cons_ne_nil _ _)
      hbarrier fun it hit => hit.1
    rcases hspec with ⟨hhead, -⟩ | ⟨hover, hfirst⟩
    · exact .inl hhead
    · exact .inr ⟨rfl, hover, hfirst⟩

end

/-! ## Classes in a queue -/

namespace RowMachine

variable {D : Device} (M : RowMachine D) {dram : D.State} {buffer : List Request} {it : Iter}
  {r x y : Request} {k : M.Class}

/-- The first request of a class. -/
abbrev firstOf (k : M.Class) (queue : List Request) : Option Request :=
  Library.firstOf (fun r : Request => M.classOf r.packet) k queue

/-- What a queue demands. -/
abbrev demand (dram : D.State) (queue : List Request) : ℕ :=
  Library.demand (fun r : Request => M.classOf r.packet) (fun r => M.row r.packet) M.classes
    (M.opened dram) queue

variable {M}

theorem command_none (hdram : M.Valid dram) (hr : M.Known r.packet)
    (hclass : M.classOf r.packet = none) : command dram r = r.finalCommand :=
  M.preq_none hdram hr hclass

theorem command_some (hdram : M.Valid dram) (hr : M.Known r.packet)
    (hclass : M.classOf r.packet = some k) : command dram r =
      match M.opened dram k with
      | none => M.act
      | some row => if row = M.row r.packet then r.finalCommand else M.pre :=
  M.preq_some hdram hr hclass

theorem opensOrCloses_act (M : RowMachine D) : M.act.opensOrCloses = true := by
  rw [Command.opensOrCloses, M.isOpening_act]
  rfl

theorem opensOrCloses_pre (M : RowMachine D) : M.pre.opensOrCloses = true := by
  rw [Command.opensOrCloses, M.isClosing_pre, Bool.or_true]

/-- **What a request asks for**: its own command, or one for its class that brings it closer. -/
theorem command_cases (hdram : M.Valid dram) (hr : M.Known r.packet) :
    command dram r = r.finalCommand ∨
      ∃ k, M.classOf r.packet = some k ∧ (command dram r).opensOrCloses = true ∧
        (M.opened dram k = none ∧ command dram r = M.act ∨
          ∃ row, M.opened dram k = some row ∧ row ≠ M.row r.packet ∧ command dram r = M.pre) := by
  cases hclass : M.classOf r.packet with
  | none => exact .inl (command_none hdram hr hclass)
  | some k =>
    have hcommand := command_some hdram hr hclass
    cases hopened : M.opened dram k with
    | none =>
      rw [hopened] at hcommand
      exact .inr ⟨k, rfl, hcommand ▸ M.opensOrCloses_act, .inl ⟨hopened, hcommand⟩⟩
    | some row =>
      rw [hopened] at hcommand
      by_cases hrow : row = M.row r.packet
      · exact .inl (hcommand.trans (if_pos hrow))
      · have hpre : command dram r = M.pre := hcommand.trans (if_neg hrow)
        exact .inr ⟨k, rfl, hpre ▸ M.opensOrCloses_pre, .inr ⟨row, hopened, hrow, hpre⟩⟩

/-- Two requests of a class ask for the same command, unless one of them hits its row. -/
theorem command_eq_of_miss (hdram : M.Valid dram) (hx : M.Known x.packet) (hy : M.Known y.packet)
    (hxclass : M.classOf x.packet = some k) (hyclass : M.classOf y.packet = some k)
    (hrow : (command dram x).opensOrCloses = true) (hmiss : rowHit dram y = false) :
    command dram y = command dram x := by
  have hxcommand := command_some hdram hx hxclass
  have hycommand := command_some hdram hy hyclass
  cases hopened : M.opened dram k with
  | none =>
    rw [hopened] at hxcommand hycommand
    rw [hxcommand, hycommand]
  | some row =>
    rw [hopened] at hxcommand hycommand
    have hyrow : row ≠ M.row y.packet := by
      intro heq
      have hfinal : command dram y = y.finalCommand := hycommand.trans (if_pos heq)
      rw [rowHit, hfinal] at hmiss
      have hhit := M.hit hdram hy hyclass (heq ▸ hopened)
      exact absurd (hhit.symm.trans hmiss) (by decide)
    have hxrow : row ≠ M.row x.packet := by
      intro heq
      have hfinal : command dram x = x.finalCommand := hxcommand.trans (if_pos heq)
      rw [hfinal, Request.finalCommand, RequestType.opensOrCloses_translation] at hrow
      cases hrow
    rw [hxcommand, hycommand]
    exact (if_neg hyrow).trans (if_neg hxrow).symm

/-- A request of the same class in front of one that overtakes would have overtaken as well. -/
theorem overtakes_of_class (hdram : M.Valid dram) (hx : M.Known x.packet) (hy : M.Known y.packet)
    (hxclass : M.classOf x.packet = some k) (hyclass : M.classOf y.packet = some k)
    (hrow : (command dram x).opensOrCloses = true) {queue : List Request} {i j : ℕ}
    (hover : Overtakes dram buffer queue (i, x)) (hyAt : queue[j]? = some y)
    (hybuffer : y ∈ buffer) :
    ready dram y = true ∧ (0 < j → Overtakes dram buffer queue (j, y)) := by
  obtain ⟨-, -, hxready, hbank⟩ := hover
  have hsame : bankAddrVec y = bankAddrVec x := M.bank_eq hy hx hyclass hxclass
  -- It does not hit its row, so the requests of its bank that do would hold it back.
  have hfree : ∀ r ∈ buffer, rowHit dram r = true → bankAddrVec r ≠ bankAddrVec x := by
    refine hbank.resolve_left fun hhit => ?_
    rw [rowHit, M.not_hit hrow] at hhit
    cases hhit
  have hmiss : rowHit dram y = false :=
    eq_false_of_ne_true fun hhit => hfree y hybuffer hhit hsame
  have hcommand := command_eq_of_miss hdram hx hy hxclass hyclass hrow hmiss
  have hyready : ready dram y = true := by
    rw [ready, hcommand, M.ready_bank hrow hsame]
    exact hxready
  exact ⟨hyready, fun hj => ⟨hj, ⟨hyAt, .inr (hcommand ▸ hrow)⟩, hyready, .inr (hsame ▸ hfree)⟩⟩

/-- **A class is served in order**: where the command of the best request opens or closes rows,
the request is the first of its class. -/
theorem firstOf_of_best (hdram : M.Valid dram) (hknown : ∀ r ∈ buffer, M.Known r.packet)
    (horder : InArrivalOrder buffer) (hbest : (getBestRequest dram buffer).2 = some it)
    (hclass : M.classOf it.2.packet = some k) (hrow : (command dram it.2).opensOrCloses = true) :
    M.firstOf k (dropBarrier buffer) = some it.2 := by
  have hknown' : ∀ r ∈ dropBarrier buffer, M.Known r.packet :=
    fun r hr => hknown r ((dropBarrier_sublist buffer).subset hr)
  have hbuffer : ∀ r ∈ dropBarrier buffer, r ∈ buffer :=
    fun r hr => (dropBarrier_sublist buffer).subset hr
  have hit := (getBestRequest_eligible hbest).1
  cases hqueue : dropBarrier buffer with
  | nil =>
    rw [hqueue] at hit
    cases hit
  | cons head rest =>
    rw [hqueue] at hit hbuffer hknown'
    have hmem := List.mem_of_getElem? hit
    cases hfirst : M.firstOf k (head :: rest) with
    | none =>
      have hnot := List.find?_eq_none.mp hfirst it.2 hmem
      exact absurd hclass (by simpa using hnot)
    | some y =>
      obtain ⟨hy, front, back, hsplit, hfront⟩ := List.find?_eq_some_iff_append.mp hfirst
      have hyAt : (head :: rest)[front.length]? = some y := by simp [hsplit]
      have hymem := List.mem_of_getElem? hyAt
      rcases lt_trichotomy it.1 front.length with hlt | heq | hgt
      · -- The requests in front of the first one are of other classes.
        rw [hsplit, List.getElem?_append_left hlt] at hit
        have hnot := hfront it.2 (List.mem_of_getElem? hit)
        simp [hclass] at hnot
      · rw [heq, hyAt] at hit
        exact hit
      · obtain ⟨it', hbest', hcases⟩ := @best_cases D dram _ _ _ horder hqueue
        obtain rfl : it = it' := Option.some.inj (hbest.symm.trans hbest')
        rcases hcases with heq | ⟨hhead, hover, hleast⟩
        · rw [heq] at hgt
          exact absurd hgt (Nat.not_lt_zero _)
        · obtain ⟨hyready, hyover⟩ := overtakes_of_class hdram (hknown' _ hmem) (hknown' y hymem)
            hclass (of_decide_eq_true hy) hrow hover hyAt (hbuffer y hymem)
          rcases Nat.eq_zero_or_pos front.length with hzero | hpos
          · rw [hzero] at hyAt
            obtain rfl : head = y := Option.some.inj hyAt
            exact absurd (hyready.symm.trans hhead) (by decide)
          · exact absurd (hleast _ (hyover hpos)) (Nat.not_le.mpr hgt)

end RowMachine

end AttAcc.Controller
