import AttAcc.Controller.Scheduler

/-!
# What the scheduler returns

The loop of `get_best_request` folds a comparison that is not transitive: a request that is
ready beats one that is not, unless it would close a row that others of the queue hit. On a
buffer in arrival order the fold has a closed form: the head, or the first other request that
may overtake it (`getBestRequest_spec`). The candidate is the head until it is overtaken, and
then is never overtaken again, as it is ready.
-/

namespace AttAcc.Controller

open Dram (Command)

section

variable {D : Device} {dram : D.State}

/-- A request behind the head that is ready, is not held back by a barrier and does not take
the row from requests of the buffer that hit it. -/
def Overtakes (dram : D.State) (buffer queue : List Request) (it : Iter) : Prop :=
  0 < it.1 ∧ Eligible dram queue it ∧ ready dram it.2 = true ∧
    (rowHit dram it.2 = true ∨
      ∀ r ∈ buffer, rowHit dram r = true → bankAddrVec r ≠ bankAddrVec it.2)

/-- In arrival order, as the buffers are. -/
def InArrivalOrder (buffer : List Request) : Prop :=
  buffer.Pairwise fun r r' => r.arrive ≤ r'.arrive

theorem mem_rowhitList {buffer : List Request} {bank : AddrVec} :
    bank ∈ rowhitList dram buffer ↔
      ∃ r ∈ buffer, rowHit dram r = true ∧ bankAddrVec r = bank := by
  rw [rowhitList, List.mem_map]
  simp only [List.mem_filter, and_assoc]

/-- Nothing overtakes a request that is ready. -/
theorem compare_of_ready {rowhits : List AddrVec} {req1 req2 : Iter}
    (hready : ready dram req1.2 = true) (harrive : req1.2.arrive ≤ req2.2.arrive) :
    compare dram rowhits req1 req2 = req1 := by
  rw [compare, hready, if_pos rfl, if_pos harrive, ite_self]

/-- One that is not is overtaken by the requests of the definition. -/
theorem compare_of_not_ready {rowhits : List AddrVec} {req1 req2 : Iter}
    (hready : ready dram req1.2 = false) (harrive : req1.2.arrive ≤ req2.2.arrive) :
    compare dram rowhits req1 req2 =
      if ready dram req2.2 = true ∧ (rowHit dram req2.2 = true ∨ bankAddrVec req2.2 ∉ rowhits)
      then req2 else req1 := by
  rw [compare, hready]
  cases hready2 : ready dram req2.2 with
  | false =>
    rw [if_neg (by simp), if_pos harrive, if_neg (by simp)]
  | true =>
    rw [if_pos (by simp), if_neg (by simp)]
    cases hhit : rowHit dram req2.2 with
    | true => simp
    | false =>
      by_cases hbank : bankAddrVec req2.2 ∈ rowhits
      · simp [hbank]
      · simp [hbank]

/-- So a candidate that is ready is what the loop returns. -/
theorem scan_of_ready {rowhits : List AddrVec} {candidate : Iter}
    (hready : ready dram candidate.2 = true) {rest : List Request}
    (harrive : ∀ r ∈ rest, candidate.2.arrive ≤ r.arrive) (barrier : Bool) (pos : ℕ) :
    scan dram rowhits candidate barrier pos rest = candidate := by
  induction rest generalizing barrier pos with
  | nil => rfl
  | cons next rest ih =>
    obtain ⟨hnext, hrest⟩ := List.forall_mem_cons.mp harrive
    rw [scan, compare_of_ready hready hnext, ite_self]
    exact ih hrest _ _

/-- What the loop returns from a head that is not ready, when no request seen so far overtakes
it: the first of the others that does, or the head. The flag says whether there was a barrier
among the requests seen, but for the head. -/
theorem scan_spec (buffer : List Request) {head : Request} (front : List Request)
    {queue rest : List Request} (barrier : Bool) (hqueue : queue = front ++ rest)
    (hready : ready dram head = false) (hhead : ∀ r ∈ rest, head.arrive ≤ r.arrive)
    (horder : InArrivalOrder queue) (hfront : front ≠ [])
    (hbarrier : barrier = false ↔
      ∀ j r, 0 < j → j < front.length → queue[j]? = some r → r.isBarrier = false)
    (hnone : ∀ it, Overtakes dram buffer queue it → front.length ≤ it.1) :
    let it := scan dram (rowhitList dram buffer) (0, head) barrier front.length rest
    (it = (0, head) ∧ ∀ it', ¬Overtakes dram buffer queue it') ∨
      Overtakes dram buffer queue it ∧ ∀ it', Overtakes dram buffer queue it' → it.1 ≤ it'.1 := by
  induction rest generalizing front barrier with
  | nil =>
    refine .inl ⟨rfl, ?_⟩
    intro it hit
    have hlength : queue.length = front.length := by rw [hqueue, List.append_nil]
    have hsome := (List.getElem?_eq_some_iff.mp hit.2.1.1).1
    have hle := hnone it hit
    omega
  | cons next rest ih =>
    obtain ⟨hnextArrive, hrestArrive⟩ := List.forall_mem_cons.mp hhead
    have hpos : 0 < front.length := List.length_pos_iff.mpr hfront
    have hnext : queue[front.length]? = some next := by simp [hqueue]
    have hlength : front.length + 1 = (front ++ [next]).length := by simp
    -- the flag is raised by the request itself, before it is compared
    have hbarrier' : (barrier || next.isBarrier) = false ↔
        ∀ j r, 0 < j → j < front.length + 1 → queue[j]? = some r → r.isBarrier = false := by
      rw [Bool.or_eq_false_iff, hbarrier]
      refine ⟨?_, ?_⟩
      · rintro ⟨hbefore, hnextBarrier⟩ j r hj hlt hr
        rcases Nat.lt_succ_iff_lt_or_eq.mp hlt with hlt | rfl
        · exact hbefore j r hj hlt hr
        · obtain rfl := Option.some.inj (hnext.symm.trans hr)
          exact hnextBarrier
      · intro hall
        exact ⟨fun j r hj hlt hr => hall j r hj (hlt.trans (Nat.lt_succ_self _)) hr,
          hall _ _ hpos (Nat.lt_succ_self _) hnext⟩
    have heligible : (barrier || next.isBarrier) = false ∨
        (command dram next).opensOrCloses = true ↔
        Eligible dram queue (front.length, next) := by
      rw [hbarrier']
      simp only [Eligible, hnext, true_and, Nat.lt_succ_iff]
    rw [scan]
    simp only
    by_cases hover : Overtakes dram buffer queue (front.length, next)
    · -- The request takes over, and keeps its place.
      obtain ⟨-, helig, hnextReady, hrow⟩ := id hover
      have hbank : rowHit dram next = true ∨ bankAddrVec next ∉ rowhitList dram buffer := by
        refine hrow.imp_right ?_
        intro hfree hmem
        obtain ⟨r, hr, hhit, heq⟩ := mem_rowhitList.mp hmem
        exact hfree r hr hhit heq
      have hbehind : ∀ r ∈ rest, next.arrive ≤ r.arrive := by
        rw [InArrivalOrder, hqueue] at horder
        exact (List.pairwise_cons.mp (List.pairwise_append.mp horder).2.1).1
      rw [if_pos (heligible.mpr helig), compare_of_not_ready hready hnextArrive,
        if_pos ⟨hnextReady, hbank⟩, scan_of_ready hnextReady hbehind]
      exact .inr ⟨hover, hnone⟩
    · have hsame : (if (barrier || next.isBarrier) = false ∨
          (command dram next).opensOrCloses = true then
            compare dram (rowhitList dram buffer) (0, head) (front.length, next)
          else (0, head)) = (0, head) := by
        split_ifs with hcond
        · rw [compare_of_not_ready hready hnextArrive, if_neg]
          rintro ⟨hnextReady, hbank⟩
          refine hover ⟨hpos, heligible.mp hcond, hnextReady, hbank.imp_right ?_⟩
          intro hfree r hr hhit heq
          exact hfree (mem_rowhitList.mpr ⟨r, hr, hhit, heq⟩)
        · rfl
      rw [hsame, hlength]
      refine ih (front ++ [next]) _ (by simp [hqueue]) hrestArrive (by simp) ?_ ?_
      · rw [hbarrier', hlength]
      · intro it hit
        have hle := hnone it hit
        rcases Nat.lt_or_eq_of_le hle with hlt | heq
        · rw [← hlength]
          exact hlt
        · have hsome := hit.2.1.1
          rw [← heq, hnext] at hsome
          obtain rfl : it = (front.length, next) :=
            Prod.ext heq.symm (Option.some.inj hsome).symm
          exact absurd hit hover

/-- **What the scheduler returns**: it removes a barrier at the head and nothing else, and
from what is left, if anything, it returns the head if that is ready or nothing may overtake
it, and otherwise the first request that may. -/
theorem getBestRequest_spec {buffer : List Request} (hne : buffer ≠ [])
    (horder : InArrivalOrder buffer) :
    ∃ queue, (getBestRequest dram buffer).1 = queue ∧
      (queue = buffer ∧ (∀ head ∈ buffer.head?, head.isBarrier = false) ∨
        ∃ barrier, barrier.isBarrier = true ∧ buffer = barrier :: queue) ∧
      (queue = [] → (getBestRequest dram buffer).2 = none) ∧
      ∀ head rest, queue = head :: rest → ∃ it, (getBestRequest dram buffer).2 = some it ∧
        (ready dram head = true ∨ (∀ it', ¬Overtakes dram buffer queue it') → it = (0, head)) ∧
        (ready dram head = false → (∃ it', Overtakes dram buffer queue it') →
          Overtakes dram buffer queue it ∧
            ∀ it', Overtakes dram buffer queue it' → it.1 ≤ it'.1) := by
  refine ⟨dropBarrier buffer, getBestRequest_fst buffer, ?_, ?_, ?_⟩
  · rcases buffer with _ | ⟨first, behind⟩
    · exact absurd rfl hne
    · rw [dropBarrier]
      split_ifs with hbarrier
      · exact .inr ⟨first, hbarrier, rfl⟩
      · refine .inl ⟨rfl, ?_⟩
        intro head hhead
        obtain rfl := Option.some.inj hhead
        exact eq_false_of_ne_true hbarrier
  · intro hnil
    rw [getBestRequest, hnil]
  · intro head rest hqueue
    -- the queue is in arrival order like the buffer, which the comparison of ages relies on
    have hsub : (dropBarrier buffer).Sublist buffer := by
      rcases dropBarrier_eq_or buffer with heq | ⟨barrier, -, heq⟩
      · rw [heq]
      · conv_rhs => rw [heq]
        exact List.sublist_cons_self barrier _
    have horder' : InArrivalOrder (head :: rest) := hqueue ▸ horder.sublist hsub
    have hbehind := (List.pairwise_cons.mp horder').1
    rw [getBestRequest, hqueue]
    refine ⟨_, rfl, ?_⟩
    cases hready : ready dram head with
    | true =>
      refine ⟨fun _ => scan_of_ready hready hbehind _ _, ?_⟩
      intro hfalse
      cases hfalse
    | false =>
      have hbarrier : false = false ↔ ∀ j r, 0 < j → j < [head].length →
          (head :: rest)[j]? = some r → r.isBarrier = false := by
        refine iff_of_true rfl ?_
        intro j r hj hlt _
        rw [List.length_singleton] at hlt
        omega
      have hspec := scan_spec buffer [head] false rfl hready hbehind horder'
        (List.cons_ne_nil _ _) hbarrier fun it hit => hit.1
      rcases hspec with ⟨hhead, hnone⟩ | ⟨hover, hfirst⟩
      · refine ⟨fun _ => hhead, ?_⟩
        rintro - ⟨it', hit'⟩
        exact absurd hit' (hnone it')
      · refine ⟨?_, fun _ _ => ⟨hover, hfirst⟩⟩
        rintro (hfalse | hnone)
        · cases hfalse
        · exact absurd hover (hnone _)

end

/-- A device on which reads are ready, and hit. -/
def readsReadyDevice : Device where
  State := Unit
  tick := id
  getPreqCommand _ cmd _ := cmd
  checkReady _ cmd _ := decide (cmd = .RD)
  checkRowbufferHit _ cmd _ := decide (cmd = .RD)
  issueCommand dram _ _ := dram
  readLatency := 1

/-- A barrier, a write and a read. -/
def barrierWriteRead : List Request :=
  [⟨0, 0, [0, 0, 0, 0, 0, 0, 0], .PIM_BARRIER, 0, -1⟩, ⟨1, 0, [0, 0, 0, 0, 0, 0, 0], .Write, 1, -1⟩,
    ⟨2, 0, [0, 0, 0, 0, 1, 0, 0], .Read, 2, -1⟩]

/-- The barrier goes, and the read overtakes the write. -/
theorem getBestRequest_spec_read : ∃ queue it, barrierWriteRead.tail = queue ∧
    (getBestRequest (D := readsReadyDevice) () barrierWriteRead) = (queue, some it) ∧
      Overtakes (D := readsReadyDevice) () barrierWriteRead queue it := by
  have horder : InArrivalOrder barrierWriteRead := by
    simp [InArrivalOrder, barrierWriteRead]
  obtain ⟨queue, hqueue, hremoved, -, hreturned⟩ :=
    @getBestRequest_spec readsReadyDevice () barrierWriteRead (List.cons_ne_nil _ _) horder
  obtain rfl : barrierWriteRead.tail = queue := hqueue
  obtain ⟨it, hit, -, hovertaken⟩ := hreturned _ _ rfl
  refine ⟨_, it, rfl, Prod.ext rfl hit, (hovertaken rfl ?_).1⟩
  refine ⟨(1, ⟨2, 0, [0, 0, 0, 0, 1, 0, 0], .Read, 2, -1⟩), Nat.one_pos, ⟨rfl, .inl ?_⟩, rfl,
    .inl rfl⟩
  intro j r hj hle hr
  obtain rfl : j = 1 := by
    simp only at hle
    omega
  obtain rfl := Option.some.inj hr
  rfl

end AttAcc.Controller
