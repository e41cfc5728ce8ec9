import Mathlib.Algebra.BigOperators.Fin
import AttAcc.Controller.PimOnly
import AttAcc.Memory.Order

/-!
# What a simulation has done when it ends

The loop of `main` ends when the trace is sent and no controller has work left. For a trace of PIM
requests, every line but the barriers has then had its final command issued exactly once, on the
channel that it is mapped to, and so has every refresh that was due (`simulation_completes`). The
counters that the memory system prints count lines as they are accepted; at the end they are the
numbers of commands that the devices were given (`counters_count_commands`).
-/

namespace AttAcc.Controller

open Library

variable {D : Device} {w : Watermarks} {s : State D}

/-! ## Controllers that are sent PIM work -/

/-- A PIM request, or a refresh. -/
def Packet.IsPimWork (p : Packet) : Prop :=
  p.typeId.sendBuffer = some .pim ∨ p.typeId = .AllBankRefresh

/-- Nothing accepted is taken back. -/
theorem packets_step (s : State D) (e : Event) : s.packets <+: (step w s e).packets := by
  cases e with
  | send p =>
    rw [step]
    cases hsend : s.send p with
    | none => exact List.prefix_refl _
    | some q =>
      obtain ⟨s', isSuccess⟩ := q
      rcases send_cases hsend with ⟨-, hpackets⟩ | ⟨-, rfl⟩
      · exact hpackets ▸ List.prefix_append _ _
      · exact List.prefix_refl _
  | tick refreshes stale =>
    rw [step]
    cases htick : s.tick w refreshes stale with
    | none => exact List.prefix_refl _
    | some s' => exact packets_tick htick ▸ List.prefix_append _ _

/-- A controller that has accepted PIM work only. -/
theorem pimOnly_of_packets (hD : D.RefreshCloses) {maxSize : BufferId → ℕ} {dram : D.State}
    (h : RunsTo (step w) (State.initial maxSize dram) s) (hwork : ∀ p ∈ s.packets, p.IsPimWork) :
    PimOnly s := by
  have hboth : Ordered s ∧ ((∀ p ∈ s.packets, p.IsPimWork) → PimOnly s) := by
    refine h.keeps (P := fun s => Ordered s ∧ ((∀ p ∈ s.packets, p.IsPimWork) → PimOnly s)) ?_
      ⟨.initial maxSize dram, fun _ => .initial maxSize dram⟩
    rintro s e ⟨hordered, hpim⟩
    refine ⟨hordered.step e, fun hwork => ?_⟩
    have hbefore := hpim fun p hp => hwork p ((packets_step s e).subset hp)
    cases e with
    | send p =>
      rw [step] at hwork ⊢
      cases hsend : s.send p with
      | none => exact hbefore
      | some q =>
        obtain ⟨s', isSuccess⟩ := q
        rw [hsend] at hwork
        rcases send_cases hsend with ⟨-, hpackets⟩ | ⟨-, rfl⟩
        · have hp : p ∈ s'.packets := by simp [hpackets]
          rcases hwork p hp with hbuffer | hrefresh
          · exact hbefore.send hbuffer hsend
          · -- `send` does not know refreshes
            rw [State.send, hrefresh] at hsend
            simp [RequestType.sendBuffer] at hsend
        · exact hbefore
    | tick refreshes stale =>
      rw [step]
      cases htick : s.tick w refreshes stale with
      | none => exact hbefore
      | some s' => exact hbefore.tick hordered hD htick
  exact hboth.2 hwork

end AttAcc.Controller

namespace AttAcc.Memory

open Controller (Device Packet Request RequestType refreshPacket finals_perm pimOnly_of_packets)
open Library
open Trace (Side TraceEntry requestType)

variable {D : Device} {n : ℕ} {setup : Setup D n} {entries : List TraceEntry}
  {s : Simulation D n} {c : Fin n}

/-! ## Finished work -/

/-- A request other than a barrier. -/
def isWork (p : Packet) : Bool := decide (p.typeId ≠ .PIM_BARRIER)

theorem isWork_packet (r : Request) : isWork r.packet = !r.isBarrier := by
  rw [isWork, Request.isBarrier, decide_not]
  rfl

/-- The lines of a PIM trace are PIM requests. -/
theorem isPimWork_of_mem_lines (hpim : ∀ t ∈ entries, IsPimLine t) {p : Packet}
    (hp : p ∈ setup.lines entries c) : p.IsPimWork := by
  obtain ⟨hmem, -⟩ := List.mem_filter.mp hp
  obtain ⟨t, ht, htp⟩ := List.mem_filterMap.mp hmem
  obtain ⟨type, htype, hbuffer⟩ := hpim t ht
  rw [TraceEntry.packet, htype] at htp
  obtain rfl := Option.some.inj htp
  exact .inl hbuffer

/-- The packets of a channel are those of the frontend and the refreshes. -/
theorem Consistent.packets_perm (h : Consistent setup entries s) (c : Fin n) :
    (s.channel c).controller.packets.Perm (setup.lines (entries.take s.frontend.traceCount) c ++
      (List.replicate (setup.scheme.rounds (s.channel c).controller.clk setup.nrefi)
        (setup.refresh c).round).flatten.map refreshPacket) := by
  have hc := h.follows c
  rw [← hc.lines, ← hc.rounds_eq, ← hc.refreshes]
  exact (List.filter_append_perm _ _).symm

/-- A controller in a simulation of PIM work. -/
theorem Consistent.pimOnly (h : Consistent setup entries s) (hD : D.RefreshCloses)
    (hpim : ∀ t ∈ entries, IsPimLine t) (c : Fin n) :
    Controller.PimOnly (s.channel c).controller := by
  refine pimOnly_of_packets hD (h.follows c).runsTo ?_
  intro p hp
  rcases List.mem_append.mp ((h.packets_perm c).mem_iff.mp hp) with hp | hp
  · exact isPimWork_of_mem_lines (fun t ht => hpim t (List.mem_of_mem_take ht)) hp
  · obtain ⟨addrVec, -, rfl⟩ := List.mem_map.mp hp
    exact .inr rfl

/-- Where nothing is pending, the buffers are empty. -/
theorem buffers_of_not_pending (h : s.isPending = false) (c : Fin n) :
    (s.channel c).controller.buffer .priority = [] ∧ (s.channel c).controller.buffer .pim = [] := by
  have hc : (s.channel c).isPending = false := by
    have hnone := of_decide_eq_false h
    exact eq_false_of_ne_true fun hpending => hnone ⟨c, hpending⟩
  simp only [Channel.isPending, Bool.or_eq_false_iff, decide_eq_false_iff_not, not_not,
    List.length_eq_zero_iff] at hc
  obtain ⟨⟨⟨⟨⟨-, hpriority⟩, -⟩, -⟩, hnone⟩, -⟩ := hc
  exact ⟨hpriority, hnone⟩

theorem Consistent.finals_perm (h : Consistent setup entries s) (hD : D.RefreshCloses)
    (hpim : ∀ t ∈ entries, IsPimLine t) (hpending : s.isPending = false) (c : Fin n) :
    ((s.channel c).controller.finals.map Request.packet |>.filter isWork).Perm
      ((setup.lines (entries.take s.frontend.traceCount) c).filter isWork ++
        (List.replicate (setup.scheme.rounds (s.channel c).controller.clk setup.nrefi)
          (setup.refresh c).round).flatten.map refreshPacket) := by
  obtain ⟨hpriority, hnone⟩ := buffers_of_not_pending hpending c
  have hfinals := Controller.finals_perm (h.accounted c) (h.pimOnly hD hpim c) hpriority hnone
  have hfilter : ∀ requests : List Request, (requests.map Request.packet).filter isWork =
      (requests.filter fun r => !r.isBarrier).map Request.packet := by
    intro requests
    rw [List.filter_map]
    exact congrArg _ (List.filter_congr fun r _ => isWork_packet r)
  have hrefreshes : ∀ refreshes : List Controller.AddrVec,
      (refreshes.map refreshPacket).filter isWork = refreshes.map refreshPacket := by
    intro refreshes
    exact List.filter_eq_self.mpr fun p hp => by
      obtain ⟨addrVec, -, rfl⟩ := List.mem_map.mp hp
      rfl
  have hpackets := (h.packets_perm c).filter isWork
  rw [List.filter_append, hrefreshes, Controller.State.packets, hfilter] at hpackets
  rw [hfilter]
  exact (hfinals.map _).trans
    ((((List.reverse_perm _).filter _).map _).symm.trans hpackets)

/-- When a simulation is over, all of its lines are sent. -/
theorem take_of_isOver (setup : Setup D n) {entries : List TraceEntry} {sides : List Side}
    (hover : (setup.run entries sides).isOver = true) :
    entries.take (setup.run entries sides).frontend.traceCount = entries := by
  have hinv : Trace.Inv entries (setup.run entries sides) := Trace.inv_run _ _ _
  exact List.take_of_length_le (hinv.isFinished_iff.mp (Bool.and_eq_true_iff.mp hover).1).ge

/-- And nothing is pending. -/
theorem not_isPending_of_isOver (hover : s.isOver = true) : s.isPending = false :=
  (Bool.not_eq_true' _).mp (Bool.and_eq_true_iff.mp hover).2

/-- What is finished, when a simulation is over. -/
theorem finals_perm_of_isOver (hD : D.RefreshCloses) (setup : Setup D n) {entries : List TraceEntry}
    (hpim : ∀ t ∈ entries, IsPimLine t) (sides : List Side)
    (hover : (setup.run entries sides).isOver = true) (c : Fin n) :
    let ctrl := ((setup.run entries sides).channel c).controller
    (ctrl.finals.map Request.packet |>.filter isWork).Perm
      ((setup.lines entries c).filter isWork ++
        (List.replicate (setup.scheme.rounds ctrl.clk setup.nrefi)
          (setup.refresh c).round).flatten.map refreshPacket) := by
  have hperm := (Consistent.run setup entries sides).finals_perm hD hpim
    (not_isPending_of_isOver hover) c
  rw [take_of_isOver setup hover] at hperm
  exact hperm

/-- **What a simulation has done when it ends**: for a trace of PIM requests on devices on which no
refresh needs a row opened, however the ticks of the frontend and of the memory system follow each
other, when the trace is sent and nothing is pending, then on every channel the requests whose final
command has been issued, barriers left out, are the lines of the trace that are mapped to it and the
refreshes that were due, each exactly once; and none was lost. -/
theorem simulation_completes (hD : D.RefreshCloses) (setup : Setup D n) {entries : List TraceEntry}
    (hpim : ∀ t ∈ entries, IsPimLine t) (sides : List Side)
    (hover : (setup.run entries sides).isOver = true) (c : Fin n) :
    let ctrl := ((setup.run entries sides).channel c).controller
    (ctrl.finals.map Request.packet |>.filter isWork).Perm
        ((setup.lines entries c).filter isWork ++
          (List.replicate (setup.scheme.rounds ctrl.clk setup.nrefi)
            (setup.refresh c).round).flatten.map refreshPacket) ∧
      ctrl.losses = [] :=
  ⟨finals_perm_of_isOver hD setup hpim sides hover c,
    ((Consistent.run setup entries sides).pimOnly hD hpim c).losses⟩

theorem isPimLine_macs : ∀ t ∈ macBarrierMacLines, IsPimLine t := by
  intro t ht
  simp only [macBarrierMacLines, List.mem_cons, List.not_mem_nil, or_false] at ht
  rcases ht with rfl | rfl | rfl
  · exact ⟨_, rfl, rfl⟩
  · exact ⟨_, rfl, rfl⟩
  · exact ⟨_, rfl, rfl⟩

/-- Two MACs and a barrier are done after two cycles. -/
theorem simulation_completes_macs :
    (((oneChannel.run macBarrierMacLines [.frontend, .memory, .memory]).channel
      0).controller.finals.map Request.packet |>.filter isWork).Perm
        [(macOf 0).packet, (macOf 2).packet] := by
  have hD : Controller.readyDevice.RefreshCloses := fun _ _ => rfl
  exact (simulation_completes hD oneChannel isPimLine_macs [.frontend, .memory, .memory]
    (by decide +kernel) 0).1

/-! ## Counters -/

/-- Every line that has been sent is mapped to a channel. -/
theorem exists_mapsTo (setup : Setup D n) (entries : List TraceEntry) (sides : List Side) :
    ∀ i < (setup.run entries sides).frontend.traceCount, ∀ t, entries[i]? = some t →
      ∃ c : Fin n, setup.MapsTo t c := by
  rw [Setup.run, Setup.start]
  refine Trace.run_induction (P := fun s => ∀ i < s.frontend.traceCount, ∀ t,
    entries[i]? = some t → ∃ c : Fin n, setup.MapsTo t c) ?_ (fun _ _ h => h) ?_ sides
  · intro s s' requestSent hs hlt hattempt h i hi t ht
    obtain ⟨-, ⟨-, hcount, p, hp, hsend⟩ | ⟨-, hcount, -⟩⟩ := Trace.attempt_cases hs hlt hattempt
    · rw [hcount] at hi
      rcases Nat.lt_succ_iff_lt_or_eq.mp hi with hi | rfl
      · exact h i hi t ht
      · obtain ⟨-, -, -, c, hc, -⟩ | ⟨hfalse, -⟩ := send_cases hsend
        · rw [List.getElem?_eq_getElem hlt] at ht
          obtain rfl := Option.some.inj ht
          exact ⟨c, p, hp, hc.symm⟩
        · cases hfalse
    · exact h i (hcount ▸ hi) t ht
  · intro i hi
    exact absurd hi (Nat.not_lt_zero i)

/-- The lines of all channels. -/
theorem sum_countP_lines (setup : Setup D n) (q : Packet → Bool) {entries : List TraceEntry}
    (h : ∀ t ∈ entries, ∃ c : Fin n, setup.MapsTo t c) :
    ∑ c, (setup.lines entries c).countP q =
      (entries.filterMap (TraceEntry.packet setup.applyMapper)).countP q := by
  induction entries with
  | nil => simp [Setup.lines]
  | cons t rest ih =>
    obtain ⟨⟨c, p, hp, hc⟩, hrest⟩ := List.forall_mem_cons.mp h
    have hline : ∀ c', (setup.lines (t :: rest) c').countP q =
        (setup.lines rest c').countP q + if c' = c then (if q p then 1 else 0) else 0 := by
      intro c'
      have hmaps : p.addrVec.getD 0 (-1) = ((c' : ℕ) : ℤ) ↔ c' = c := by
        rw [hc]
        exact ⟨fun heq => Fin.ext (Int.ofNat_inj.mp heq).symm, fun heq => by rw [heq]⟩
      rw [Setup.lines, List.filterMap_cons_some hp, List.filter_cons]
      simp only [hmaps, decide_eq_true_eq]
      split_ifs with hsame hq
      · rw [List.countP_cons, if_pos hq]
        rfl
      · rw [List.countP_cons, if_neg hq]
        rfl
      · rfl
    simp only [hline, Finset.sum_add_distrib, ih hrest, Finset.sum_ite_eq', Finset.mem_univ,
      if_true]
    rw [List.filterMap_cons_some hp, List.countP_cons]

/-- The requests of a type, as the memory system counts them. -/
def counts (st : Trace.Stat) (type : RequestType) : Bool := decide (Trace.stat type = some st)

/-- Barriers are not counted. -/
theorem countP_filter_isWork (st : Trace.Stat) (l : List Packet) :
    (l.filter isWork).countP (fun p => counts st p.typeId) =
      l.countP fun p => counts st p.typeId := by
  rw [List.countP_filter]
  refine List.countP_congr fun p _ => ?_
  rw [Bool.and_eq_true, and_iff_left_iff_imp]
  intro hp
  refine decide_eq_true fun hbarrier => ?_
  rw [hbarrier] at hp
  exact absurd (of_decide_eq_true hp) (by simp [Trace.stat])

/-- The commands of a type that a channel has issued are as many as its lines of that type. -/
theorem Consistent.countP_finals (h : Consistent setup entries s) (hD : D.RefreshCloses)
    (hpim : ∀ t ∈ entries, IsPimLine t) (hpending : s.isPending = false) {st : Trace.Stat}
    (hst : st ≠ .other) (c : Fin n) :
    ((s.channel c).controller.finals.countP fun r => counts st r.typeId) =
      (setup.lines (entries.take s.frontend.traceCount) c).countP fun p => counts st p.typeId := by
  have hperm := (h.finals_perm hD hpim hpending c).countP_eq fun p => counts st p.typeId
  rw [countP_filter_isWork, List.countP_map, List.countP_append, countP_filter_isWork] at hperm
  refine hperm.trans ?_
  rw [Nat.add_eq_left, List.countP_eq_zero]
  intro p hp
  obtain ⟨addrVec, -, rfl⟩ := List.mem_map.mp hp
  simp [counts, refreshPacket, Trace.stat, hst.symm]

/-- The lines of a type. -/
theorem countP_packets (applyMapper : Controller.Addr → Controller.AddrVec) (st : Trace.Stat)
    (entries : List TraceEntry) :
    (entries.filterMap (TraceEntry.packet applyMapper)).countP (fun p => counts st p.typeId) =
      entries.countP fun t => decide (t.stat = some st) := by
  rw [List.countP_filterMap]
  refine List.countP_congr fun t _ => ?_
  rw [TraceEntry.packet, TraceEntry.stat]
  cases requestType t.reqType with
  | none => simp
  | some type => simp [counts]

/-- **What the memory system counts are commands**: when a simulation of a PIM trace ends, every
counter of requests but that of the other ones is, in 32 bits, the number of requests of its type
whose final command has been issued, over all channels. -/
theorem counters_count_commands (hD : D.RefreshCloses) (setup : Setup D n)
    {entries : List TraceEntry} (hpim : ∀ t ∈ entries, IsPimLine t) (sides : List Side)
    (hover : (setup.run entries sides).isOver = true) {st : Trace.Stat} (hst : st ≠ .other) :
    (setup.run entries sides).memory.counters st = BitVec.ofNat 32
      (∑ c, ((setup.run entries sides).channel c).controller.finals.countP
        fun r => counts st r.typeId) := by
  have h := Consistent.run setup entries sides
  have hinv : Trace.Inv entries (setup.run entries sides) := Trace.inv_run _ _ _
  have hmapped := exists_mapsTo setup entries sides
  have htake := take_of_isOver setup hover
  have hcount := hinv.isFinished_iff.mp (Bool.and_eq_true_iff.mp hover).1
  have hmaps : ∀ t ∈ entries, ∃ c : Fin n, setup.MapsTo t c := by
    intro t ht
    obtain ⟨i, hi⟩ := List.mem_iff_getElem?.mp ht
    exact hmapped i (hcount ▸ (List.getElem?_eq_some_iff.mp hi).1) t hi
  have hcounter := hinv.counters st
  rw [htake, ← countP_packets setup.applyMapper, ← sum_countP_lines setup _ hmaps] at hcounter
  rw [hcounter]
  refine congrArg (BitVec.ofNat 32) (Finset.sum_congr rfl fun c _ => ?_)
  rw [h.countP_finals hD hpim (not_isPending_of_isOver hover) hst c, htake]

/-- Two MACs are counted. -/
theorem counters_count_commands_macs :
    (oneChannel.run macBarrierMacLines [.frontend, .memory, .memory]).memory.counters
      .pimMacAllBank = BitVec.ofNat 32 (∑ c, ((oneChannel.run macBarrierMacLines
        [.frontend, .memory, .memory]).channel c).controller.finals.countP
          fun r => counts .pimMacAllBank r.typeId) := by
  have hD : Controller.readyDevice.RefreshCloses := fun _ _ => rfl
  exact counters_count_commands hD oneChannel isPimLine_macs [.frontend, .memory, .memory]
    (by decide +kernel) (by decide)

end AttAcc.Memory
