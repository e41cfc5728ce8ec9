import AttAcc.Controller.Refresh
import Mathlib.Data.List.Nodup
import Mathlib.Data.List.Perm.Lattice

/-!
# A controller that serves PIM work

Where the frontend sends PIM requests only, as the traces of the generators do, and no refresh needs
a row opened, requests wait in the PIM buffer and in the priority buffer until their final command
is issued. The other buffers and the pending queue stay empty, and nothing is lost (`PimOnly`). What
has been finished when nothing waits any more is then exactly what was accepted (`finals_perm`).
-/

namespace AttAcc.Controller

open Dram (Command)
open Library

variable {D : Device} {w : Watermarks} {s s' : State D} {fits : Command → Bool} {c : Cursor}

/-- No refresh needs a row opened. -/
def Device.RefreshCloses (D : Device) : Prop :=
  ∀ dram addrVec, (D.getPreqCommand dram .REFab addrVec).isOpening = false

/-- PIM requests and refreshes wait, and nothing else. -/
structure PimOnly (s : State D) : Prop where
  active : s.buffer .active = []
  read : s.buffer .read = []
  write : s.buffer .write = []
  refresh : ∀ r ∈ s.buffer .priority, r.typeId = .AllBankRefresh
  pending : s.pending = []
  forwards : s.forwards = []
  losses : s.losses = []

theorem Dropped.eq_nil {after : List Request} (h : Dropped [] after) : after = [] := by
  obtain ⟨barriers, -, hnil⟩ := h
  exact (List.append_eq_nil_iff.mp hnil.symm).2

theorem Dropped.sublist {before after : List Request} (h : Dropped before after) :
    after.Sublist before := by
  obtain ⟨barriers, -, rfl⟩ := h
  exact List.sublist_append_right _ _

/-- Reads are no PIM requests. -/
theorem Request.IsPim.ne_read {r : Request} (h : r.IsPim) : r.typeId ≠ .Read := by
  intro hread
  rw [Request.IsPim, hread] at h
  cases h

namespace PimOnly

theorem initial (maxSize : BufferId → ℕ) (dram : D.State) : PimOnly (State.initial maxSize dram) :=
  ⟨rfl, rfl, rfl, fun _ hr => absurd hr List.not_mem_nil, rfl, rfl, rfl⟩

/-- What matters of a state. -/
theorem congr (h : PimOnly s) (hpriority : ∀ r ∈ s'.buffer .priority, r ∈ s.buffer .priority)
    (hbuffers : ∀ id, id ≠ .priority → id ≠ .pim → s'.buffer id = s.buffer id)
    (hpending : s'.pending = s.pending) (hforwards : s'.forwards = s.forwards)
    (hlosses : s'.losses = s.losses) : PimOnly s' where
  active := (hbuffers .active (by decide) (by decide)).trans h.active
  read := (hbuffers .read (by decide) (by decide)).trans h.read
  write := (hbuffers .write (by decide) (by decide)).trans h.write
  refresh r hr := h.refresh r (hpriority r hr)
  pending := hpending.trans h.pending
  forwards := hforwards.trans h.forwards
  losses := hlosses.trans h.losses

theorem prune (h : PimOnly s) (hp : Pruned s s') : PimOnly s' := by
  have hnil : ∀ id, s.buffer id = [] → s'.buffer id = s.buffer id := by
    intro id hid
    have hdropped := hp.buffer id
    rw [hid] at hdropped ⊢
    exact hdropped.eq_nil
  refine h.congr (fun r hr => (hp.buffer .priority).sublist.subset hr) ?_ hp.pending ?_ ?_
  · intro id hpriority hpim
    cases id with
    | active => exact hnil _ h.active
    | read => exact hnil _ h.read
    | write => exact hnil _ h.write
    | priority => exact absurd rfl hpriority
    | pim => exact absurd rfl hpim
  · rw [State.forwards, State.forwards, hp.log]
  · rw [State.losses, State.losses, hp.log]

/-- A request is accepted by one of the two buffers. -/
theorem acceptInto (h : PimOnly s) {id : BufferId} {r : Request}
    (hid : id = .pim ∨ id = .priority ∧ r.typeId = .AllBankRefresh) :
    PimOnly (s.accept id r).1 := by
  rw [State.accept]
  split_ifs with hfull
  · exact h
  · have hother : ∀ id' ≠ id,
        (s.setBuffer id ((s.buffers id).enqueue r)).buffer id' = s.buffer id' :=
      fun id' hne => congrArg ReqBuffer.buffer (State.buffers_setBuffer_of_ne hne _)
    have hsame : (s.setBuffer id ((s.buffers id).enqueue r)).buffer id = s.buffer id ++ [r] := by
      rw [State.buffer, State.buffers_setBuffer_self, ReqBuffer.enqueue, if_neg hfull]
    rcases hid with rfl | ⟨rfl, hrefresh⟩
    · refine ⟨?_, ?_, ?_, ?_, h.pending, h.forwards, h.losses⟩
      · exact (hother .active (by decide)).trans h.active
      · exact (hother .read (by decide)).trans h.read
      · exact (hother .write (by decide)).trans h.write
      · intro x hx
        exact h.refresh x ((hother .priority (by decide)) ▸ hx)
    · refine ⟨?_, ?_, ?_, ?_, h.pending, h.forwards, h.losses⟩
      · exact (hother .active (by decide)).trans h.active
      · exact (hother .read (by decide)).trans h.read
      · exact (hother .write (by decide)).trans h.write
      · intro x hx
        rcases List.mem_append.mp (hsame ▸ hx) with hx | hx
        · exact h.refresh x hx
        · rw [List.mem_singleton.mp hx]
          exact hrefresh

theorem send (h : PimOnly s) {p : Packet} (hp : p.typeId.sendBuffer = some .pim)
    {q : State D × Bool} (hq : s.send p = some q) : PimOnly q.1 := by
  rw [State.send] at hq
  simp only at hq
  split_ifs at hq with hforward
  · rw [hforward.1] at hp
    cases hp
  · obtain ⟨id, hid, rfl⟩ := Option.map_eq_some_iff.mp hq
    exact h.acceptInto (.inl (Option.some.inj (hid.symm.trans hp)))

theorem refreshTick (h : PimOnly s) {refreshes : List AddrVec}
    (hs : State.refreshTick refreshes s = some s') : PimOnly s' :=
  State.refreshTick_induction (P := PimOnly) (fun _ _ h => h.acceptInto (.inr ⟨rfl, rfl⟩)) h hs

theorem beginTick (h : PimOnly s) : PimOnly s.beginTick := by
  have hserve : s.beginTick = { s with clk := s.clk + 1, dram := D.tick s.dram } := by
    rw [State.beginTick, State.serveCompletedReads]
    simp only [h.pending]
  rw [hserve]
  exact ⟨h.active, h.read, h.write, h.refresh, h.pending, h.forwards, h.losses⟩

/-- A request that is found waits in one of the two buffers. -/
theorem id_of_chosen (h : PimOnly s) (hc : Chosen s fits c) :
    c.id = .pim ∨ c.id = .priority ∧ c.req.typeId = .AllBankRefresh := by
  have hmem := List.mem_of_getElem? hc.eligible.1
  cases hid : c.id with
  | active => rw [hid, h.active] at hmem; cases hmem
  | read => rw [hid, h.read] at hmem; cases hmem
  | write => rw [hid, h.write] at hmem; cases hmem
  | priority => exact .inr ⟨rfl, h.refresh c.req (hid ▸ hmem)⟩
  | pim => exact .inl rfl

/-- It is no read, and it does not move. -/
theorem frame_of_chosen (h : PimOnly s) (hordered : Ordered s) (hD : D.RefreshCloses)
    (hc : Chosen s fits c) : c.req.typeId ≠ .Read ∧ s.moves c = false := by
  rcases h.id_of_chosen hc with hpim | ⟨-, hrefresh⟩
  · have hmem := List.mem_of_getElem? hc.eligible.1
    refine ⟨((hordered.isPim_iff c.id c.req hmem).mpr hpim).ne_read, ?_⟩
    simp [State.moves, hc.isPim hpim]
  · refine ⟨by rw [hrefresh]; decide, ?_⟩
    have hcloses : c.command.isOpening = false := by
      rw [hc.command, command, Request.finalCommand, hrefresh]
      exact hD s.dram c.req.addrVec
    rw [State.moves, hcloses, Bool.and_false]

/-- So it is left where it is, or it leaves its buffer for good. -/
theorem issue_eq (h : PimOnly s) (hordered : Ordered s) (hD : D.RefreshCloses)
    (hc : Chosen s fits c) : s.issue c =
      if c.command = c.req.finalCommand then
        (s.commanded c).setBuffer c.id ((s.buffers c.id).remove c.pos)
      else s.commanded c := by
  obtain ⟨hread, hmoves⟩ := h.frame_of_chosen hordered hD hc
  split_ifs with hfinal
  · rw [State.issue_of_final hfinal, State.finish, if_neg hread]
    rfl
  · exact State.issue_of_stays hfinal hmoves

theorem issue (h : PimOnly s) (hordered : Ordered s) (hD : D.RefreshCloses)
    (hc : Chosen s fits c) : PimOnly (s.issue c) := by
  have hlosses : (s.issue c).losses = s.losses := by
    rcases losses_issue s c with ⟨⟨hopening, hisPim, -⟩, -⟩ | ⟨-, hlosses⟩
    · have hmoves : s.moves c = true := by
        rw [State.moves, decide_eq_true (ne_finalCommand_of_isOpening hopening), hisPim, hopening]
        rfl
      rw [(h.frame_of_chosen hordered hD hc).2] at hmoves
      cases hmoves
    · exact hlosses
  have hforwards := (frame_issue s c).2
  rw [h.issue_eq hordered hD hc] at hlosses hforwards ⊢
  have hcommanded : (s.commanded c).buffers = s.buffers := rfl
  split_ifs at hlosses hforwards ⊢ with hfinal
  · refine h.congr ?_ ?_ rfl hforwards hlosses
    · intro r hr
      rw [← hcommanded, State.buffer_remove] at hr
      split_ifs at hr
      · exact (List.eraseIdx_sublist _ _).subset hr
      · exact hr
    · intro id hpriority hpim
      have hne : id ≠ c.id := by
        rcases h.id_of_chosen hc with hid | ⟨hid, -⟩
        · rw [hid]
          exact hpim
        · rw [hid]
          exact hpriority
      exact congrArg ReqBuffer.buffer (State.buffers_setBuffer_of_ne hne _)
  · exact h.congr (fun _ hr => hr) (fun _ _ _ => rfl) rfl hforwards hlosses

/-- A pass, and what it finds is served. -/
theorem pass (h : PimOnly s) (hordered : Ordered s) (hD : D.RefreshCloses)
    (fits : Command → Bool) : PimOnly ((s.schedule w fits).1.serve (s.schedule w fits).2) := by
  obtain ⟨hpruned, hchosen⟩ := s.schedule_spec w fits
  have hafter := h.prune hpruned
  cases houtcome : (s.schedule w fits).2 with
  | found c => exact hafter.issue (hordered.prune hpruned) hD (hchosen c houtcome)
  | stopped reqIt => exact hafter

theorem tick (h : PimOnly s) (hordered : Ordered s) (hD : D.RefreshCloses)
    {refreshes : List AddrVec} {stale : Option Command}
    (hs : s.tick w refreshes stale = some s') : PimOnly s' := by
  obtain ⟨s₁, hs₁, rfl⟩ := Option.map_eq_some_iff.mp hs
  have hordered₁ := hordered.beginTick.refreshTick hs₁
  exact ((h.beginTick.refreshTick hs₁).pass hordered₁ hD _).pass (hordered₁.pass _) hD _

end PimOnly

/-! ## What is finished -/

/-- **Where nothing waits and nothing was lost, what is finished is what was accepted**, each
request once. -/
theorem finals_perm (h : Accounted s) (hpim : PimOnly s) (hpriority : s.buffer .priority = [])
    (hnone : s.buffer .pim = []) :
    (s.finals.filter fun r => !r.isBarrier).Perm (s.accepted.filter fun r => !r.isBarrier) := by
  have hwaiting : s.waiting = [] := by
    rw [State.waiting, hpim.active, hpriority, hpim.read, hpim.write, hnone]
    rfl
  have hone : ∀ r ∈ s.accepted, r.isBarrier = false → number (ofUid r.uid) s.finals = 1 := by
    intro r hr hbarrier
    have hcount := (h.of_mem hr hbarrier).1
    rw [hwaiting, hpim.forwards, hpim.losses] at hcount
    simpa [number] using hcount
  have hsplit : ∀ {r : Request} {l : List Request}, r ∈ l.filter (fun r => !r.isBarrier) ↔
      r ∈ l ∧ r.isBarrier = false := by
    intro r l
    rw [List.mem_filter, Bool.not_eq_true']
  refine (List.perm_ext_iff_of_nodup ?_ ?_).mpr ?_
  · refine List.nodup_iff_count_le_one.mpr fun r => ?_
    by_cases hr : r ∈ s.finals.filter fun r => !r.isBarrier
    · obtain ⟨hfinal, hbarrier⟩ := hsplit.mp hr
      have hcount := hone r (h.mem_of_mem_finals hfinal) hbarrier
      calc (s.finals.filter fun r => !r.isBarrier).count r
          ≤ s.finals.count r := List.filter_sublist.count_le r
        _ ≤ number (ofUid r.uid) s.finals := by
          refine List.countP_mono_left fun x _ hx => ?_
          rw [beq_iff_eq.mp hx]
          exact decide_eq_true rfl
        _ = 1 := hcount
    · rw [List.count_eq_zero_of_not_mem hr]
      exact Nat.zero_le _
  · exact (h.distinct.imp fun hlt heq => absurd (heq ▸ hlt) (lt_irrefl _)).filter _
  · intro r
    rw [hsplit, hsplit]
    refine ⟨fun hr => ⟨h.mem_of_mem_finals hr.1, hr.2⟩, ?_⟩
    rintro ⟨hr, hbarrier⟩
    refine ⟨?_, hbarrier⟩
    have hpos : 0 < number (ofUid r.uid) s.finals := by
      rw [hone r hr hbarrier]
      exact Nat.one_pos
    obtain ⟨x, hx, huid⟩ := List.countP_pos_iff.mp hpos
    rwa [h.eq_of_uid hr (h.mem_of_mem_finals hx) (of_decide_eq_true huid)] at hx

end AttAcc.Controller
