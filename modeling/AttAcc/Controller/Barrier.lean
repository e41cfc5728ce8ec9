import AttAcc.Controller.Passes
import AttAcc.Library.Runs

/-!
# Barriers order PIM work

A barrier holds back the requests accepted after it: until the ones accepted before it are
finished, only commands that open or close rows are issued for them. The scheduler sees to
this with a flag in a loop, and takes a barrier away only when it is at the head of the PIM
buffer.

The invariant says that the PIM buffer is in the order of acceptance, that a request leaves
it with its final command, and that a barrier which is gone has no earlier request left in
the buffer. What is logged for two requests on either side of a barrier follows.
-/

namespace AttAcc.Controller

open Dram (Command)
open Library

/-- Requests that go to the PIM buffer. -/
def Request.IsPim (r : Request) : Prop := r.typeId.sendBuffer = some .pim

/-- PIM requests `x`, `b` and `y` are accepted in this order, and `b` is a barrier. -/
structure Separated (accepted : List Request) (x b y : Request) : Prop where
  mem_x : x ∈ accepted
  mem_b : b ∈ accepted
  mem_y : y ∈ accepted
  isPim_x : x.IsPim
  isPim_y : y.IsPim
  isBarrier : b.isBarrier = true
  lt_xb : x.uid < b.uid
  lt_by : b.uid < y.uid

/-- An entry of the log is no older than what is logged before it. A command of a request
behind a barrier opens or closes rows, or finds the requests in front of the barrier
finished; and none is issued for those afterwards. -/
def EntryOrdered (accepted : List Request) : Entry → List Entry → Prop
  | .issued clk y cmd, older =>
    (∀ clk' r cmd', .issued clk' r cmd' ∈ older → clk' ≤ clk) ∧
    (∀ x b, Separated accepted x b y → cmd.opensOrCloses = false → x.isBarrier = false →
      ∃ clk', .issued clk' x x.finalCommand ∈ older) ∧
    ∀ b z clk' cmd', .issued clk' z cmd' ∈ older → cmd'.opensOrCloses = false →
      ¬Separated accepted y b z
  | _, _ => True

/-- Every entry of a log is in order. -/
def LogOrdered (accepted : List Request) : List Entry → Prop
  | [] => True
  | e :: older => EntryOrdered accepted e older ∧ LogOrdered accepted older

/-- Everything that orders PIM work. -/
structure Ordered {D : Device} (s : State D) : Prop where
  uid_lt : ∀ r ∈ s.accepted, r.uid < s.accepted.length
  mem_accepted : ∀ id, ∀ r ∈ s.buffer id, r ∈ s.accepted
  isPim_iff : ∀ id, ∀ r ∈ s.buffer id, r.IsPim ↔ id = .pim
  sorted : (s.buffer .pim).Pairwise fun r r' => r.uid < r'.uid
  /-- A PIM request leaves its buffer with its final command. -/
  finished : ∀ x ∈ s.accepted, x.IsPim → x.isBarrier = false →
    x ∈ s.buffer .pim ∨ ∃ clk, .issued clk x x.finalCommand ∈ s.log
  /-- A barrier leaves it when no earlier request is left. -/
  gone : ∀ b ∈ s.accepted, b.isBarrier = true → b ∉ s.buffer .pim →
    ∀ x ∈ s.buffer .pim, b.uid ≤ x.uid
  logged : ∀ clk r cmd, .issued clk r cmd ∈ s.log → r ∈ s.accepted ∧ clk ≤ s.clk
  /-- What is in front of a barrier has left the buffer when work behind it is done. -/
  passed : ∀ clk y cmd, .issued clk y cmd ∈ s.log → cmd.opensOrCloses = false →
    ∀ x b, Separated s.accepted x b y → x ∉ s.buffer .pim
  log : LogOrdered s.accepted s.log

section

variable {accepted : List Request} {x b y : Request}

theorem isPim_of_isBarrier {r : Request} (h : r.isBarrier = true) : r.IsPim := by
  have htype : r.typeId = .PIM_BARRIER := of_decide_eq_true h
  rw [Request.IsPim, htype]
  rfl

/-- A new request is behind all others. -/
theorem Separated.of_cons {r : Request} (hr : r.uid = accepted.length)
    (hy : y.uid < accepted.length) (h : Separated (r :: accepted) x b y) :
    Separated accepted x b y := by
  have hold : ∀ z ∈ r :: accepted, z.uid < accepted.length → z ∈ accepted := by
    intro z hz hlt
    rcases List.mem_cons.mp hz with rfl | hz
    · exact absurd hlt (by rw [hr]; exact Nat.lt_irrefl _)
    · exact hz
  have hby := h.lt_by
  have hxb := h.lt_xb
  exact ⟨hold x h.mem_x (by omega), hold b h.mem_b (by omega), hold y h.mem_y hy, h.isPim_x,
    h.isPim_y, h.isBarrier, hxb, hby⟩

theorem LogOrdered.cons_accepted {r : Request} {log : List Entry}
    (hr : r.uid = accepted.length)
    (hlog : ∀ clk y cmd, .issued clk y cmd ∈ log → y.uid < accepted.length)
    (h : LogOrdered accepted log) : LogOrdered (r :: accepted) log := by
  induction log with
  | nil => exact trivial
  | cons e older ih =>
    refine ⟨?_, ih (fun clk y cmd he => hlog clk y cmd (List.mem_cons_of_mem _ he)) h.2⟩
    cases e with
    | issued clk y cmd =>
      obtain ⟨hclk, hfinished, hpassed⟩ := h.1
      have hy : y.uid < accepted.length := hlog clk y cmd List.mem_cons_self
      refine ⟨hclk, ?_, ?_⟩
      · intro x b hsep
        exact hfinished x b (hsep.of_cons hr hy)
      · intro b z clk' cmd' hz hcmd hsep
        have hlt : z.uid < accepted.length := hlog clk' z cmd' (List.mem_cons_of_mem _ hz)
        exact hpassed b z clk' cmd' hz hcmd (hsep.of_cons hr hlt)
    | forwarded r' => exact trivial
    | delivered r' => exact trivial
    | lost r' => exact trivial

end

variable {D : Device} {w : Watermarks} {s s' : State D}

namespace State

/-- What is left in the buffers without a request. -/
theorem buffer_remove (id id' : BufferId) (pos : ℕ) :
    (s.setBuffer id' ((s.buffers id').remove pos)).buffer id =
      if id = id' then (s.buffer id).eraseIdx pos else s.buffer id := by
  split_ifs with hid
  · rw [hid, buffer, buffers_setBuffer_self]
    rfl
  · rw [buffer, buffers_setBuffer_of_ne hid]

end State

/-- The final command of a barrier is issued at the head of a buffer only. -/
theorem Chosen.head_of_final {fits : Command → Bool} {c : Cursor} (hc : Chosen s fits c)
    (hfinal : c.command = c.req.finalCommand) (hbarrier : c.req.isBarrier = true) :
    c.pos = 0 := by
  obtain ⟨hreq, heligible⟩ := hc.eligible
  rcases heligible with hfront | hrow
  · by_contra hpos
    have hnot := hfront c.pos c.req (Nat.pos_of_ne_zero hpos) le_rfl hreq
    rw [hbarrier] at hnot
    cases hnot
  · have hfinalRow : c.command.opensOrCloses = false := by
      rw [hfinal]
      exact RequestType.opensOrCloses_translation _
    rw [← hc.command, hfinalRow] at hrow
    cases hrow

namespace Ordered

theorem initial (maxSize : BufferId → ℕ) (dram : D.State) :
    Ordered (State.initial maxSize dram) := by
  refine ⟨?_, ?_, ?_, List.Pairwise.nil, ?_, ?_, ?_, ?_, trivial⟩
  all_goals simp [State.initial, State.buffer]

/-- A later time, other pending reads, another state of the device and requests that move
between the other buffers change nothing. -/
theorem congr (h : Ordered s) (haccepted : s'.accepted = s.accepted) (hlog : s'.log = s.log)
    (hclk : s.clk ≤ s'.clk) (hpim : s'.buffer .pim = s.buffer .pim)
    (hothers : ∀ id, id ≠ .pim → ∀ r ∈ s'.buffer id, ∃ id', id' ≠ .pim ∧ r ∈ s.buffer id') :
    Ordered s' := by
  refine ⟨?_, ?_, ?_, ?_, ?_, ?_, ?_, ?_, ?_⟩
  · rw [haccepted]
    exact h.uid_lt
  · intro id r hr
    rw [haccepted]
    by_cases hid : id = .pim
    · rw [hid, hpim] at hr
      exact h.mem_accepted .pim r hr
    · obtain ⟨id', -, hr'⟩ := hothers id hid r hr
      exact h.mem_accepted id' r hr'
  · intro id r hr
    by_cases hid : id = .pim
    · rw [hid, hpim] at hr
      rw [hid]
      exact h.isPim_iff .pim r hr
    · obtain ⟨id', hid', hr'⟩ := hothers id hid r hr
      refine iff_of_false ?_ hid
      intro hrpim
      exact hid' ((h.isPim_iff id' r hr').mp hrpim)
  · rw [hpim]
    exact h.sorted
  · rw [haccepted, hpim, hlog]
    exact h.finished
  · rw [haccepted, hpim]
    exact h.gone
  · rw [haccepted, hlog]
    intro clk r cmd he
    obtain ⟨hr, hle⟩ := h.logged clk r cmd he
    exact ⟨hr, hle.trans hclk⟩
  · rw [haccepted, hpim, hlog]
    exact h.passed
  · rw [haccepted, hlog]
    exact h.log

/-- An entry that is not a command changes nothing. -/
theorem record (h : Ordered s) {e : Entry} (he : ∀ clk r cmd, e ≠ .issued clk r cmd) :
    Ordered (s.record e) := by
  have hmem : ∀ {clk r cmd}, .issued clk r cmd ∈ (s.record e).log ↔
      .issued clk r cmd ∈ s.log := by
    intro clk r cmd
    refine ⟨?_, List.mem_cons_of_mem _⟩
    intro hmem
    rcases List.mem_cons.mp hmem with heq | hmem
    · exact absurd heq.symm (he clk r cmd)
    · exact hmem
  refine ⟨h.uid_lt, h.mem_accepted, h.isPim_iff, h.sorted, ?_, h.gone, ?_, ?_, ?_⟩
  · intro x hx hpim hbarrier
    rcases h.finished x hx hpim hbarrier with hx | ⟨clk, hclk⟩
    · exact .inl hx
    · exact .inr ⟨clk, hmem.mpr hclk⟩
  · intro clk r cmd hr
    exact h.logged clk r cmd (hmem.mp hr)
  · intro clk y cmd hy
    exact h.passed clk y cmd (hmem.mp hy)
  · refine ⟨?_, h.log⟩
    cases e with
    | issued clk r cmd => exact absurd rfl (he clk r cmd)
    | forwarded r => exact trivial
    | delivered r => exact trivial
    | lost r => exact trivial

/-- A request is accepted: into a buffer of its kind, or a read without a buffer. -/
theorem accept (h : Ordered s) {r : Request} (hr : r.uid = s.accepted.length)
    (haccepted : s'.accepted = r :: s.accepted) (hlog : s'.log = s.log) (hclk : s'.clk = s.clk)
    (hbuffers : ∀ id, s'.buffer id = s.buffer id ∨
      s'.buffer id = s.buffer id ++ [r] ∧ (r.IsPim ↔ id = .pim))
    (hpim : r.IsPim → s'.buffer .pim = s.buffer .pim ++ [r]) : Ordered s' := by
  have hlogged : ∀ clk y cmd, .issued clk y cmd ∈ s.log → y.uid < s.accepted.length :=
    fun clk y cmd he => h.uid_lt y (h.logged clk y cmd he).1
  have hsub : ∀ id, ∀ x ∈ s.buffer id, x ∈ s'.buffer id := by
    intro id x hx
    rcases hbuffers id with heq | ⟨heq, -⟩
    · rwa [heq]
    · rw [heq]
      exact List.mem_append_left _ hx
  have hcases : ∀ id, ∀ x ∈ s'.buffer id, x ∈ s.buffer id ∨ x = r ∧ (r.IsPim ↔ id = .pim) := by
    intro id x hx
    rcases hbuffers id with heq | ⟨heq, hkind⟩
    · rw [heq] at hx
      exact .inl hx
    · rw [heq] at hx
      rcases List.mem_append.mp hx with hx | hx
      · exact .inl hx
      · exact .inr ⟨List.mem_singleton.mp hx, hkind⟩
  -- the new request has the largest number, so it is behind everything that is accepted
  refine ⟨?_, ?_, ?_, ?_, ?_, ?_, ?_, ?_, ?_⟩
  · rw [haccepted]
    intro x hx
    rcases List.mem_cons.mp hx with rfl | hx
    · rw [hr]
      exact Nat.lt_succ_self _
    · exact (h.uid_lt x hx).trans (Nat.lt_succ_self _)
  · intro id x hx
    rw [haccepted]
    rcases hcases id x hx with hx | ⟨rfl, -⟩
    · exact List.mem_cons_of_mem _ (h.mem_accepted id x hx)
    · exact List.mem_cons_self
  · intro id x hx
    rcases hcases id x hx with hx | ⟨rfl, hkind⟩
    · exact h.isPim_iff id x hx
    · exact hkind
  · rcases hbuffers .pim with heq | ⟨heq, -⟩
    · rw [heq]
      exact h.sorted
    · rw [heq]
      refine List.pairwise_append.mpr ⟨h.sorted, List.pairwise_singleton _ _, ?_⟩
      intro x hx y hy
      rw [List.mem_singleton.mp hy, hr]
      exact h.uid_lt x (h.mem_accepted .pim x hx)
  · rw [haccepted, hlog]
    intro x hx hxpim hbarrier
    rcases List.mem_cons.mp hx with rfl | hx
    · rw [hpim hxpim]
      exact .inl (List.mem_append_right _ (List.mem_singleton_self _))
    · rcases h.finished x hx hxpim hbarrier with hx | hx
      · exact .inl (hsub .pim x hx)
      · exact .inr hx
  · rw [haccepted]
    intro b hb hbarrier hgone x hx
    have hmem : b ∉ s.buffer .pim := fun hb => hgone (hsub .pim b hb)
    rcases List.mem_cons.mp hb with rfl | hold
    · rw [hpim (isPim_of_isBarrier hbarrier)] at hgone
      exact absurd (List.mem_append_right _ (List.mem_singleton_self _)) hgone
    · rcases hcases .pim x hx with hx | ⟨heq, -⟩
      · exact h.gone b hold hbarrier hmem x hx
      · rw [heq, hr]
        exact (h.uid_lt b hold).le
  · rw [haccepted, hlog, hclk]
    intro clk x cmd he
    exact ⟨List.mem_cons_of_mem _ (h.logged clk x cmd he).1, (h.logged clk x cmd he).2⟩
  · rw [haccepted, hlog]
    intro clk y cmd he hcmd x b hsep
    have hold := hsep.of_cons hr (hlogged clk y cmd he)
    intro hx
    rcases hcases .pim x hx with hx | ⟨rfl, -⟩
    · exact h.passed clk y cmd he hcmd x b hold hx
    · have hlt := h.uid_lt x hold.mem_x
      exact absurd hlt (by rw [hr]; exact Nat.lt_irrefl _)
  · rw [haccepted, hlog]
    exact h.log.cons_accepted hr hlogged

/-- Barriers at the heads of buffers may go. -/
theorem prune (h : Ordered s) (hp : Pruned s s') : Ordered s' := by
  have hsub : ∀ id, ∀ x ∈ s'.buffer id, x ∈ s.buffer id := by
    intro id x hx
    obtain ⟨barriers, -, heq⟩ := hp.buffer id
    rw [heq]
    exact List.mem_append_right _ hx
  obtain ⟨barriers, hbarriers, hpim⟩ := hp.buffer .pim
  have hsorted := h.sorted
  rw [hpim, List.pairwise_append] at hsorted
  -- only barriers go, and only from the front, so no request is left in front of one of them
  refine ⟨?_, ?_, ?_, hsorted.2.1, ?_, ?_, ?_, ?_, ?_⟩
  · rw [hp.accepted]
    exact h.uid_lt
  · intro id x hx
    rw [hp.accepted]
    exact h.mem_accepted id x (hsub id x hx)
  · intro id x hx
    exact h.isPim_iff id x (hsub id x hx)
  · rw [hp.accepted, hp.log]
    intro x hx hxpim hbarrier
    rcases h.finished x hx hxpim hbarrier with hx | hx
    · rw [hpim] at hx
      rcases List.mem_append.mp hx with hx | hx
      · rw [hbarriers x hx] at hbarrier
        cases hbarrier
      · exact .inl hx
    · exact .inr hx
  · rw [hp.accepted]
    intro b hb hbarrier hgone x hx
    by_cases hmem : b ∈ s.buffer .pim
    · rw [hpim] at hmem
      rcases List.mem_append.mp hmem with hmem | hmem
      · exact (hsorted.2.2 b hmem x hx).le
      · exact absurd hmem hgone
    · exact h.gone b hb hbarrier hmem x (hsub .pim x hx)
  · rw [hp.accepted, hp.log, hp.clk]
    exact h.logged
  · rw [hp.accepted, hp.log]
    intro clk y cmd he hcmd x b hsep hx
    exact h.passed clk y cmd he hcmd x b hsep (hsub .pim x hx)
  · rw [hp.accepted, hp.log]
    exact h.log

/-- Work is issued for a PIM request only when everything in front of a barrier before it
has left the buffer. -/
theorem passed_of_chosen (h : Ordered s) {fits : Command → Bool} {c : Cursor}
    (hc : Chosen s fits c) (hcmd : c.command.opensOrCloses = false) {x b : Request}
    (hsep : Separated s.accepted x b c.req) : x ∉ s.buffer .pim := by
  intro hx
  obtain ⟨hreq, heligible⟩ := hc.eligible
  have hpim : c.id = .pim :=
    (h.isPim_iff c.id c.req (List.mem_of_getElem? hreq)).mp hsep.isPim_y
  rw [hpim] at hreq heligible
  -- The barrier is still there, since `x` is.
  have hb : b ∈ s.buffer .pim := by
    by_contra hgone
    exact absurd hsep.lt_xb (Nat.not_lt.mpr (h.gone b hsep.mem_b hsep.isBarrier hgone x hx))
  -- It is behind `x`, hence not the head, and in front of the chosen request.
  obtain ⟨i, hi, hix⟩ := List.mem_iff_getElem.mp hx
  obtain ⟨j, hj, hjb⟩ := List.mem_iff_getElem.mp hb
  obtain ⟨hpos, hposreq⟩ := List.getElem?_eq_some_iff.mp hreq
  have hlt : ∀ {m n : ℕ} (hm : m < (s.buffer .pim).length) (hn : n < (s.buffer .pim).length),
      (s.buffer .pim)[m].uid < (s.buffer .pim)[n].uid → m < n := by
    intro m n hm hn huid
    by_contra hle
    rcases Nat.lt_or_eq_of_le (Nat.not_lt.mp hle) with hnm | rfl
    · have hback := List.pairwise_iff_getElem.mp h.sorted n m hn hm hnm
      exact absurd huid (Nat.not_lt.mpr hback.le)
    · exact absurd huid (Nat.lt_irrefl _)
  have hij : i < j := hlt hi hj (by rw [hix, hjb]; exact hsep.lt_xb)
  have hjpos : j < c.pos := hlt hj hpos (by rw [hjb, hposreq]; exact hsep.lt_by)
  rcases heligible with hfront | hrow
  · have hnot := hfront j b (by omega) hjpos.le (List.getElem?_eq_some_iff.mpr ⟨hj, hjb⟩)
    rw [hsep.isBarrier] at hnot
    cases hnot
  · rw [← hc.command, hcmd] at hrow
    cases hrow

/-- The command of a chosen request is issued. -/
theorem record_issued (h : Ordered s) {fits : Command → Bool} {c : Cursor}
    (hc : Chosen s fits c) : Ordered (s.record (.issued s.clk c.req c.command)) := by
  have hreq := List.mem_of_getElem? hc.eligible.1
  refine ⟨h.uid_lt, h.mem_accepted, h.isPim_iff, h.sorted, ?_, h.gone, ?_, ?_, ?_⟩
  · intro x hx hpim hbarrier
    rcases h.finished x hx hpim hbarrier with hx | ⟨clk, hclk⟩
    · exact .inl hx
    · exact .inr ⟨clk, List.mem_cons_of_mem _ hclk⟩
  · intro clk r cmd he
    rcases List.mem_cons.mp he with heq | he
    · obtain ⟨rfl, rfl, -⟩ := Entry.issued.inj heq
      exact ⟨h.mem_accepted c.id c.req hreq, le_rfl⟩
    · exact h.logged clk r cmd he
  · intro clk y cmd he hcmd x b hsep
    rcases List.mem_cons.mp he with heq | he
    · obtain ⟨-, rfl, rfl⟩ := Entry.issued.inj heq
      exact h.passed_of_chosen hc hcmd hsep
    · exact h.passed clk y cmd he hcmd x b hsep
  · refine ⟨⟨?_, ?_, ?_⟩, h.log⟩
    · intro clk r cmd he
      exact (h.logged clk r cmd he).2
    · intro x b hsep hcmd hbarrier
      rcases h.finished x hsep.mem_x hsep.isPim_x hbarrier with hx | hx
      · exact absurd hx (h.passed_of_chosen hc hcmd hsep)
      · exact hx
    · -- The chosen request is still in the buffer, so nothing behind a barrier is done.
      intro b z clk cmd he hcmd hsep
      have hpim : c.id = .pim := (h.isPim_iff c.id c.req hreq).mp hsep.isPim_x
      rw [hpim] at hreq
      exact h.passed clk z cmd he hcmd c.req b hsep hreq

/-- A request leaves its buffer with its final command, a barrier only from the head. -/
theorem remove (h : Ordered s) {c : Cursor} (hreq : (s.buffer c.id)[c.pos]? = some c.req)
    (hhead : c.req.isBarrier = true → c.pos = 0) (clk : ℤ)
    (hlog : .issued clk c.req c.req.finalCommand ∈ s.log) :
    Ordered (s.setBuffer c.id ((s.buffers c.id).remove c.pos)) := by
  have hsub : ∀ id, List.Sublist
      ((s.setBuffer c.id ((s.buffers c.id).remove c.pos)).buffer id) (s.buffer id) := by
    intro id
    rw [State.buffer_remove]
    split_ifs
    · exact List.eraseIdx_sublist _ _
    · exact List.Sublist.refl _
  -- Whatever else was in a buffer still is.
  have hkeep : ∀ x ∈ s.buffer .pim,
      x ∈ (s.setBuffer c.id ((s.buffers c.id).remove c.pos)).buffer .pim ∨
        x = c.req ∧ c.id = .pim := by
    intro x hx
    rw [State.buffer_remove]
    split_ifs with hid
    · obtain ⟨i, hi⟩ := List.mem_iff_getElem?.mp hx
      by_cases hipos : i = c.pos
      · rw [← hid, ← hipos, hi] at hreq
        exact .inr ⟨Option.some.inj hreq, hid.symm⟩
      · exact .inl (List.mem_eraseIdx_iff_getElem?.mpr ⟨i, hipos, hi⟩)
    · exact .inl hx
  refine ⟨h.uid_lt, ?_, ?_, h.sorted.sublist (hsub .pim), ?_, ?_, h.logged, ?_, h.log⟩
  · intro id x hx
    exact h.mem_accepted id x ((hsub id).subset hx)
  · intro id x hx
    exact h.isPim_iff id x ((hsub id).subset hx)
  · intro x hx hpim hbarrier
    rcases h.finished x hx hpim hbarrier with hx | hx
    · rcases hkeep x hx with hx | ⟨rfl, -⟩
      · exact .inl hx
      · exact .inr ⟨clk, hlog⟩
    · exact .inr hx
  · intro b hb hbarrier hgone x hx
    by_cases hmem : b ∈ s.buffer .pim
    · rcases hkeep b hmem with hmem | ⟨rfl, hid⟩
      · exact absurd hmem hgone
      · have hpos := hhead hbarrier
        rw [hid] at hreq
        obtain ⟨i, hi, hix⟩ := List.mem_iff_getElem.mp ((hsub .pim).subset hx)
        obtain ⟨hlt, hfirst⟩ := List.getElem?_eq_some_iff.mp hreq
        rcases Nat.eq_zero_or_pos i with rfl | hipos
        · simp only [hpos] at hfirst
          rw [← hix, hfirst]
        · have huid := List.pairwise_iff_getElem.mp h.sorted c.pos i hlt hi (by omega)
          rw [hfirst, hix] at huid
          exact huid.le
    · exact h.gone b hb hbarrier hmem x ((hsub .pim).subset hx)
  · intro clk' y cmd he hcmd x b hsep hx
    exact h.passed clk' y cmd he hcmd x b hsep ((hsub .pim).subset hx)

/-- A request that is not a PIM request moves to the active buffer, or is lost. -/
theorem moveToActive (h : Ordered s) {c : Cursor}
    (hreq : (s.buffer c.id)[c.pos]? = some c.req) (hid : c.id ≠ .pim) :
    Ordered (s.moveToActive c) := by
  have hrecord : Ordered
      (if (s.buffers .active).isFull then s.record (.lost c.req) else s) := by
    split_ifs
    · exact h.record fun _ _ _ he => by cases he
    · exact h
  have hbuffers : ∀ id,
      (if (s.buffers .active).isFull then s.record (.lost c.req) else s).buffers id =
        s.buffers id := by
    intro id
    split_ifs
    · rfl
    · rfl
  rw [State.moveToActive]
  generalize (if (s.buffers .active).isFull then s.record (.lost c.req) else s) = s₁
    at hrecord hbuffers
  have hmem : c.req ∈ s₁.buffer c.id := by
    rw [State.buffer, hbuffers]
    exact List.mem_of_getElem? hreq
  -- every request is where it was, but for the one that is moved
  have henqueue : ∀ id, ∀ r ∈ (s₁.setBuffer .active ((s₁.buffers .active).enqueue c.req)).buffer id,
      r ∈ s₁.buffer id ∨ id = .active ∧ r = c.req := by
    intro id r hr
    by_cases hactive : id = .active
    · rw [hactive, State.buffer, State.buffers_setBuffer_self, ReqBuffer.enqueue] at hr
      split_ifs at hr
      · exact .inl (by rw [hactive]; exact hr)
      · rcases List.mem_append.mp hr with hr | hr
        · exact .inl (by rw [hactive]; exact hr)
        · exact .inr ⟨hactive, List.mem_singleton.mp hr⟩
    · rw [State.buffer, State.buffers_setBuffer_of_ne hactive] at hr
      exact .inl hr
  refine hrecord.congr rfl rfl le_rfl ?_ ?_
  · show (State.setBuffer _ _ _).buffer .pim = _
    rw [State.buffer, State.buffers_setBuffer_of_ne hid.symm,
      State.buffers_setBuffer_of_ne (by decide)]
  · intro id hne r hr
    have hr' : r ∈ (s₁.setBuffer .active ((s₁.buffers .active).enqueue c.req)).buffer id := by
      rw [State.buffer_remove] at hr
      split_ifs at hr
      · exact (List.eraseIdx_sublist _ _).subset hr
      · exact hr
    rcases henqueue id r hr' with hr' | ⟨-, rfl⟩
    · exact ⟨id, hne, hr'⟩
    · exact ⟨c.id, hid, hmem⟩

/-- A request that a pass has found is served. -/
theorem issue (h : Ordered s) {fits : Command → Bool} {c : Cursor} (hc : Chosen s fits c) :
    Ordered (s.issue c) := by
  have hrecord := h.record_issued hc
  have hdram : Ordered { s.record (.issued s.clk c.req c.command) with
      dram := D.issueCommand s.dram c.command c.req.addrVec } :=
    hrecord.congr rfl rfl le_rfl rfl fun id hid r hr => ⟨id, hid, hr⟩
  rw [State.issue]
  simp only
  split_ifs with hfinal hmoves
  · rw [State.finish]
    -- the pending reads play no part in the order
    have hpending : ∀ s₁ : State D, Ordered s₁ → Ordered
        (if c.req.typeId = .Read then
          { s₁ with pending := s₁.pending ++ [{ c.req with depart := s₁.clk + D.readLatency }] }
        else s₁) := by
      intro s₁ h₁
      split_ifs
      · exact h₁.congr rfl rfl le_rfl rfl fun id hid r hr => ⟨id, hid, hr⟩
      · exact h₁
    refine (hpending _ hdram).remove ?_ (hc.head_of_final hfinal) s.clk ?_
    · split_ifs
      · exact hc.eligible.1
      · exact hc.eligible.1
    · rw [← hfinal]
      split_ifs
      · exact List.mem_cons_self
      · exact List.mem_cons_self
  · refine hdram.moveToActive hc.eligible.1 ?_
    intro hpim
    have hisPim := hc.isPim hpim
    simp [State.moves, State.record, hisPim] at hmoves
  · exact hdram

theorem serve (h : Ordered s) {fits : Command → Bool} {o : Outcome}
    (hc : ∀ c, o = .found c → Chosen s fits c) : Ordered (s.serve o) := by
  cases o with
  | found c => exact h.issue (hc c rfl)
  | stopped reqIt => exact h

/-- A pass, and what it finds is served. -/
theorem pass (h : Ordered s) (fits : Command → Bool) :
    Ordered ((s.schedule w fits).1.serve (s.schedule w fits).2) := by
  obtain ⟨hpruned, hchosen⟩ := s.schedule_spec w fits
  exact (h.prune hpruned).serve hchosen

theorem issuePasses (h : Ordered s) (stale : Option Command) :
    Ordered (s.issuePasses w stale) :=
  (h.pass _).pass _

/-- A request that a buffer accepts. -/
theorem acceptInto (h : Ordered s) {id : BufferId} {r : Request} (hr : r.uid = s.accepted.length)
    (hkind : r.IsPim ↔ id = .pim) : Ordered (s.accept id r).1 := by
  rw [State.accept]
  split_ifs with hfull
  · exact h
  · have henqueue : (s.buffers id).enqueue r =
        { s.buffers id with buffer := s.buffer id ++ [r] } := if_neg hfull
    refine h.accept hr rfl rfl rfl ?_ ?_
    · intro id'
      by_cases hid : id' = id
      · refine .inr ⟨?_, by rw [hid]; exact hkind⟩
        show ((s.setBuffer id _).buffers id').buffer = _
        rw [hid, State.buffers_setBuffer_self, henqueue]
      · refine .inl ?_
        show ((s.setBuffer id _).buffers id').buffer = _
        rw [State.buffers_setBuffer_of_ne hid]
    · intro hpim
      show ((s.setBuffer id _).buffers .pim).buffer = _
      rw [hkind.mp hpim, State.buffers_setBuffer_self, ← hkind.mp hpim, henqueue]

theorem prioritySend (h : Ordered s) (p : Packet) (hp : p.typeId.sendBuffer ≠ some .pim) :
    Ordered (s.prioritySend p).1 := by
  refine h.acceptInto rfl (iff_of_false ?_ (by decide))
  exact hp

theorem refreshTick (h : Ordered s) {refreshes : List AddrVec}
    (hs : State.refreshTick refreshes s = some s') : Ordered s' :=
  State.refreshTick_induction (P := Ordered) (fun _ _ h => h.prioritySend _ nofun) h hs

theorem send (h : Ordered s) {p : Packet} {r : State D × Bool} (hr : s.send p = some r) :
    Ordered r.1 := by
  rw [State.send] at hr
  simp only at hr
  split_ifs at hr with hforward
  · obtain rfl := Option.some.inj hr
    have hread : ¬Request.IsPim { Request.new s.accepted.length p with depart := s.clk + 1 } := by
      show ¬p.typeId.sendBuffer = some .pim
      rw [hforward.1]
      decide
    have hrecord : Ordered
        (s.record (.forwarded { Request.new s.accepted.length p with depart := s.clk + 1 })) :=
      h.record fun _ _ _ he => by cases he
    exact hrecord.accept rfl rfl rfl rfl (fun id => .inl rfl) fun hpim => absurd hpim hread
  · obtain ⟨id, hid, rfl⟩ := Option.map_eq_some_iff.mp hr
    refine h.acceptInto rfl ?_
    show p.typeId.sendBuffer = some .pim ↔ id = .pim
    rw [hid, Option.some.injEq]

theorem beginTick (h : Ordered s) : Ordered s.beginTick := by
  have hclk : Ordered ({ s with clk := s.clk + 1, dram := D.tick s.dram } : State D) :=
    h.congr rfl rfl (by simp) rfl fun id hid r hr => ⟨id, hid, hr⟩
  rw [State.beginTick, State.serveCompletedReads]
  split
  · exact hclk
  · next req rest hpending =>
    split_ifs
    · have hrecord := hclk.record (e := .delivered req) fun _ _ _ he => by cases he
      exact hrecord.congr rfl rfl le_rfl rfl fun id hid r hr => ⟨id, hid, hr⟩
    · exact hclk

theorem step (h : Ordered s) (e : Event) : Ordered (step w s e) := by
  cases e with
  | send p =>
    rw [Controller.step]
    cases hsend : s.send p with
    | none => exact h
    | some r => exact h.send hsend
  | tick refreshes stale =>
    rw [Controller.step, State.tick]
    cases hrefresh : State.refreshTick refreshes s.beginTick with
    | none => exact h
    | some s₁ => exact (h.beginTick.refreshTick hrefresh).issuePasses stale

/-- Everything is in order after any run. -/
theorem run (maxSize : BufferId → ℕ) (dram : D.State) (events : List Event) :
    Ordered (events.foldl (Controller.step w) (State.initial maxSize dram)) :=
  foldl_of_step (fun _ e h => h.step e) (initial maxSize dram)

/-- What a log in order says of each of its entries. -/
theorem entry (h : Ordered s) {newer older : List Entry} {e : Entry}
    (hlog : s.log = newer ++ e :: older) : EntryOrdered s.accepted e older := by
  have hordered := h.log
  rw [hlog] at hordered
  clear hlog
  induction newer with
  | nil => exact hordered.1
  | cons e' newer ih => exact ih hordered.2

end Ordered

/-- **Barriers order PIM work**: in every run, with any device and any arrivals, let `x`, a
barrier and `y` be accepted by the PIM buffer in this order. When a command that opens or
closes no row is issued for `y`, its final command among them, then the final command of `x`
has been issued, no later than in the same cycle, and no command is issued for `x` from then
on. -/
theorem barrier_order {D : Device} (w : Watermarks) (maxSize : BufferId → ℕ) (dram : D.State)
    (events : List Event) {s : State D}
    (hs : s = events.foldl (step w) (State.initial maxSize dram)) {x b y : Request}
    (hsep : Separated s.accepted x b y) {newer older : List Entry} {clk : ℤ} {cmd : Command}
    (hlog : s.log = newer ++ .issued clk y cmd :: older) (hcmd : cmd.opensOrCloses = false) :
    (x.isBarrier = false → ∃ clk' ≤ clk, .issued clk' x x.finalCommand ∈ older) ∧
      ∀ clk' cmd', .issued clk' x cmd' ∉ newer := by
  have h : Ordered s := by
    rw [hs]
    exact .run maxSize dram events
  obtain ⟨hclk, hfinished, -⟩ := h.entry hlog
  refine ⟨?_, ?_⟩
  · intro hbarrier
    obtain ⟨clk', hfinal⟩ := hfinished x b hsep hcmd hbarrier
    exact ⟨clk', hclk clk' x x.finalCommand hfinal, hfinal⟩
  · intro clk' cmd' hx
    obtain ⟨front, back, rfl⟩ := List.append_of_mem hx
    have hsplit : s.log = front ++ .issued clk' x cmd' :: (back ++ .issued clk y cmd :: older) := by
      rw [hlog, List.append_assoc, List.cons_append]
    have hentry := h.entry hsplit
    exact hentry.2.2 b y clk cmd (List.mem_append_right _ List.mem_cons_self) hcmd hsep

/-- A device on which every command is ready at once and needs no other. -/
def readyDevice : Device where
  State := Unit
  tick := id
  getPreqCommand _ cmd _ := cmd
  checkReady _ _ _ := true
  checkRowbufferHit _ _ _ := false
  issueCommand dram _ _ := dram
  readLatency := 1

/-- The default watermarks. -/
def defaultWatermarks : Watermarks := ⟨1 / 5, 4 / 5⟩

/-- Request `uid` of a type, to address 0, accepted at the start. -/
def firstRequest (uid : ℕ) (typeId : RequestType) : Request := ⟨uid, 0, [], typeId, 0, -1⟩

/-- Two MACs with a barrier between them, and two cycles. -/
def macBarrierMac : List Event :=
  [.send ⟨0, [], .PIM_MAC_AB⟩, .send ⟨0, [], .PIM_BARRIER⟩, .send ⟨0, [], .PIM_MAC_AB⟩,
    .tick [] none, .tick [] none]

/-- The second MAC waits for the first. -/
theorem barrier_order_macs : ∃ clk' ≤ (2 : ℤ),
    .issued clk' (firstRequest 0 .PIM_MAC_AB) .MACAB ∈
      [Entry.issued 1 (firstRequest 0 .PIM_MAC_AB) .MACAB] := by
  obtain ⟨s, hs⟩ : ∃ s, s = macBarrierMac.foldl (step defaultWatermarks)
    (State.initial (D := readyDevice) (fun _ => 32) ()) := ⟨_, rfl⟩
  have haccepted : s.accepted = [firstRequest 2 .PIM_MAC_AB, firstRequest 1 .PIM_BARRIER,
      firstRequest 0 .PIM_MAC_AB] := by
    rw [hs]
    decide +kernel
  have hlog : s.log = [] ++ .issued 2 (firstRequest 2 .PIM_MAC_AB) .MACAB ::
      [.issued 1 (firstRequest 0 .PIM_MAC_AB) .MACAB] := by
    rw [hs]
    decide +kernel
  have hsep : Separated s.accepted (firstRequest 0 .PIM_MAC_AB) (firstRequest 1 .PIM_BARRIER)
      (firstRequest 2 .PIM_MAC_AB) := by
    refine ⟨?_, ?_, ?_, rfl, rfl, rfl, by decide, by decide⟩
    all_goals simp [haccepted]
  exact (barrier_order (D := readyDevice) defaultWatermarks (fun _ => 32) () macBarrierMac hs hsep
    hlog rfl).1 rfl

end AttAcc.Controller
