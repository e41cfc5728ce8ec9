import AttAcc.Dram.RowBuffer
import Mathlib.Logic.Function.Iterate

/-!
# Prerequisites make progress

A request that is served again and again should get its own command issued after a
precharge and an activation, at most. An activation opens the row in all banks that the
request needs. A precharge closes the banks that the request's address selects; if that
leaves a bank open on another row in front of them, in the order in which the prerequisite
goes over the banks, then the same precharge is returned forever (`Stuck`).

Only `MACSB` can get stuck, since its precharge closes fewer banks than it needs.
-/

namespace AttAcc.Dram

variable {o : Organization}

/-- The first bank that lacks the row, or that the precharge closes, is open and not one of
those. -/
def Stuck (banks : Banks o) (access : Access) (node : Node o) (row : ℕ) : Prop :=
  ∃ n, ((access.loop node).find? fun n =>
      access.closes node n || decide (¬(banks n).RowOpen row)) = some n ∧
    access.closes node n = false ∧ (banks n).state = .Opened

/-- Serving the request alone issues its own command after at most two others. -/
def Progresses (banks : Banks o) (access : Access) (node : Node o) (row : ℕ) : Prop :=
  ∃ n ≤ 2, ((fun b : Banks o => b.serve (.access access node row))^[n] banks).preqOfAccess
    access node row = access.command

namespace Banks

variable {banks : Banks o} {access : Access} {node : Node o} {row : ℕ}

/-- After its activation nothing keeps a request from its own command. -/
theorem preq_openAll : (banks.openAll (access.range node) row).preqOfAccess access node row =
    access.command := by
  refine preqOfAccess_of_forall _ _ _ _ ?_
  intro n hn
  rw [openAll, if_pos hn]
  exact Bank.rowOpen_openRow _ _

theorem serve_of_act (h : banks.preqOfAccess access node row = access.act) :
    banks.serve (.access access node row) = banks.openAll (access.range node) row := by
  rw [serve, h, issue_act]

theorem serve_of_pre (h : banks.preqOfAccess access node row = access.pre) :
    banks.serve (.access access node row) = banks.closeAll (access.closes node) := by
  rw [serve, h, issue_pre]

/-- After a precharge a bank lacks the row if it did before, or if it is closed now. -/
theorem rowOpen_closeAll {closes : Node o → Bool} (n : Node o) :
    ((banks.closeAll closes) n).RowOpen row ↔ closes n = false ∧ (banks n).RowOpen row := by
  rw [closeAll]
  cases hcloses : closes n with
  | true => simp
  | false => simp

theorem firstMissing_closeAll : (banks.closeAll (access.closes node)).firstMissing access node row =
    (access.loop node).find? fun n =>
      access.closes node n || decide (¬(banks n).RowOpen row) := by
  rw [firstMissing]
  refine congrArg (fun p => (access.loop node).find? p) (funext fun n => ?_)
  cases hcloses : access.closes node n with
  | true => simp [rowOpen_closeAll, hcloses]
  | false => simp [rowOpen_closeAll, hcloses]

/-- A bank that is still open after a precharge was open before, and not to be closed. -/
theorem state_closeAll_of_opened {closes : Node o → Bool} {n : Node o}
    (h : ((banks.closeAll closes) n).state = .Opened) :
    closes n = false ∧ (banks n).state = .Opened := by
  rw [closeAll] at h
  cases hcloses : closes n with
  | true =>
    rw [hcloses] at h
    cases h
  | false =>
    rw [hcloses] at h
    exact ⟨rfl, h⟩

/-- A stuck request asks for its precharge. -/
theorem preq_of_stuck (h : Stuck banks access node row) :
    banks.preqOfAccess access node row = access.pre := by
  obtain ⟨n, hfind, hcloses, hopened⟩ := h
  have hmissing : ¬(banks n).RowOpen row := by
    have hfound := List.find?_some hfind
    rw [hcloses] at hfound
    simpa using hfound
  -- The banks in front of it have the row open, so it is also the first without the row.
  have hfirst : banks.firstMissing access node row = some n := by
    obtain ⟨-, front, back, hloop, hfront⟩ := List.find?_eq_some_iff_append.mp hfind
    refine List.find?_eq_some_iff_append.mpr ⟨by simpa using hmissing, front, back, hloop, ?_⟩
    intro b hb
    have hclosed := hfront b hb
    rw [Bool.not_or, Bool.and_eq_true] at hclosed
    exact hclosed.2
  rw [preqOfAccess_eq, hfirst]
  simp [hopened]

/-- It stays stuck. -/
theorem stuck_serve (h : Stuck banks access node row) :
    Stuck (banks.serve (.access access node row)) access node row := by
  rw [serve_of_pre (preq_of_stuck h)]
  obtain ⟨n, hfind, hcloses, hopened⟩ := h
  refine ⟨n, ?_, hcloses, ?_⟩
  · rw [← hfind]
    refine congrArg (fun p => (access.loop node).find? p) (funext fun b => ?_)
    cases hb : access.closes node b with
    | true => rfl
    | false => simp [rowOpen_closeAll, hb]
  · rw [closeAll, hcloses]
    exact hopened

theorem stuck_iterate (h : Stuck banks access node row) (n : ℕ) :
    Stuck ((fun b : Banks o => b.serve (.access access node row))^[n] banks) access node row := by
  induction n with
  | zero => exact h
  | succ n ih =>
    rw [Function.iterate_succ_apply']
    exact stuck_serve ih

/-- A request that is not stuck makes progress. -/
theorem progresses_of_not_stuck (h : ¬Stuck banks access node row) :
    Progresses banks access node row := by
  rcases banks.preq_cases access node row with
    ⟨-, hpreq⟩ | ⟨-, -, -, hpreq⟩ | ⟨-, -, -, hpreq⟩
  · exact ⟨0, Nat.zero_le 2, hpreq⟩
  · refine ⟨1, by decide, ?_⟩
    show (banks.serve (.access access node row)).preqOfAccess access node row = _
    rw [serve_of_act hpreq]
    exact preq_openAll
  · -- After the precharge the first bank that lacks the row is closed.
    let banks' := banks.closeAll (access.closes node)
    have hserve : banks.serve (.access access node row) = banks' := serve_of_pre hpreq
    rcases banks'.preq_cases access node row with
      ⟨-, hpreq'⟩ | ⟨-, -, -, hpreq'⟩ | ⟨n, hfirst, hother, -⟩
    · refine ⟨1, by decide, ?_⟩
      show (banks.serve (.access access node row)).preqOfAccess access node row = _
      rw [hserve]
      exact hpreq'
    · refine ⟨2, le_rfl, ?_⟩
      show ((banks.serve (.access access node row)).serve
        (.access access node row)).preqOfAccess access node row = _
      rw [hserve, serve_of_act hpreq']
      exact preq_openAll
    · rw [firstMissing_closeAll] at hfirst
      exact absurd ⟨n, hfirst, state_closeAll_of_opened hother.1⟩ h

end Banks

/-- Only `MACSB` gets stuck. -/
theorem eq_MACSB_of_stuck {banks : Banks o} {access : Access} {node : Node o} {row : ℕ}
    (h : Stuck banks access node row) : access = .MACSB := by
  obtain ⟨n, hfind, hcloses, -⟩ := h
  have hrange := Access.mem_loop.mp (List.mem_of_find?_eq_some hfind)
  cases access with
  | MACSB => rfl
  | RD => exact absurd (hrange.symm.trans hcloses) (by decide)
  | WR => exact absurd (hrange.symm.trans hcloses) (by decide)
  | MACAB => exact absurd (hrange.symm.trans hcloses) (by decide)
  | MACPB => exact absurd (hrange.symm.trans hcloses) (by decide)

/-- **Requests make progress exactly where they are not stuck**: for any banks, and so for
those that any requests have left behind, serving an access alone issues its own command
after at most two prerequisites if and only if it is not stuck. -/
theorem progresses_iff (banks : Banks o) (access : Access) (node : Node o) (row : ℕ) :
    Progresses banks access node row ↔ ¬Stuck banks access node row := by
  refine ⟨?_, Banks.progresses_of_not_stuck⟩
  rintro ⟨n, -, hcommand⟩ hstuck
  rw [Banks.preq_of_stuck (Banks.stuck_iterate hstuck n)] at hcommand
  exact Access.pre_ne_command hcommand

/-- A `MACSB` to rank 1 gets stuck on the banks of rank 0, which another one has left open. -/
theorem not_progresses_rank1 :
    ¬Progresses ((Banks.initial : Banks HBM3_8Gb_2R).serve (.access .MACSB ⟨0, 0, 0, 0⟩ 0))
      .MACSB ⟨0, 1, 0, 0⟩ 1 := by
  rintro ⟨n, -, hcommand⟩
  have hstuck : Stuck ((Banks.initial : Banks HBM3_8Gb_2R).serve
      (.access .MACSB ⟨0, 0, 0, 0⟩ 0)) .MACSB ⟨0, 1, 0, 0⟩ 1 :=
    ⟨⟨0, 0, 0, 0⟩, by decide +kernel, by decide, by decide +kernel⟩
  rw [Banks.preq_of_stuck (Banks.stuck_iterate hstuck n)] at hcommand
  cases hcommand

end AttAcc.Dram
