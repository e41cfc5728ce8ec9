import AttAcc.Dram.Banks
import AttAcc.Library.Runs

/-!
# Row buffers over whole runs

A bank has one row buffer: at most one of its rows should be open at a time, and it should
be closed exactly when none is. A precharge restores this, and an activation keeps it where
the banks that it opens are closed, or open on the same row.

The prerequisites look at the first bank in their range that lacks the row. If it is closed,
they ask for an activation of the whole range, also if a later bank is open on another row
(`Clash`). So the invariant holds throughout exactly the runs without such a step
(`rowBuffers_iff`). Runs with such steps exist: `PRESB` closes fewer banks than `ACTSB`
opens, and a single read leaves a bank open in the range of any broadcast.
-/

namespace AttAcc.Dram

open Library

variable {o : Organization}

/-- The row buffer of a bank: one open row at most, and none in a closed bank only. -/
structure Bank.RowBuffer (b : Bank) : Prop where
  card_le_one : b.rowState.card ≤ 1
  closed_iff : b.state = .Closed ↔ b.rowState = ∅

/-- Every bank of a channel has a row buffer. -/
def Banks.RowBuffers (banks : Banks o) : Prop := ∀ node, (banks node).RowBuffer

/-- An activation of a range that holds a bank with another row open: the first bank that
lacks the row is closed. -/
def Clash (banks : Banks o) : Request o → Prop
  | .access access node row =>
    (∃ n, banks.firstMissing access node row = some n ∧ (banks n).state = .Closed) ∧
      ∃ n, access.range node n = true ∧ (banks n).OtherOpen row
  | .REFab _ => False

namespace Bank

theorem rowBuffer_initial : initial.RowBuffer where
  card_le_one := Nat.zero_le 1
  closed_iff := by simp [initial]

theorem rowBuffer_closeRows (b : Bank) : b.closeRows.RowBuffer where
  card_le_one := Nat.zero_le 1
  closed_iff := by simp [closeRows]

/-- Opening a row keeps the row buffer unless another row is open. -/
theorem rowBuffer_openRow_iff {b : Bank} {row : ℕ} (h : b.RowBuffer) :
    (b.openRow row).RowBuffer ↔ ¬b.OtherOpen row := by
  refine ⟨?_, ?_⟩
  · rintro hopen ⟨hstate, hrow⟩
    have hnonempty : b.rowState ≠ ∅ := by
      intro hempty
      rw [h.closed_iff.mpr hempty] at hstate
      cases hstate
    have hcard : 1 ≤ b.rowState.card :=
      Finset.card_pos.mpr (Finset.nonempty_iff_ne_empty.mpr hnonempty)
    have hcard' : (insert row b.rowState).card ≤ 1 := hopen.card_le_one
    rw [Finset.card_insert_of_notMem hrow] at hcard'
    omega
  · intro hother
    have hcard : (insert row b.rowState).card ≤ 1 := by
      rcases b.closed_or_rowOpen_or_otherOpen row with hclosed | hopen | hopen
      · rw [h.closed_iff.mp hclosed]
        exact (Finset.card_insert_of_notMem (Finset.notMem_empty row)).le
      · rw [Finset.insert_eq_self.mpr hopen.2]
        exact h.card_le_one
      · exact absurd hopen hother
    exact ⟨hcard, by simp [openRow]⟩

end Bank

namespace Banks

variable {banks : Banks o}

theorem rowBuffers_initial : (initial : Banks o).RowBuffers := fun _ => Bank.rowBuffer_initial

theorem rowBuffers_closeAll (h : banks.RowBuffers) (range : Node o → Bool) :
    (banks.closeAll range).RowBuffers := by
  intro node
  rw [closeAll]
  split_ifs
  · exact Bank.rowBuffer_closeRows _
  · exact h node

theorem rowBuffers_openAll_iff (h : banks.RowBuffers) (range : Node o → Bool) (row : ℕ) :
    (banks.openAll range row).RowBuffers ↔
      ¬∃ node, range node = true ∧ (banks node).OtherOpen row := by
  refine ⟨?_, ?_⟩
  · rintro hopen ⟨node, hrange, hother⟩
    have hnode := hopen node
    rw [openAll, if_pos hrange] at hnode
    exact (Bank.rowBuffer_openRow_iff (h node)).mp hnode hother
  · intro hno node
    rw [openAll]
    split_ifs with hrange
    · refine (Bank.rowBuffer_openRow_iff (h node)).mpr ?_
      intro hother
      exact hno ⟨node, hrange, hother⟩
    · exact h node

/-- Serving an access keeps the row buffers unless it clashes. -/
theorem rowBuffers_serve_access_iff (h : banks.RowBuffers) (access : Access) (node : Node o)
    (row : ℕ) : (banks.serve (.access access node row)).RowBuffers ↔
      ¬Clash banks (.access access node row) := by
  rw [serve]
  rcases banks.preq_cases access node row with
    ⟨hall, hpreq⟩ | ⟨first, hfirst, hclosed, hpreq⟩ | ⟨first, hfirst, hother, hpreq⟩
  · -- The access itself is issued, which leaves the banks as they are.
    rw [hpreq, issue_command]
    refine iff_of_true h ?_
    rintro ⟨-, n, hrange, hother⟩
    exact hother.2 (hall n hrange).2
  · rw [hpreq, issue_act, rowBuffers_openAll_iff h]
    refine not_congr ⟨fun hother => ⟨⟨first, hfirst, hclosed⟩, hother⟩, And.right⟩
  · rw [hpreq, issue_pre]
    refine iff_of_true (rowBuffers_closeAll h _) ?_
    rintro ⟨⟨n, hn, hclosed⟩, -⟩
    obtain rfl := Option.some.inj (hfirst.symm.trans hn)
    rw [hother.1] at hclosed
    cases hclosed

/-- A refresh keeps the row buffers. -/
theorem rowBuffers_serve_REFab (h : banks.RowBuffers) (node : Node o) :
    (banks.serve (.REFab node)).RowBuffers := by
  rw [serve, Preq.RequireAllBanksClosed]
  split_ifs
  · exact h
  · exact rowBuffers_closeAll h (allBanks node)

theorem rowBuffers_serve_iff (h : banks.RowBuffers) (req : Request o) :
    (banks.serve req).RowBuffers ↔ ¬Clash banks req := by
  cases req with
  | access access node row => exact rowBuffers_serve_access_iff h access node row
  | REFab node => exact iff_of_true (rowBuffers_serve_REFab h node) not_false

end Banks

/-- **Row buffers over whole runs**: from closed banks, every state of a run of requests has
at most one row open in every bank, and none exactly in the closed banks, if and only if no
step of it is a clash. -/
theorem rowBuffers_iff (o : Organization) (reqs : List (Request o)) :
    Throughout Banks.serve Banks.RowBuffers Banks.initial reqs ↔
      Along Banks.serve (fun banks req => ¬Clash banks req) Banks.initial reqs :=
  throughout_iff_along (fun _ req h => Banks.rowBuffers_serve_iff h req)
    Banks.rowBuffers_initial

/-- A channel of `HBM3_8Gb_2R`. -/
abbrev HBM3_8Gb_2R : Organization := ⟨2, 2, 4, 4⟩

/-- The same banks on one row, and then on another. -/
def twoRows : List (Request HBM3_8Gb_2R) :=
  [.access .MACSB ⟨0, 0, 0, 0⟩ 0, .access .MACSB ⟨0, 0, 0, 0⟩ 1, .access .MACSB ⟨0, 0, 0, 0⟩ 1]

/-- `PRESB` closes the banks of bank group 0 only, so the second `ACTSB` opens row 1 in those
of bank group 1 while row 0 is open there. -/
theorem not_rowBuffers_twoRows :
    ¬Throughout Banks.serve Banks.RowBuffers Banks.initial twoRows := by
  intro h
  have hnode := (h.last ⟨0, 0, 1, 0⟩).card_le_one
  revert hnode
  decide +kernel

end AttAcc.Dram
