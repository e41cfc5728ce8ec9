import Mathlib.Data.Nat.ModEq
import Mathlib.Data.Set.Pairwise.Basic
import Mathlib.Order.CompletePartialOrder
import Mathlib.Order.Interval.Set.Disjoint
import Mathlib.Tactic.WLOG

/-!
# Regions of a memory

A memory is accessed in cells of `g` bytes. A region starts at some byte, not always the
first of a cell, and takes a number of cells from there on. Regions that start a stride
apart are disjoint exactly when the stride covers one (`pairwiseDisjoint_cells_iff`).
-/

namespace Library

variable {g base base' width width' stride n : ℕ}

/-- The cells of a region of `width` cells from byte `base` on. -/
def cells (g base width : ℕ) : Set ℕ := Set.Ico (base / g) (base / g + width)

theorem mem_cells (hg : 0 < g) {i : ℕ} (hi : i < width) :
    (base + i * g) / g ∈ cells g base width := by
  rw [Nat.add_mul_div_right _ _ hg]
  exact ⟨Nat.le_add_right _ _, Nat.add_lt_add_left hi _⟩

/-- A region that starts after the end of another is disjoint from it. -/
theorem disjoint_cells (hg : 0 < g) (h : base + width * g ≤ base') :
    Disjoint (cells g base width) (cells g base' width') := by
  have hend : base / g + width ≤ base' / g := by
    rw [← Nat.add_mul_div_right _ _ hg]
    exact Nat.div_le_div_right h
  rw [Set.disjoint_left]
  intro i hi hi'
  exact absurd (lt_of_lt_of_le hi.2 hend) (Nat.not_lt.mpr hi'.1)

/-- A stride that covers a region keeps all of them apart. -/
theorem disjoint_cells_of_le_stride (hg : 0 < g) (h : width * g ≤ stride) {i j : ℕ}
    (hij : i ≠ j) : Disjoint (cells g (base + i * stride) width)
      (cells g (base + j * stride) width) := by
  wlog hlt : i < j generalizing i j
  · exact (this hij.symm (lt_of_le_of_ne (Nat.not_lt.mp hlt) hij.symm)).symm
  · refine disjoint_cells hg ?_
    have hnext : (i + 1) * stride ≤ j * stride := Nat.mul_le_mul_right _ hlt
    rw [Nat.add_mul, Nat.one_mul] at hnext
    omega

/-- With a shorter stride the second region starts inside the first. -/
theorem not_disjoint_cells_of_stride_lt (hg : 0 < g) (hbase : g ∣ base)
    (h : stride < width * g) :
    ¬Disjoint (cells g base width) (cells g (base + stride) width) := by
  have hcell : (base + stride) / g = base / g + stride / g := Nat.add_div_of_dvd_right hbase
  have hlt : stride / g < width := (Nat.div_lt_iff_lt_mul hg).mpr h
  have hfirst : (base + stride) / g ∈ cells g base width := by
    rw [hcell]
    exact ⟨Nat.le_add_right _ _, Nat.add_lt_add_left hlt _⟩
  have hsecond : (base + stride) / g ∈ cells g (base + stride) width :=
    ⟨le_rfl, Nat.lt_add_of_pos_right (Nat.zero_lt_of_lt hlt)⟩
  intro hdisjoint
  exact Set.disjoint_left.mp hdisjoint hfirst hsecond

/-- **Regions a stride apart are disjoint exactly when the stride covers a region**, or
there is at most one. -/
theorem pairwiseDisjoint_cells_iff (hg : 0 < g) (hbase : g ∣ base) :
    (Set.Iio n).PairwiseDisjoint (fun i => cells g (base + i * stride) width) ↔
      n ≤ 1 ∨ width * g ≤ stride := by
  refine ⟨?_, ?_⟩
  · intro hdisjoint
    by_contra hneg
    obtain ⟨hn, hstride⟩ := not_or.mp hneg
    have h01 : Disjoint (cells g (base + 0 * stride) width) (cells g (base + 1 * stride) width) :=
      hdisjoint (Set.mem_Iio.mpr (by omega)) (Set.mem_Iio.mpr (by omega)) Nat.zero_ne_one
    rw [Nat.zero_mul, Nat.add_zero, Nat.one_mul] at h01
    exact not_disjoint_cells_of_stride_lt hg hbase (Nat.lt_of_not_le hstride) h01
  · rintro (hn | hstride) i hi j hj hij
    · have hi := Set.mem_Iio.mp hi
      have hj := Set.mem_Iio.mp hj
      exact absurd (by omega : i = j) hij
    · exact disjoint_cells_of_le_stride hg hstride hij

end Library
