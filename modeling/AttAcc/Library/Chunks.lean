import Mathlib.Algebra.Order.Floor.Div
import Mathlib.Algebra.BigOperators.Group.List.Basic

/-!
# Cutting a range into chunks

The items `0, …, total - 1` in chunks of `size`, the last of them perhaps shorter. The
chunks partition the items, so a sum over chunks of a value times the number of items is a
sum over the items, each at the value of its chunk.
-/

namespace Library

variable {total size : ℕ}

/-- How many items chunk `i` has. -/
def chunkLength (total size i : ℕ) : ℕ := min size (total - i * size)

/-- The items of chunk `i`. -/
def chunk (total size i : ℕ) : List ℕ := List.range' (i * size) (chunkLength total size i)

/-- The first `n` chunks, one after the other, are the first items. -/
theorem flatMap_chunk (n : ℕ) :
    (List.range n).flatMap (chunk total size) = List.range (min total (n * size)) := by
  induction n with
  | zero => simp
  | succ n ih =>
    rw [List.range_succ, List.flatMap_append, ih, List.flatMap_singleton, chunk, chunkLength]
    rcases Nat.le_total total (n * size) with hdone | hmore
    · have hlast : total ≤ (n + 1) * size := hdone.trans (Nat.mul_le_mul_right size n.le_succ)
      rw [min_eq_left hdone, min_eq_left hlast, Nat.sub_eq_zero_of_le hdone, min_zero,
        List.range'_zero, List.append_nil]
    · have hlast : n * size + min size (total - n * size) = min total ((n + 1) * size) := by
        rw [Nat.succ_mul]
        omega
      rw [min_eq_right hmore, ← hlast, List.range_eq_range', List.range_eq_range',
        ← List.range'_append_1, Nat.zero_add]

/-- All chunks, one after the other, are all items. -/
theorem flatMap_chunk_eq_range (hsize : 0 < size) :
    (List.range (total ⌈/⌉ size)).flatMap (chunk total size) = List.range total := by
  have henough : total ≤ (total ⌈/⌉ size) * size := by
    rw [mul_comm]
    exact le_smul_ceilDiv hsize
  rw [flatMap_chunk, min_eq_left henough]

/-- An item of a chunk tells which chunk that is. -/
theorem div_of_mem_chunk {i item : ℕ} (h : item ∈ chunk total size i) : item / size = i := by
  rw [chunk, chunkLength, List.mem_range'_1] at h
  obtain ⟨hle, hlt⟩ := h
  refine Nat.div_eq_of_lt_le hle ?_
  rw [Nat.succ_mul]
  omega

/-- Every chunk but the last is whole. -/
theorem chunkLength_of_lt {i : ℕ} (hsize : 0 < size) (h : i + 1 < total ⌈/⌉ size) :
    chunkLength total size i = size := by
  have hlt : ¬total ≤ size * (i + 1) := fun hle =>
    absurd ((ceilDiv_le_iff_le_mul hsize).mpr hle) (not_le.mpr h)
  rw [Nat.mul_succ, mul_comm] at hlt
  rw [chunkLength]
  omega

theorem chunkLength_le (total size i : ℕ) : chunkLength total size i ≤ size := min_le_left _ _

/-- The last chunk has the items that the others leave. -/
theorem chunkLength_last (hsize : 0 < size) (htotal : 0 < total) :
    chunkLength total size (total ⌈/⌉ size - 1) + (total ⌈/⌉ size - 1) * size = total := by
  have hle : total ≤ size * (total ⌈/⌉ size) := le_smul_ceilDiv hsize
  obtain ⟨n, hn⟩ : ∃ n, total ⌈/⌉ size = n + 1 := by
    refine Nat.exists_eq_succ_of_ne_zero ?_
    intro hzero
    rw [hzero] at hle
    omega
  have hbefore : size * n < total := by
    by_contra hmany
    have hmany := (ceilDiv_le_iff_le_mul hsize).mpr (not_lt.mp hmany)
    omega
  rw [hn, Nat.mul_succ] at hle
  rw [hn, Nat.add_sub_cancel, chunkLength, mul_comm n]
  omega

/-- Whole chunks make up the items. -/
theorem ceilDiv_mul_of_dvd (hsize : 0 < size) (h : size ∣ total) :
    total ⌈/⌉ size * size = total := by
  obtain ⟨k, rfl⟩ := h
  have hcount : (size * k) ⌈/⌉ size = k := smul_ceilDiv hsize k
  rw [hcount, mul_comm]

/-- The chunks have room for less than another chunk. -/
theorem mul_ceilDiv_lt_add (hsize : 0 < size) (total : ℕ) :
    size * (total ⌈/⌉ size) < total + size := by
  rw [Nat.ceilDiv_eq_add_pred_div]
  have hle := Nat.mul_div_le (total + size - 1) size
  omega

/-- They have room for the items only exactly if all of them are whole. -/
theorem mul_ceilDiv_eq_iff (hsize : 0 < size) : size * (total ⌈/⌉ size) = total ↔ size ∣ total := by
  constructor
  · intro heq
    exact Dvd.intro _ heq
  · intro hdvd
    rw [mul_comm]
    exact ceilDiv_mul_of_dvd hsize hdvd

/-- What the chunks cost, each item at the value of its chunk. -/
theorem sum_chunkLength_nsmul {M : Type*} [AddCommMonoid M] (hsize : 0 < size) (value : ℕ → M) :
    ((List.range (total ⌈/⌉ size)).map fun i => chunkLength total size i • value i).sum =
      ((List.range total).map fun item => value (item / size)).sum := by
  conv_rhs => rw [← flatMap_chunk_eq_range hsize, List.flatMap, List.map_flatten, List.sum_flatten]
  rw [List.map_map, List.map_map]
  refine congrArg List.sum (List.map_congr_left ?_)
  intro i _
  have hconst : (chunk total size i).map (fun item => value (item / size)) =
      List.replicate (chunkLength total size i) (value i) := by
    rw [List.eq_replicate_iff]
    refine ⟨?_, ?_⟩
    · rw [List.length_map, chunk, List.length_range']
    · intro v hv
      obtain ⟨item, hitem, rfl⟩ := List.mem_map.mp hv
      rw [div_of_mem_chunk hitem]
  rw [Function.comp_apply, Function.comp_apply, hconst, List.sum_replicate]

end Library
