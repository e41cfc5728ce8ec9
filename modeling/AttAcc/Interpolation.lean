import AttAcc.Sampling
import AttAcc.Library.Except
import Mathlib.Algebra.BigOperators.Ring.List
import Mathlib.Algebra.Order.BigOperators.Group.List
import Mathlib.Tactic.FieldSimp
import Mathlib.Tactic.Linarith
import Mathlib.Tactic.LinearCombination
import Mathlib.Tactic.Ring

/-!
# Sampling and interpolating a sum

`_sample_indices` takes the first item, the last and some in the first half of those in
between, so with more items than samples the last but one is interpolated, on the line
through the last two samples. A sum of values that are affine but for the last is therefore
off by a positive multiple of how far the last value is off the line of the others
(`sampledTotal_affine`).
-/

namespace AttAcc

open Library

/-! ### Which chunks are sampled -/

/-- The sample at position `pos`, when there are more items than samples. -/
def sampledIndex (nItems sampleCount pos : ℕ) : ℕ :=
  (roundHalfEven (((nItems - 1 : ℕ) : ℚ) *
    (((2 ^ pos - 1 : ℕ) : ℚ) / (max 1 (2 ^ (sampleCount - 1) - 1) : ℕ)))).toNat

section Indices

variable {n count : ℕ}

theorem sampleIndices_of_le (h : n ≤ count) : sampleIndices n count = List.range n := by
  rw [sampleIndices, if_pos h]

theorem mem_sampleIndices (h : count < n) {i : ℕ} : i ∈ sampleIndices n count ↔
    i = 0 ∨ i = n - 1 ∨ ∃ pos < count, sampledIndex n count pos = i := by
  rw [sampleIndices, if_neg (not_le.mpr h), Finset.mem_sort, List.mem_toFinset, List.mem_cons,
    List.mem_cons, List.mem_map]
  simp only [List.mem_range, sampledIndex]

/-- The samples come in order, each once. -/
theorem pairwise_sampleIndices (n count : ℕ) : (sampleIndices n count).Pairwise (· < ·) := by
  rw [sampleIndices]
  split_ifs
  · exact List.pairwise_lt_range
  · exact (Finset.sortedLT_sort _).pairwise

theorem zero_mem_sampleIndices (count : ℕ) (hn : 0 < n) : 0 ∈ sampleIndices n count := by
  rcases Nat.lt_or_ge count n with hlt | hge
  · exact (mem_sampleIndices hlt).mpr (.inl rfl)
  · rw [sampleIndices_of_le hge]
    exact List.mem_range.mpr hn

theorem last_mem_sampleIndices (hn : 0 < n) : n - 1 ∈ sampleIndices n count := by
  rcases Nat.lt_or_ge count n with hlt | hge
  · exact (mem_sampleIndices hlt).mpr (.inr (.inl rfl))
  · rw [sampleIndices_of_le hge]
    exact List.mem_range.mpr (Nat.sub_one_lt hn.ne')

/-- The positions grow geometrically, up to one. -/
theorem ratio_le_one {pos : ℕ} (hpos : pos < count) :
    (((2 ^ pos - 1 : ℕ) : ℚ) / (max 1 (2 ^ (count - 1) - 1) : ℕ)) ≤ 1 := by
  have hpow : 2 ^ pos ≤ 2 ^ (count - 1) := Nat.pow_le_pow_right Nat.two_pos (by omega)
  have hle : 2 ^ pos - 1 ≤ max 1 (2 ^ (count - 1) - 1) := le_max_of_le_right (by omega)
  exact div_le_one_of_le₀ (Nat.cast_le.mpr hle) (Nat.cast_nonneg _)

theorem sampledIndex_lt (hn : 0 < n) {pos : ℕ} (hpos : pos < count) :
    sampledIndex n count pos < n := by
  have hround := roundHalfEven_le (((n - 1 : ℕ) : ℚ) *
    (((2 ^ pos - 1 : ℕ) : ℚ) / (max 1 (2 ^ (count - 1) - 1) : ℕ)))
  have hscaled := mul_le_of_le_one_right (Nat.cast_nonneg (α := ℚ) (n - 1)) (ratio_le_one hpos)
  have hcast : ((n - 1 : ℕ) : ℚ) = n - 1 := Nat.cast_pred hn
  have hlt : (roundHalfEven (((n - 1 : ℕ) : ℚ) *
      (((2 ^ pos - 1 : ℕ) : ℚ) / (max 1 (2 ^ (count - 1) - 1) : ℕ))) : ℚ) < (n : ℤ) := by
    push_cast at *
    linarith
  have hlt := Int.cast_lt.mp hlt
  rw [sampledIndex]
  omega

theorem lt_of_mem_sampleIndices (hn : 0 < n) {i : ℕ} (h : i ∈ sampleIndices n count) : i < n := by
  rcases Nat.lt_or_ge count n with hlt | hge
  · obtain rfl | rfl | ⟨pos, hpos, rfl⟩ := (mem_sampleIndices hlt).mp h
    · exact hn
    · exact Nat.sub_one_lt hn.ne'
    · exact sampledIndex_lt hn hpos
  · rw [sampleIndices_of_le hge] at h
    exact List.mem_range.mp h

/-- The first sample is the first item. -/
theorem sampledIndex_zero : sampledIndex n count 0 = 0 := by
  simp [sampledIndex, roundHalfEven]

/-- The last sample is the last item. -/
theorem sampledIndex_last (hcount : 2 ≤ count) : sampledIndex n count (count - 1) = n - 1 := by
  have hpow : 2 ^ 1 ≤ 2 ^ (count - 1) := Nat.pow_le_pow_right Nat.two_pos (by omega)
  have hmax : max 1 (2 ^ (count - 1) - 1) = 2 ^ (count - 1) - 1 := max_eq_right (by omega)
  have hne : ((2 ^ (count - 1) - 1 : ℕ) : ℚ) ≠ 0 := Nat.cast_ne_zero.mpr (by omega)
  rw [sampledIndex, hmax, div_self hne, mul_one]
  have hle := roundHalfEven_le ((n - 1 : ℕ) : ℚ)
  have hge := le_roundHalfEven ((n - 1 : ℕ) : ℚ)
  -- rounding moves less than one, and the last index is an integer
  have heq : roundHalfEven ((n - 1 : ℕ) : ℚ) = (n - 1 : ℕ) := by
    have hlt : (roundHalfEven ((n - 1 : ℕ) : ℚ) : ℚ) < (((n - 1 : ℕ) : ℤ) + 1 : ℤ) := by
      push_cast
      linarith
    have hgt : ((((n - 1 : ℕ) : ℤ) - 1 : ℤ) : ℚ) < roundHalfEven ((n - 1 : ℕ) : ℚ) := by
      push_cast
      linarith
    have hlt := Int.cast_lt.mp hlt
    have hgt := Int.cast_lt.mp hgt
    omega
  rw [heq, Int.toNat_natCast]

/-- The samples in between lie in the first half. -/
theorem two_mul_sampledIndex_lt (hn : 2 ≤ n) {pos : ℕ} (hpos : pos + 1 < count) :
    2 * sampledIndex n count pos < n := by
  have hpow : 2 ^ (pos + 1) ≤ 2 ^ (count - 1) := Nat.pow_le_pow_right Nat.two_pos (by omega)
  have hpow_pos : 0 < 2 ^ pos := Nat.two_pow_pos pos
  have hnum : 2 * (2 ^ pos - 1) < max 1 (2 ^ (count - 1) - 1) :=
    lt_max_of_lt_right (by rw [pow_succ] at hpow; omega)
  have hden : (0 : ℚ) < (max 1 (2 ^ (count - 1) - 1) : ℕ) :=
    Nat.cast_pos.mpr (lt_of_lt_of_le Nat.one_pos (le_max_left _ _))
  have hratio : (((2 ^ pos - 1 : ℕ) : ℚ) / (max 1 (2 ^ (count - 1) - 1) : ℕ)) < 1 / 2 := by
    rw [div_lt_iff₀ hden]
    have hcast : ((2 * (2 ^ pos - 1) : ℕ) : ℚ) < (max 1 (2 ^ (count - 1) - 1) : ℕ) :=
      Nat.cast_lt.mpr hnum
    rw [Nat.cast_mul, Nat.cast_ofNat] at hcast
    linarith
  have hscaled := mul_lt_mul_of_pos_left hratio
    (Nat.cast_pos.mpr (by omega) : (0 : ℚ) < (n - 1 : ℕ))
  have hround := roundHalfEven_le (((n - 1 : ℕ) : ℚ) *
    (((2 ^ pos - 1 : ℕ) : ℚ) / (max 1 (2 ^ (count - 1) - 1) : ℕ)))
  have hlt : ((2 * roundHalfEven (((n - 1 : ℕ) : ℚ) *
      (((2 ^ pos - 1 : ℕ) : ℚ) / (max 1 (2 ^ (count - 1) - 1) : ℕ))) : ℤ) : ℚ) <
      (((n - 1 : ℕ) + 1 : ℤ) : ℚ) := by
    rw [Int.cast_mul, Int.cast_ofNat, Int.cast_add, Int.cast_natCast, Int.cast_one]
    linarith
  have hlt := Int.cast_lt.mp hlt
  rw [sampledIndex]
  omega

/-- The last but one item is not sampled, when there are more items than samples. -/
theorem pred_last_notMem_sampleIndices (hcount : count < n) (hn : 3 ≤ n) :
    n - 2 ∉ sampleIndices n count := by
  rw [mem_sampleIndices hcount]
  -- the first and the last index are too small and too large, and so are those in between
  rintro (h | h | ⟨pos, hpos, h⟩)
  · omega
  · omega
  · rcases Nat.eq_zero_or_pos pos with rfl | hfirst
    · rw [sampledIndex_zero] at h
      omega
    · rcases Nat.lt_or_ge (pos + 1) count with hbetween | hlast
      · have hhalf := two_mul_sampledIndex_lt (n := n) (by omega) hbetween
        omega
      · obtain rfl : pos = count - 1 := by omega
        rw [sampledIndex_last (by omega)] at h
        omega

/-- Every item is sampled, unless there are three or more, and more than samples. -/
theorem length_sampleIndices_iff (hn : 0 < n) :
    (sampleIndices n count).length = n ↔ n ≤ max count 2 := by
  have hnodup : (sampleIndices n count).Nodup :=
    (pairwise_sampleIndices n count).imp fun hlt => hlt.ne
  have hsubset : sampleIndices n count ⊆ List.range n :=
    fun _ hi => List.mem_range.mpr (lt_of_mem_sampleIndices hn hi)
  refine ⟨?_, ?_⟩
  · intro hlength
    by_contra hmany
    rw [not_le, max_lt_iff] at hmany
    have hperm := (hnodup.subperm hsubset).perm_of_length_le (by rw [List.length_range, hlength])
    exact pred_last_notMem_sampleIndices hmany.1 hmany.2
      (hperm.mem_iff.mpr (List.mem_range.mpr (by omega)))
  · intro hfew
    rcases Nat.lt_or_ge count n with hlt | hge
    · -- There are at most two items, the first and the last.
      have hall : List.range n ⊆ sampleIndices n count := by
        intro i hi
        have hi := List.mem_range.mp hi
        refine (mem_sampleIndices hlt).mpr ?_
        omega
      have hle := (List.nodup_range.subperm hall).length_le
      have hge := (hnodup.subperm hsubset).length_le
      rw [List.length_range] at hle hge
      omega
    · rw [sampleIndices_of_le hge, List.length_range]

/-- Then each of them is. -/
theorem mem_sampleIndices_of_length (hn : 0 < n) (h : (sampleIndices n count).length = n) {i : ℕ}
    (hi : i < n) : i ∈ sampleIndices n count := by
  have hnodup : (sampleIndices n count).Nodup :=
    (pairwise_sampleIndices n count).imp fun hlt => hlt.ne
  have hsubset : sampleIndices n count ⊆ List.range n :=
    fun _ hi => List.mem_range.mpr (lt_of_mem_sampleIndices hn hi)
  have hperm := (hnodup.subperm hsubset).perm_of_length_le (by rw [List.length_range, h])
  exact hperm.mem_iff.mpr (List.mem_range.mpr hi)

end Indices

/-! ### Interpolation -/

/-- The values at the samples. -/
def pointsAt (indices : List ℕ) (v : ℕ → ℚ) : List (ℕ × ℚ) := indices.map fun i => (i, v i)

/-- How far `x` lies on the way from the last sample but one to the last. -/
def wayToLast (j m x : ℕ) : ℚ := if x ≤ j then 0 else ((x : ℚ) - j) / ((m : ℚ) - j)

section Interpolation

variable {indices : List ℕ} {v : ℕ → ℚ}

/-- `sorted` finds the samples in order. -/
theorem insertionSort_pointsAt (h : indices.Pairwise (· < ·)) :
    (pointsAt indices v).insertionSort tupleLe = pointsAt indices v := by
  refine List.Pairwise.insertionSort_eq ?_
  rw [pointsAt, List.pairwise_map]
  exact h.imp fun hlt => .inl hlt

/-- `_interp_scalar` needs a point, and no more. -/
theorem interpScalar_eq_ok {points : List (ℕ × ℚ)} (h : points ≠ []) (x : ℕ) :
    interpScalar points x = .ok (valueOf (interpScalar points x)) := by
  rw [interpScalar]
  rcases hsort : points.insertionSort tupleLe with _ | ⟨p, ps⟩
  · have hlength := points.length_insertionSort tupleLe
    rw [hsort] at hlength
    exact absurd (List.length_eq_zero_iff.mp hlength.symm) h
  · simp only
    split_ifs <;> rfl

/-- On values that are affine but for the last, the interpolation is affine up to the last
sample but one, and from there turns to the last value. -/
theorem interpSegments_affine {a b : ℚ} {m : ℕ} (hv : ∀ i < m, v i = a + b * i)
    (rest : List ℕ) {p x : ℕ} (hsorted : (p :: (rest ++ [m])).Pairwise (· < ·)) (hpx : p < x)
    (hxm : x ≤ m) :
    interpSegments x (p, v p) (pointsAt (rest ++ [m]) v) = a + b * x +
      (v m - (a + b * m)) * wayToLast ((p :: rest).getLast (List.cons_ne_nil p rest)) m x := by
  induction rest generalizing p with
  | nil =>
    have hpm : p < m := hpx.trans_le hxm
    have hwidth : (1 : ℚ) ≤ (m : ℚ) - p := by
      have : ((p + 1 : ℕ) : ℚ) ≤ m := Nat.cast_le.mpr hpm
      push_cast at this
      linarith
    have hne : (m : ℚ) - p ≠ 0 := by linarith
    rw [List.nil_append, pointsAt, List.map_singleton, interpSegments, if_pos hxm,
      List.getLast_singleton, wayToLast, if_neg (not_le.mpr hpx), max_eq_right hwidth, hv p hpm]
    field_simp
    ring
  | cons q rest ih =>
    obtain ⟨hp, hrest⟩ := List.pairwise_cons.mp hsorted
    have hpq : p < q := hp q List.mem_cons_self
    have hqm : q < m := (List.pairwise_cons.mp hrest).1 m (by simp)
    rw [List.getLast_cons (List.cons_ne_nil q rest), List.cons_append, pointsAt, List.map_cons,
      interpSegments]
    simp only
    split_ifs with hxq
    · -- Between two samples in front of the last, both values lie on the line.
      have hlast : x ≤ (q :: rest).getLast (List.cons_ne_nil q rest) := by
        rcases List.mem_cons.mp (List.getLast_mem (List.cons_ne_nil q rest)) with heq | hmem
        · rw [heq]
          exact hxq
        · have hlt := (List.pairwise_cons.mp hrest).1 _ (List.mem_append_left [m] hmem)
          exact hxq.trans hlt.le
      have hwidth : (1 : ℚ) ≤ (q : ℚ) - p := by
        have : ((p + 1 : ℕ) : ℚ) ≤ q := Nat.cast_le.mpr hpq
        push_cast at this
        linarith
      have hne : (q : ℚ) - p ≠ 0 := by linarith
      rw [wayToLast, if_pos hlast, max_eq_right hwidth, hv p (hpq.trans hqm), hv q hqm]
      field_simp
      ring
    · exact ih hrest (not_le.mp hxq)

/-- The same for `_interp_scalar`, from the first sample to the last. -/
theorem interpScalar_affine {a b : ℚ} {m : ℕ} (hv : ∀ i < m, v i = a + b * i) {rest : List ℕ}
    (hsorted : (0 :: (rest ++ [m])).Pairwise (· < ·)) {x : ℕ} (hxm : x ≤ m) :
    interpScalar (pointsAt (0 :: (rest ++ [m])) v) x = .ok (a + b * x +
      (v m - (a + b * m)) * wayToLast ((0 :: rest).getLast (List.cons_ne_nil 0 rest)) m x) := by
  have hm : 0 < m := (List.pairwise_cons.mp hsorted).1 m (by simp)
  have hj : (0 :: rest).getLast (List.cons_ne_nil 0 rest) < m := by
    rw [← List.cons_append] at hsorted
    exact (List.pairwise_append.mp hsorted).2.2 _ (List.getLast_mem _) m (List.mem_singleton_self m)
  have hlast : ∀ h : (0, v 0) :: pointsAt (rest ++ [m]) v ≠ [],
      ((0, v 0) :: pointsAt (rest ++ [m]) v).getLast h = (m, v m) := by
    intro h
    simp [pointsAt]
  rw [interpScalar, insertionSort_pointsAt hsorted, pointsAt, List.map_cons, ← pointsAt]
  simp only [hlast]
  split_ifs with hfirst hend
  · obtain rfl := Nat.le_zero.mp hfirst
    rw [wayToLast, if_pos (Nat.zero_le _), hv 0 hm]
    simp
  · obtain rfl := le_antisymm hxm hend
    have hne : (x : ℚ) - ((0 :: rest).getLast (List.cons_ne_nil 0 rest) : ℕ) ≠ 0 :=
      sub_ne_zero.mpr (Nat.cast_injective.ne hj.ne')
    rw [wayToLast, if_neg (not_le.mpr hj), div_self hne]
    simp
  · rw [interpSegments_affine hv rest hsorted (not_le.mp hfirst) hxm]

end Interpolation

/-! ### The total over all items -/

/-- What stands for an item in the total: its value if all are sampled. -/
def estimate (indices : List ℕ) (n : ℕ) (v : ℕ → ℚ) (i : ℕ) : ℚ :=
  if indices.length = n then v i else valueOf (interpScalar (pointsAt indices v) i)

/-- The total of `n` items, of which some are sampled. -/
def sampledTotal (count n : ℕ) (v : ℕ → ℚ) : ℚ :=
  ((List.range n).map (estimate (sampleIndices n count) n v)).sum

section Total

variable {count n : ℕ} {v : ℕ → ℚ}

/-- If all items are sampled, it is the sum. -/
theorem sampledTotal_of_all (hn : 0 < n) (h : n ≤ max count 2) :
    sampledTotal count n v = ((List.range n).map v).sum := by
  refine congrArg List.sum (List.map_congr_left ?_)
  intro i _
  rw [estimate, if_pos ((length_sampleIndices_iff hn).mpr h)]

/-- Otherwise the samples run from the first item to the last, without the last but one. -/
theorem exists_sampleIndices_eq (hn : max count 2 < n) :
    ∃ rest, sampleIndices n count = 0 :: (rest ++ [n - 1]) ∧
      (0 :: rest).getLast (List.cons_ne_nil 0 rest) + 1 < n - 1 := by
  obtain ⟨hcount, htwo⟩ := max_lt_iff.mp hn
  have hpos : 0 < n := by omega
  have hsorted := pairwise_sampleIndices n count
  have hlt : ∀ i ∈ sampleIndices n count, i < n := fun i hi => lt_of_mem_sampleIndices hpos hi
  have hzero : 0 ∈ sampleIndices n count := zero_mem_sampleIndices count hpos
  have hlast : n - 1 ∈ sampleIndices n count := last_mem_sampleIndices hpos
  have hpred : n - 2 ∉ sampleIndices n count := pred_last_notMem_sampleIndices hcount htwo
  generalize sampleIndices n count = indices at hsorted hlt hzero hlast hpred
  rcases indices with _ | ⟨first, tail⟩
  · exact absurd hzero List.not_mem_nil
  obtain ⟨hfirst, htail⟩ := List.pairwise_cons.mp hsorted
  obtain rfl : 0 = first := by
    rcases List.mem_cons.mp hzero with heq | hmem
    · exact heq
    · exact absurd (hfirst 0 hmem) (Nat.not_lt_zero _)
  have hmem : n - 1 ∈ tail := by
    rcases List.mem_cons.mp hlast with heq | hmem
    · omega
    · exact hmem
  rcases List.eq_nil_or_concat tail with rfl | ⟨rest, m, rfl⟩
  · exact absurd hmem List.not_mem_nil
  rw [List.concat_eq_append] at *
  have hm : m < n := hlt m (by simp)
  obtain rfl : n - 1 = m := by
    rcases List.mem_append.mp hmem with hin | hin
    · have hbefore := (List.pairwise_append.mp htail).2.2 _ hin m (List.mem_singleton_self m)
      omega
    · exact List.mem_singleton.mp hin
  refine ⟨rest, rfl, ?_⟩
  have hj : (0 :: rest).getLast (List.cons_ne_nil 0 rest) ∈ 0 :: rest := List.getLast_mem _
  rw [← List.cons_append] at hsorted hpred
  have hbefore := (List.pairwise_append.mp hsorted).2.2 _ hj (n - 1) (List.mem_singleton_self _)
  have hne : (0 :: rest).getLast (List.cons_ne_nil 0 rest) ≠ n - 2 := by
    intro heq
    rw [heq] at hj
    exact hpred (List.mem_append_left _ hj)
  omega

/-- Values that are affine but for the last: the total is off by a positive multiple of how far
the last is off the line. -/
theorem sampledTotal_affine (hn : max count 2 < n) {a b : ℚ}
    (hv : ∀ i < n - 1, v i = a + b * i) :
    ∃ weight > 0, sampledTotal count n v = ((List.range n).map v).sum +
      (v (n - 1) - (a + b * (n - 1 : ℕ))) * weight := by
  obtain ⟨rest, hindices, hj⟩ := exists_sampleIndices_eq hn
  have hpos : 0 < n := by omega
  have hsorted : (0 :: (rest ++ [n - 1])).Pairwise (· < ·) :=
    hindices ▸ pairwise_sampleIndices n count
  -- every estimate is off by its share of the way to the last item
  have hestimate : ∀ i < n, estimate (sampleIndices n count) n v i = a + b * i +
      (v (n - 1) - (a + b * (n - 1 : ℕ))) *
        wayToLast ((0 :: rest).getLast (List.cons_ne_nil 0 rest)) (n - 1) i := by
    intro i hi
    rw [estimate, if_neg (mt (length_sampleIndices_iff hpos).mp (not_le.mpr hn)), hindices,
      interpScalar_affine hv hsorted (by omega), valueOf_ok]
  generalize (0 :: rest).getLast (List.cons_ne_nil 0 rest) = j at hj hestimate
  obtain ⟨m, rfl⟩ : ∃ m, n = m + 1 := ⟨n - 1, by omega⟩
  rw [Nat.add_sub_cancel] at hj hv hestimate ⊢
  have hway : ∀ i < m, 0 ≤ wayToLast j m i := by
    intro i hi
    rw [wayToLast]
    split_ifs with hij
    · exact le_rfl
    · have hi : (i : ℚ) ≤ m := Nat.cast_le.mpr hi.le
      have hij : (j : ℚ) ≤ i := Nat.cast_le.mpr (not_le.mp hij).le
      exact div_nonneg (sub_nonneg.mpr hij) (sub_nonneg.mpr (hij.trans hi))
  have hwayPos : 0 < wayToLast j m (j + 1) := by
    have hjm : ((j + 1 : ℕ) : ℚ) < m := Nat.cast_lt.mpr hj
    rw [wayToLast, if_neg (by omega)]
    push_cast at hjm ⊢
    exact div_pos (by linarith) (by linarith)
  have hlast : wayToLast j m m = 1 := by
    have hjm : (j : ℚ) < m := Nat.cast_lt.mpr (by omega)
    rw [wayToLast, if_neg (by omega), div_self (sub_ne_zero.mpr hjm.ne')]
  -- these shares add up to the weight, positive as the last item but one is not sampled
  refine ⟨((List.range m).map (wayToLast j m)).sum, ?_, ?_⟩
  · have hall : ∀ w ∈ (List.range m).map (wayToLast j m), 0 ≤ w := by
      intro w hw
      obtain ⟨i, hi, rfl⟩ := List.mem_map.mp hw
      exact hway i (List.mem_range.mp hi)
    exact hwayPos.trans_le
      (List.single_le_sum hall _ (List.mem_map_of_mem (List.mem_range.mpr hj)))
  · have hfront : (List.range m).map (estimate (sampleIndices (m + 1) count) (m + 1) v) =
        (List.range m).map fun i => v i + (v m - (a + b * m)) * wayToLast j m i := by
      refine List.map_congr_left ?_
      intro i hi
      have hi := List.mem_range.mp hi
      rw [hestimate i (by omega), hv i hi]
    rw [sampledTotal, List.range_succ, List.map_append, List.sum_append, hfront, List.sum_map_add,
      List.sum_map_mul_left, List.map_append, List.sum_append, List.map_singleton,
      List.map_singleton, List.sum_singleton, List.sum_singleton,
      hestimate m (Nat.lt_succ_self m), hlast]
    ring

end Total

end AttAcc
