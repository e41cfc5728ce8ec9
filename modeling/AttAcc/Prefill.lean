import AttAcc.Interpolation
import AttAcc.Library.Chunks

/-!
# What chunked prefill costs

A chunk is charged for all its queries at the KV length it ends with. When every chunk is
timed the total is a sum over the queries, each at that length, so it lies between the causal
sum and the cost of full attention (`prefill_bounds`).

When there are more chunks than samples, the totals of the chunks in between are
interpolated, but the last chunk may have fewer queries than the others. For affine costs the
sampled total is the exact one when the last chunk is whole, and in general only when its
total lies on the line of the others (`prefill_exact_iff`).
-/

namespace AttAcc

open Library

/-! ### The chunks of a prefill -/

/-- `chunk_size`. -/
def chunkSizeOf (prefillChunkSize totalL : ℕ) : ℕ := max 1 (min prefillChunkSize totalL)

/-- `n_chunks`. -/
def chunkCount (prefillChunkSize totalL : ℕ) : ℕ := totalL ⌈/⌉ chunkSizeOf prefillChunkSize totalL

/-- `accumulated_l`. -/
def accumulatedL (totalL chunkSize chunkIdx : ℕ) : ℕ := min totalL ((chunkIdx + 1) * chunkSize)

/-- An accelerator that takes `t q` and `e level q` for one query of `l` at the KV length `q`. -/
def QueryCosts (time : Layer → Except PyError Outcome) (l : Layer) (t : ℕ → ℚ)
    (e : EnergyLevel → ℕ → ℚ) : Prop :=
  ∀ q, 1 ≤ q → q ≤ l.n → ∃ bound,
    time (chunkLayer l q) = .ok { execTime := t q, energy := fun level => e level q, bound }

/-- A chunk costs what its queries cost at the KV length it ends with. -/
def chunkTotal (cost : ℕ → ℚ) (totalL chunkSize chunkIdx : ℕ) : ℚ :=
  cost (accumulatedL totalL chunkSize chunkIdx) * chunkLength totalL chunkSize chunkIdx

/-- What every chunk costs, together. -/
def evaluateChunks (time : Layer → Except PyError Outcome) (prefillChunkSize : ℕ) (l : Layer) :
    Except PyError (ℚ × Energy) :=
  (List.range (chunkCount prefillChunkSize l.n)).foldlM (fun acc chunkIdx => do
    let cost ← sampleChunk time l (chunkSizeOf prefillChunkSize l.n) chunkIdx
    return acc + cost) 0

section Chunks

variable {time : Layer → Except PyError Outcome} {l : Layer} {t : ℕ → ℚ}
  {e : EnergyLevel → ℕ → ℚ} {prefillChunkSize : ℕ}

theorem chunkSizeOf_pos (prefillChunkSize totalL : ℕ) : 0 < chunkSizeOf prefillChunkSize totalL :=
  lt_of_lt_of_le Nat.one_pos (le_max_left _ _)

theorem chunkCount_pos {totalL : ℕ} (hL : 0 < totalL) : 0 < chunkCount prefillChunkSize totalL := by
  by_contra hzero
  have hle := (ceilDiv_le_iff_le_mul (chunkSizeOf_pos prefillChunkSize totalL)).mp (not_lt.mp hzero)
  omega

theorem accumulatedL_pos {totalL chunkSize : ℕ} (hL : 0 < totalL) (hsize : 0 < chunkSize)
    (chunkIdx : ℕ) : 0 < accumulatedL totalL chunkSize chunkIdx :=
  lt_min hL (Nat.mul_pos chunkIdx.succ_pos hsize)

theorem sampleChunk_eq (h : QueryCosts time l t e) (hL : 0 < l.n) {chunkSize : ℕ}
    (hsize : 0 < chunkSize) (chunkIdx : ℕ) : sampleChunk time l chunkSize chunkIdx =
      .ok (chunkTotal t l.n chunkSize chunkIdx,
        fun level => chunkTotal (e level) l.n chunkSize chunkIdx) := by
  obtain ⟨bound, hquery⟩ := h (accumulatedL l.n chunkSize chunkIdx)
    (accumulatedL_pos hL hsize chunkIdx) (min_le_left _ _)
  exact bind_ok_iff.mpr ⟨_, hquery, rfl⟩

/-- The sum of pairs of a time and energies is that of each. -/
theorem sum_costs {α : Type*} (time : α → ℚ) (energy : EnergyLevel → α → ℚ) (as : List α) :
    (as.map fun a => ((time a, fun level => energy level a) : ℚ × Energy)).sum =
      ((as.map time).sum, fun level => (as.map (energy level)).sum) := by
  induction as with
  | nil => rfl
  | cons a as ih =>
    rw [List.map_cons, List.sum_cons, ih]
    rfl

/-- Evaluating every chunk. -/
theorem evaluateChunks_eq (h : QueryCosts time l t e) (hL : 0 < l.n) (prefillChunkSize : ℕ) :
    evaluateChunks time prefillChunkSize l =
      .ok (((List.range (chunkCount prefillChunkSize l.n)).map
          (chunkTotal t l.n (chunkSizeOf prefillChunkSize l.n))).sum,
        fun level => ((List.range (chunkCount prefillChunkSize l.n)).map
          (chunkTotal (e level) l.n (chunkSizeOf prefillChunkSize l.n))).sum) := by
  have hchunk := fun i (_ : i ∈ List.range (chunkCount prefillChunkSize l.n)) =>
    sampleChunk_eq h hL (chunkSizeOf_pos prefillChunkSize l.n) i
  refine (foldlM_add_of_ok hchunk 0).trans ?_
  rw [zero_add, sum_costs]

/-- What stands for a chunk in the total, when the samples are evaluated. -/
theorem chunkCost_eq {indices : List ℕ} (hne : indices ≠ []) {n i : ℕ}
    (hall : indices.length = n → i ∈ indices) (v : ℕ → ℚ) (w : EnergyLevel → ℕ → ℚ) :
    chunkCost (decide (indices.length = n)) (pointsAt indices v)
        (indices.map fun i => (i, fun level => w level i)) i =
      .ok (estimate indices n v i, fun level => estimate indices n (w level) i) := by
  rw [chunkCost]
  simp only [estimate]
  by_cases hlength : indices.length = n
  · rw [if_pos (decide_eq_true hlength), pointsAt, List.lookup_graph v (hall hlength),
      List.lookup_graph (fun i level => w level i) (hall hlength)]
    simp only [if_pos hlength]
    rfl
  · have hpoints : ∀ u : ℕ → ℚ, pointsAt indices u ≠ [] := fun u => mt List.map_eq_nil_iff.mp hne
    have henergy : interpVector (indices.map fun i => (i, fun level => w level i)) i =
        .ok fun level => valueOf (interpScalar (pointsAt indices (w level)) i) := by
      have hlevel : ∀ level, interpScalar ((indices.map fun i => (i, fun level => w level i)).map
          fun p : ℕ × Energy => (p.1, p.2 level)) i =
            .ok (valueOf (interpScalar (pointsAt indices (w level)) i)) := by
        intro level
        rw [List.map_map]
        exact interpScalar_eq_ok (hpoints (w level)) i
      rw [interpVector, Energy.sequence]
      simp only [hlevel]
      refine congrArg Except.ok (funext ?_)
      intro level
      cases level <;> rfl
    rw [if_neg (by simp [hlength]), interpScalar_eq_ok (hpoints v), henergy]
    simp only [if_neg hlength]
    rfl

/-- `_simulate_pim_prefill_score`, under the names above. -/
theorem simulatePimPrefillScore_def (count : ℕ) :
    simulatePimPrefillScore time prefillChunkSize count l =
      let n := chunkCount prefillChunkSize l.n
      let indices := sampleIndices n count
      indices.mapM (sampleChunk time l (chunkSizeOf prefillChunkSize l.n)) >>= fun sampled =>
        (List.range n).foldlM (fun acc chunkIdx =>
          chunkCost (decide (indices.length = n)) (indices.zip (sampled.map Prod.fst))
            (indices.zip (sampled.map Prod.snd)) chunkIdx >>= fun cost => .ok (acc + cost)) 0 :=
  rfl

/-- The total of the sampled chunks, and of those that are interpolated. -/
theorem simulatePimPrefillScore_eq (h : QueryCosts time l t e) (hL : 0 < l.n)
    (prefillChunkSize count : ℕ) : simulatePimPrefillScore time prefillChunkSize count l =
      .ok (sampledTotal count (chunkCount prefillChunkSize l.n)
          (chunkTotal t l.n (chunkSizeOf prefillChunkSize l.n)),
        fun level => sampledTotal count (chunkCount prefillChunkSize l.n)
          (chunkTotal (e level) l.n (chunkSizeOf prefillChunkSize l.n))) := by
  have hn : 0 < chunkCount prefillChunkSize l.n := chunkCount_pos hL
  have hsize := chunkSizeOf_pos prefillChunkSize l.n
  rw [simulatePimPrefillScore_def]
  refine bind_ok_iff.mpr ⟨(sampleIndices (chunkCount prefillChunkSize l.n) count).map fun i =>
    (chunkTotal t l.n (chunkSizeOf prefillChunkSize l.n) i,
      fun level => chunkTotal (e level) l.n (chunkSizeOf prefillChunkSize l.n) i), ?_, ?_⟩
  · rw [mapM_ok_iff, List.forall₂_map_right_iff, List.forall₂_same]
    exact fun i _ => sampleChunk_eq h hL hsize i
  · rw [List.map_map, List.map_map, ← List.map_prod_left_eq_zip, ← List.map_prod_left_eq_zip]
    have hcost := fun i (hi : i ∈ List.range (chunkCount prefillChunkSize l.n)) =>
      chunkCost_eq (List.ne_nil_of_mem (zero_mem_sampleIndices count hn))
        (fun hlength => mem_sampleIndices_of_length hn hlength (List.mem_range.mp hi))
        (chunkTotal t l.n (chunkSizeOf prefillChunkSize l.n))
        fun level => chunkTotal (e level) l.n (chunkSizeOf prefillChunkSize l.n)
    refine (foldlM_add_of_ok hcost 0).trans ?_
    rw [zero_add, sum_costs]
    rfl

/-! ### Chunks and the causal cost -/

/-- What the queries cost when each only looks at itself and those in front of it. -/
def causalSum (t : ℕ → ℚ) (totalL : ℕ) : ℚ := ((List.range totalL).map fun q => t (q + 1)).sum

/-- All chunks together cost what the queries cost, each at the end of its chunk. -/
theorem sum_chunkTotal (t : ℕ → ℚ) {totalL chunkSize : ℕ} (hsize : 0 < chunkSize) :
    ((List.range (totalL ⌈/⌉ chunkSize)).map (chunkTotal t totalL chunkSize)).sum =
      ((List.range totalL).map fun q => t (accumulatedL totalL chunkSize (q / chunkSize))).sum := by
  rw [← sum_chunkLength_nsmul hsize fun i => t (accumulatedL totalL chunkSize i)]
  refine congrArg List.sum (List.map_congr_left ?_)
  intro i _
  rw [chunkTotal, nsmul_eq_mul, mul_comm]

/-- A query is not charged for less than the causal length. -/
theorem lt_accumulatedL {totalL chunkSize q : ℕ} (hsize : 0 < chunkSize) (hq : q < totalL) :
    q < accumulatedL totalL chunkSize (q / chunkSize) :=
  lt_min hq ((Nat.div_lt_iff_lt_mul hsize).mp (Nat.lt_succ_self _))

/-- In smaller chunks that divide the larger ones, it is not charged for more. -/
theorem accumulatedL_le_of_dvd {totalL q C D : ℕ} (hq : q < totalL) (hC : 0 < C) (hdvd : D ∣ C) :
    accumulatedL totalL (chunkSizeOf D totalL) (q / chunkSizeOf D totalL) ≤
      accumulatedL totalL (chunkSizeOf C totalL) (q / chunkSizeOf C totalL) := by
  have hDpos : 0 < D := Nat.pos_of_dvd_of_pos hdvd hC
  have hDC : D ≤ C := Nat.le_of_dvd hC hdvd
  refine le_min (min_le_left _ _) ?_
  rcases Nat.lt_or_ge totalL C with hlong | hfits
  · -- One chunk has all queries.
    have hsize : chunkSizeOf C totalL = totalL := by
      rw [chunkSizeOf]
      omega
    rw [hsize, Nat.div_eq_of_lt hq, Nat.zero_add, Nat.one_mul]
    exact min_le_left _ _
  · have hsizeC : chunkSizeOf C totalL = C := by
      rw [chunkSizeOf]
      omega
    have hsizeD : chunkSizeOf D totalL = D := by
      rw [chunkSizeOf]
      omega
    obtain ⟨k, rfl⟩ := hdvd
    have hend : q < (q / (D * k) + 1) * (D * k) :=
      (Nat.div_lt_iff_lt_mul hC).mp (Nat.lt_succ_self _)
    have hsplit : (q / (D * k) + 1) * (D * k) = (q / (D * k) + 1) * k * D := by ring
    rw [hsplit] at hend
    rw [hsizeC, hsizeD, hsplit]
    exact (min_le_right _ _).trans
      (Nat.mul_le_mul_right D ((Nat.div_lt_iff_lt_mul hDpos).mpr hend))

/-- **What prefill costs when every chunk is timed**: the chunks partition the queries, and the
time lies between the causal sum and that of full attention, is the causal sum for chunks of
one query, and does not grow when a chunk size is replaced by one that divides it. -/
theorem prefill_bounds (h : QueryCosts time l t e)
    (hmono : ∀ q q', 1 ≤ q → q ≤ q' → q' ≤ l.n → t q ≤ t q') (hL : 1 ≤ l.n) {count : ℕ}
    (hall : chunkCount prefillChunkSize l.n ≤ count) :
    ∃ total, simulatePimPrefillScore time prefillChunkSize count l = .ok total ∧
      (List.range (chunkCount prefillChunkSize l.n)).flatMap
        (chunk l.n (chunkSizeOf prefillChunkSize l.n)) = List.range l.n ∧
      total.1 = ((List.range (chunkCount prefillChunkSize l.n)).map fun i =>
        t (accumulatedL l.n (chunkSizeOf prefillChunkSize l.n) i) *
          (chunk l.n (chunkSizeOf prefillChunkSize l.n) i).length).sum ∧
      causalSum t l.n ≤ total.1 ∧ total.1 ≤ l.n * t l.n ∧
      (prefillChunkSize = 1 → total.1 = causalSum t l.n) ∧
      ∀ D count' total', 0 < prefillChunkSize → D ∣ prefillChunkSize →
        chunkCount D l.n ≤ count' → simulatePimPrefillScore time D count' l = .ok total' →
        total'.1 ≤ total.1 := by
  -- query by query, each charged at the length its chunk ends with
  have htotal : ∀ C count, chunkCount C l.n ≤ count →
      sampledTotal count (chunkCount C l.n) (chunkTotal t l.n (chunkSizeOf C l.n)) =
        ((List.range l.n).map fun q =>
          t (accumulatedL l.n (chunkSizeOf C l.n) (q / chunkSizeOf C l.n))).sum := by
    intro C count hall
    rw [sampledTotal_of_all (chunkCount_pos hL) (hall.trans (le_max_left _ _)), chunkCount,
      sum_chunkTotal t (chunkSizeOf_pos C l.n)]
  have hsize := chunkSizeOf_pos prefillChunkSize l.n
  refine ⟨_, simulatePimPrefillScore_eq h hL prefillChunkSize count,
    flatMap_chunk_eq_range hsize, ?_, ?_, ?_, ?_, ?_⟩
  · simp only [sampledTotal_of_all (chunkCount_pos hL) (hall.trans (le_max_left _ _)), chunk,
      List.length_range']
    rfl
  · show causalSum t l.n ≤ sampledTotal count _ _
    rw [htotal _ _ hall]
    refine List.sum_le_sum ?_
    intro q hq
    exact hmono _ _ q.succ_pos (lt_accumulatedL hsize (List.mem_range.mp hq)) (min_le_left _ _)
  · show sampledTotal count _ _ ≤ l.n * t l.n
    rw [htotal _ _ hall]
    refine (List.sum_le_card_nsmul _ (t l.n) ?_).trans_eq ?_
    · intro x hx
      obtain ⟨q, hq, rfl⟩ := List.mem_map.mp hx
      exact hmono _ _ (accumulatedL_pos hL hsize _) (min_le_left _ _) le_rfl
    · rw [List.length_map, List.length_range, nsmul_eq_mul]
  · rintro rfl
    show sampledTotal count _ _ = causalSum t l.n
    have hone : chunkSizeOf 1 l.n = 1 := by
      rw [chunkSizeOf]
      omega
    rw [htotal _ _ hall, hone]
    refine congrArg List.sum (List.map_congr_left ?_)
    intro q hq
    have hq := List.mem_range.mp hq
    rw [accumulatedL, Nat.div_one, Nat.mul_one, min_eq_right (by omega)]
  · intro D count' total' hpos hdvd hall' hrun
    rw [simulatePimPrefillScore_eq h hL] at hrun
    obtain rfl := Except.ok.inj hrun
    show sampledTotal count' _ _ ≤ sampledTotal count _ _
    rw [htotal _ _ hall, htotal _ _ hall']
    refine List.sum_le_sum ?_
    intro q hq
    exact hmono _ _ (accumulatedL_pos hL (chunkSizeOf_pos D l.n) _)
      (accumulatedL_le_of_dvd (List.mem_range.mp hq) hpos hdvd) (min_le_left _ _)

end Chunks

/-- `FakePIM` of the tests. -/
def fakePim (l : Layer) : Except PyError Outcome :=
  if l.type = .MATMUL ∧ l.name = .score then
    .ok { execTime := l.n * (1 / 10 ^ 9)
          energy := fun | .offmem => l.n | _ => 0 }
  else .ok { execTime := 0, energy := 0 }

/-- A score layer of `totalL` queries. -/
def scoreLayer (totalL : ℕ) : Layer where
  stage := .sum
  name := .score
  type := .MATMUL
  hasWeight := false
  dtype := .W16A16
  m := totalL
  n := totalL
  k := 128
  numOp := 32
  pimNumOp := 8
  supported := by decide

/-- What `FakePIM` takes for a query is proportional to the KV length. -/
theorem queryCosts_fakePim (totalL : ℕ) : QueryCosts fakePim (scoreLayer totalL)
    (fun q => 0 + 1 / 10 ^ 9 * q)
    fun level q => (0 : EnergyLevel → ℚ) level + (if level = .offmem then 1 else 0) * q := by
  intro q _ _
  refine ⟨.compute, ?_⟩
  have henergy : (fun | .offmem => (q : ℚ) | _ => 0 : Energy) = fun level =>
      (0 : EnergyLevel → ℚ) level + (if level = .offmem then 1 else 0) * q := by
    funext level
    cases level <;> simp
  have htime : (q : ℚ) * (1 / 10 ^ 9) = 0 + 1 / 10 ^ 9 * q := by ring
  show fakePim (chunkLayer (scoreLayer totalL) q) =
    .ok { execTime := 0 + 1 / 10 ^ 9 * (q : ℚ), energy := _ }
  rw [← henergy, ← htime]
  rfl

/-- Four chunks of four queries. -/
theorem prefill_bounds_sixteen : ∃ total,
    simulatePimPrefillScore fakePim 4 8 (scoreLayer 16) = .ok total ∧
      causalSum (fun q => 0 + 1 / 10 ^ 9 * q) 16 ≤ total.1 ∧ total.1 ≤ 16 * (16 / 10 ^ 9) := by
  have hmono : ∀ q q' : ℕ, 1 ≤ q → q ≤ q' → q' ≤ (scoreLayer 16).n →
      (0 + 1 / 10 ^ 9 * q : ℚ) ≤ 0 + 1 / 10 ^ 9 * q' := by
    intro q q' _ hqq' _
    have hcast : (q : ℚ) ≤ q' := Nat.cast_le.mpr hqq'
    linarith
  have hall : chunkCount 4 (scoreLayer 16).n ≤ 8 := by decide
  obtain ⟨total, hrun, -, -, hcausal, hfull, -⟩ :=
    prefill_bounds (queryCosts_fakePim 16) hmono (by decide) hall
  refine ⟨total, hrun, hcausal, hfull.trans_eq ?_⟩
  norm_num [scoreLayer]

/-- A chunk size of zero stands for one, which two does not divide: replacing it by two, a
divisor of zero, takes longer. -/
theorem not_prefill_bounds_zero : ∃ total total',
    simulatePimPrefillScore fakePim 0 8 (scoreLayer 2) = .ok total ∧ 2 ∣ 0 ∧
      chunkCount 0 2 ≤ 8 ∧ chunkCount 2 2 ≤ 8 ∧
      simulatePimPrefillScore fakePim 2 8 (scoreLayer 2) = .ok total' ∧ total.1 < total'.1 := by
  refine ⟨_, _, simulatePimPrefillScore_eq (queryCosts_fakePim 2) (by decide) 0 8, by decide,
    by decide, by decide, simulatePimPrefillScore_eq (queryCosts_fakePim 2) (by decide) 2 8, ?_⟩
  show sampledTotal 8 2 (chunkTotal _ 2 1) < sampledTotal 8 1 (chunkTotal _ 2 2)
  rw [sampledTotal_of_all (by decide) (by decide), sampledTotal_of_all (by decide) (by decide)]
  norm_num [List.range_succ, chunkTotal, accumulatedL, chunkLength]

section Affine

variable {time : Layer → Except PyError Outcome} {l : Layer} {prefillChunkSize : ℕ}

/-! ### Sampling affine costs -/

/-- The total of the last chunk is what a whole chunk would cost there, at the KV length that
it would end with. -/
def LastChunkOnLine (a b : ℚ) (prefillChunkSize totalL : ℕ) : Prop :=
  (a + b * totalL) * chunkLength totalL (chunkSizeOf prefillChunkSize totalL)
      (chunkCount prefillChunkSize totalL - 1) =
    (a + b * (chunkCount prefillChunkSize totalL * chunkSizeOf prefillChunkSize totalL : ℕ)) *
      chunkSizeOf prefillChunkSize totalL

theorem le_chunkCount_mul (prefillChunkSize totalL : ℕ) :
    totalL ≤ chunkCount prefillChunkSize totalL * chunkSizeOf prefillChunkSize totalL := by
  rw [mul_comm]
  exact le_smul_ceilDiv (chunkSizeOf_pos prefillChunkSize totalL)

/-- The last chunk ends with the last query. -/
theorem accumulatedL_last (prefillChunkSize : ℕ) {totalL : ℕ} (hL : 0 < totalL) :
    accumulatedL totalL (chunkSizeOf prefillChunkSize totalL)
      (chunkCount prefillChunkSize totalL - 1) = totalL := by
  rw [accumulatedL, Nat.sub_add_cancel (chunkCount_pos hL)]
  exact min_eq_left (le_chunkCount_mul prefillChunkSize totalL)

/-- Every other chunk ends where it is whole. -/
theorem accumulatedL_of_lt {totalL i : ℕ} (h : i + 1 < chunkCount prefillChunkSize totalL) :
    accumulatedL totalL (chunkSizeOf prefillChunkSize totalL) i =
      (i + 1) * chunkSizeOf prefillChunkSize totalL := by
  refine min_eq_right ?_
  by_contra hlong
  have hle := (ceilDiv_le_iff_le_mul (chunkSizeOf_pos prefillChunkSize totalL)).mpr
    ((not_le.mp hlong).le.trans_eq (mul_comm _ _))
  exact absurd h (not_lt.mpr hle)

/-- Sampling is exact for an affine cost if all chunks are sampled, or the last is on the line
of the others, and only then. -/
theorem sampledTotal_eq_iff {totalL : ℕ} (hL : 0 < totalL) (a b : ℚ) (count : ℕ) :
    sampledTotal count (chunkCount prefillChunkSize totalL)
        (chunkTotal (fun q => a + b * q) totalL (chunkSizeOf prefillChunkSize totalL)) =
      ((List.range (chunkCount prefillChunkSize totalL)).map
        (chunkTotal (fun q => a + b * q) totalL (chunkSizeOf prefillChunkSize totalL))).sum ↔
    chunkCount prefillChunkSize totalL ≤ max count 2 ∨
      LastChunkOnLine a b prefillChunkSize totalL := by
  have hn : 0 < chunkCount prefillChunkSize totalL := chunkCount_pos hL
  rcases Nat.lt_or_ge (max count 2) (chunkCount prefillChunkSize totalL) with hmany | hfew
  · rw [or_iff_right (not_le.mpr hmany), LastChunkOnLine]
    have hlast := accumulatedL_last prefillChunkSize hL
    have hwhole : ∀ i < chunkCount prefillChunkSize totalL - 1,
        chunkTotal (fun q => a + b * q) totalL (chunkSizeOf prefillChunkSize totalL) i =
          (a + b * chunkSizeOf prefillChunkSize totalL) * chunkSizeOf prefillChunkSize totalL +
            b * chunkSizeOf prefillChunkSize totalL * chunkSizeOf prefillChunkSize totalL * i := by
      intro i hi
      rw [chunkTotal, accumulatedL_of_lt (by omega),
        chunkLength_of_lt (chunkSizeOf_pos prefillChunkSize totalL) (by rw [← chunkCount]; omega)]
      push_cast
      ring
    obtain ⟨weight, hweight, htotal⟩ := sampledTotal_affine hmany hwhole
    rw [htotal, add_eq_left, mul_eq_zero, or_iff_left hweight.ne', sub_eq_zero, chunkTotal, hlast]
    have hcast : ((chunkCount prefillChunkSize totalL - 1 : ℕ) : ℚ) =
        chunkCount prefillChunkSize totalL - 1 := Nat.cast_pred hn
    rw [hcast]
    push_cast
    ring_nf
  · exact iff_of_true (sampledTotal_of_all hn hfew) (.inl hfew)

/-- A whole last chunk is on the line. -/
theorem lastChunkOnLine_of_dvd {totalL : ℕ} (hL : 0 < totalL)
    (h : chunkSizeOf prefillChunkSize totalL ∣ totalL) (a b : ℚ) :
    LastChunkOnLine a b prefillChunkSize totalL := by
  have hsize := chunkSizeOf_pos prefillChunkSize totalL
  have hn : 0 < chunkCount prefillChunkSize totalL := chunkCount_pos hL
  have hwhole : chunkCount prefillChunkSize totalL * chunkSizeOf prefillChunkSize totalL =
      totalL := ceilDiv_mul_of_dvd hsize h
  have hlength : chunkLength totalL (chunkSizeOf prefillChunkSize totalL)
      (chunkCount prefillChunkSize totalL - 1) = chunkSizeOf prefillChunkSize totalL := by
    have hlast := chunkLength_last hsize hL
    rw [← chunkCount, Nat.sub_mul, one_mul, hwhole] at hlast
    have hle := Nat.le_of_dvd hL h
    omega
  rw [LastChunkOnLine, hlength, hwhole]

/-- Where a query costs something, only a whole last chunk is. -/
theorem lastChunkOnLine_iff_dvd {totalL : ℕ} (hL : 0 < totalL) {a b : ℚ} (hb : 0 ≤ b)
    (hcost : 0 < a + b) : LastChunkOnLine a b prefillChunkSize totalL ↔
      chunkSizeOf prefillChunkSize totalL ∣ totalL := by
  refine ⟨?_, fun h => lastChunkOnLine_of_dvd hL h a b⟩
  intro hline
  have hlast := chunkLength_last (chunkSizeOf_pos prefillChunkSize totalL) hL
  have hle := le_chunkCount_mul prefillChunkSize totalL
  rw [← chunkCount] at hlast
  rcases (chunkLength_le totalL (chunkSizeOf prefillChunkSize totalL)
    (chunkCount prefillChunkSize totalL - 1)).eq_or_lt with heq | hlt
  · rw [heq] at hlast
    have hdvd : chunkSizeOf prefillChunkSize totalL ∣ chunkSizeOf prefillChunkSize totalL +
        (chunkCount prefillChunkSize totalL - 1) * chunkSizeOf prefillChunkSize totalL :=
      Dvd.dvd.add (dvd_refl _) (dvd_mul_left _ _)
    exact hdvd.trans (dvd_of_eq hlast)
  · -- A shorter chunk, at no more a query, costs less.
    have hone : (1 : ℚ) ≤ totalL := by exact_mod_cast hL
    have hquery : 0 < a + b * totalL := by
      have := le_mul_of_one_le_right hb hone
      linarith
    have hgrow : a + b * totalL ≤ a + b * (chunkCount prefillChunkSize totalL *
        chunkSizeOf prefillChunkSize totalL : ℕ) :=
      add_le_add_right (mul_le_mul_of_nonneg_left (Nat.cast_le.mpr hle) hb) a
    have hless := mul_lt_mul_of_pos_left (Nat.cast_lt (α := ℚ).mpr hlt) hquery
    have hmore := mul_le_mul_of_nonneg_right hgrow
      (Nat.cast_nonneg (α := ℚ) (chunkSizeOf prefillChunkSize totalL))
    exact absurd hline (hless.trans_le hmore).ne

/-- **When sampling is exact for affine costs**: all chunks are sampled, which two always are,
or for the time and for each energy the total of the last chunk lies on the line of the
others. -/
theorem prefill_exact_iff {a b : ℚ} {ea eb : EnergyLevel → ℚ}
    (h : QueryCosts time l (fun q => a + b * q) fun level q => ea level + eb level * q)
    (hL : 1 ≤ l.n) (prefillChunkSize count : ℕ) :
    ∃ total every, simulatePimPrefillScore time prefillChunkSize count l = .ok total ∧
      evaluateChunks time prefillChunkSize l = .ok every ∧
      (total = every ↔ chunkCount prefillChunkSize l.n ≤ max count 2 ∨
        LastChunkOnLine a b prefillChunkSize l.n ∧
          ∀ level, LastChunkOnLine (ea level) (eb level) prefillChunkSize l.n) := by
  refine ⟨_, _, simulatePimPrefillScore_eq h hL prefillChunkSize count,
    evaluateChunks_eq h hL prefillChunkSize, ?_⟩
  rw [Prod.mk.injEq, funext_iff, sampledTotal_eq_iff hL]
  simp only [sampledTotal_eq_iff hL]
  rw [or_and_left, forall_or_left]

/-- Of eight chunks of two queries, two are sampled; the others are interpolated, and the total is
exact: the last chunk is whole. -/
theorem prefill_exact_sixteen : ∃ total every,
    simulatePimPrefillScore fakePim 2 2 (scoreLayer 16) = .ok total ∧
      evaluateChunks fakePim 2 (scoreLayer 16) = .ok every ∧ chunkCount 2 16 = 8 ∧
        total = every := by
  obtain ⟨total, every, hrun, hevery, hiff⟩ :=
    prefill_exact_iff (queryCosts_fakePim 16) (by decide) 2 2
  have hwhole : chunkSizeOf 2 16 ∣ 16 := by decide
  have hline := fun a b => lastChunkOnLine_of_dvd (by decide) hwhole a b
  exact ⟨total, every, hrun, hevery, by decide, hiff.mpr (.inr ⟨hline _ _, fun _ => hline _ _⟩)⟩

/-- Of five queries in chunks of two, the last chunk has one: with two samples the chunk in
the middle is charged for too little. -/
theorem not_prefill_exact_five : ∃ total every,
    simulatePimPrefillScore fakePim 2 2 (scoreLayer 5) = .ok total ∧
      evaluateChunks fakePim 2 (scoreLayer 5) = .ok every ∧ total.1 ≠ every.1 := by
  refine ⟨_, _, simulatePimPrefillScore_eq (queryCosts_fakePim 5) (by decide) 2 2,
    evaluateChunks_eq (queryCosts_fakePim 5) (by decide) 2, ?_⟩
  refine mt (sampledTotal_eq_iff (by decide) 0 (1 / 10 ^ 9) 2).mp ?_
  rw [lastChunkOnLine_iff_dvd (by decide) (by norm_num) (by norm_num)]
  decide

end Affine

end AttAcc
