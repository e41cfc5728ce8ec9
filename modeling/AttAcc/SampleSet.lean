import AttAcc.Library.Calls
import AttAcc.Prefill

/-!
# The samples of a prefill

`_sample_indices` keeps the first chunk and the last, and places the other samples in between. Two
samples are therefore always taken of two chunks or more, also where only one was asked for; from
two on, no more are taken than were (`length_sampleIndices_le_iff`).

The accelerator is called once for every sample, whatever it answers, and once it has answered for
all of them nothing that `_simulate_pim_prefill_score` looks up is missing: what it raises, the
accelerator has raised (`sampleIndices_spec`).
-/

namespace AttAcc

open Library

/-- Ordered indices of some of `n` items, at most so many as `bound` says, with the first and the
last. They are those of all items exactly if there are as many. -/
structure SampleSet (n bound : ℕ) (indices : List ℕ) : Prop where
  sorted : indices.Pairwise (· < ·)
  lt : ∀ i ∈ indices, i < n
  first : 0 ∈ indices
  last : n - 1 ∈ indices
  length_le : indices.length ≤ bound
  full_iff : indices = List.range n ↔ indices.length = n

section Indices

variable {n count : ℕ}

/-- With two samples or more, the first and the last item are at the first and the last position,
so there is at most an index for every position. -/
theorem length_sampleIndices_le (n : ℕ) (hcount : 2 ≤ count) :
    (sampleIndices n count).length ≤ count := by
  rcases Nat.lt_or_ge count n with hmore | hfits
  · have hnodup : (sampleIndices n count).Nodup :=
      (pairwise_sampleIndices n count).imp fun hlt => hlt.ne
    have hsubset : sampleIndices n count ⊆ (List.range count).map (sampledIndex n count) := by
      intro i hi
      rw [List.mem_map]
      obtain rfl | rfl | ⟨pos, hpos, rfl⟩ := (mem_sampleIndices hmore).mp hi
      · exact ⟨0, List.mem_range.mpr (by omega), sampledIndex_zero⟩
      · exact ⟨count - 1, List.mem_range.mpr (by omega), sampledIndex_last hcount⟩
      · exact ⟨pos, List.mem_range.mpr hpos, rfl⟩
    have hle := (hnodup.subperm hsubset).length_le
    rwa [List.length_map, List.length_range] at hle
  · rw [sampleIndices_of_le hfits, List.length_range]
    exact hfits

/-- One sample of two items or more is two. -/
theorem sampleIndices_one (hn : 2 ≤ n) : sampleIndices n 1 = [0, n - 1] := by
  have hends : [0, n - 1].Pairwise (· < ·) := by
    simp
    omega
  refine (pairwise_sampleIndices n 1).eq_of_mem_iff hends ?_
  intro i
  rw [mem_sampleIndices (by omega), List.mem_cons, List.mem_singleton]
  constructor
  · rintro (rfl | rfl | ⟨pos, hpos, rfl⟩)
    · exact .inl rfl
    · exact .inr rfl
    · obtain rfl : pos = 0 := by omega
      exact .inl sampledIndex_zero
  · rintro (rfl | rfl)
    · exact .inl rfl
    · exact .inr (.inl rfl)

/-- No more samples are taken than asked for, except that one of several items is two. -/
theorem length_sampleIndices_le_iff (hn : 0 < n) (hcount : 0 < count) :
    (sampleIndices n count).length ≤ count ↔ n = 1 ∨ 2 ≤ count := by
  constructor
  · intro hle
    by_contra hone
    obtain rfl : count = 1 := by omega
    rw [sampleIndices_one (by omega)] at hle
    simp at hle
  · rintro (rfl | hcount)
    · rw [sampleIndices_of_le hcount, List.length_range]
      exact hcount
    · exact length_sampleIndices_le n hcount

theorem length_sampleIndices_le_max (hn : 0 < n) (hcount : 0 < count) :
    (sampleIndices n count).length ≤ max count 2 := by
  rcases Nat.lt_or_ge count 2 with hone | hmore
  · obtain rfl : count = 1 := by omega
    rcases Nat.lt_or_ge n 2 with hfew | hmany
    · exact ((length_sampleIndices_le_iff hn hcount).mpr (.inl (by omega))).trans (le_max_left _ _)
    · rw [sampleIndices_one hmany]
      exact le_max_right _ _
  · exact (length_sampleIndices_le n hmore).trans (le_max_left _ _)

/-- The samples, for a number that is not exceeded. -/
theorem sampleSet_sampleIndices (hn : 0 < n) {bound : ℕ}
    (hbound : (sampleIndices n count).length ≤ bound) :
    SampleSet n bound (sampleIndices n count) where
  sorted := pairwise_sampleIndices n count
  lt _ hi := lt_of_mem_sampleIndices hn hi
  first := zero_mem_sampleIndices count hn
  last := last_mem_sampleIndices hn
  length_le := hbound
  full_iff := by
    constructor
    · intro hfull
      rw [hfull, List.length_range]
    · intro hlength
      refine (pairwise_sampleIndices n count).eq_of_mem_iff List.pairwise_lt_range ?_
      intro i
      rw [List.mem_range]
      exact ⟨lt_of_mem_sampleIndices hn, mem_sampleIndices_of_length hn hlength⟩

end Indices

/-! ### The calls of the accelerator -/

/-- `sampleChunk`, where a call of the accelerator is a step of any kind. -/
def sampleChunkM {m : Type → Type} [Monad m] (time : Layer → m Outcome) (l : Layer)
    (chunkSize chunkIdx : ℕ) : m (ℚ × Energy) := do
  let chunkTokens := min chunkSize (l.n - chunkIdx * chunkSize)
  let perQuery ← time (chunkLayer l (accumulatedL l.n chunkSize chunkIdx))
  return (perQuery.execTime * chunkTokens, fun level => perQuery.energy level * chunkTokens)

/-- The loop over all chunks, once the samples are timed. -/
def totalOfSamples (n : ℕ) (indices : List ℕ) (sampled : List (ℚ × Energy)) :
    Except PyError (ℚ × Energy) :=
  (List.range n).foldlM (fun acc chunkIdx => do
    let cost ← chunkCost (decide (indices.length = n)) (indices.zip (sampled.map Prod.fst))
      (indices.zip (sampled.map Prod.snd)) chunkIdx
    return acc + cost) 0

/-- `_simulate_pim_prefill_score`, where a call of the accelerator is a step of any kind. -/
def simulatePimPrefillScoreM {m : Type → Type} [Monad m] [MonadExceptOf PyError m]
    (time : Layer → m Outcome) (prefillChunkSize count : ℕ) (l : Layer) : m (ℚ × Energy) := do
  let n := chunkCount prefillChunkSize l.n
  let indices := sampleIndices n count
  let sampled ← indices.mapM (sampleChunkM time l (chunkSizeOf prefillChunkSize l.n))
  ofExcept (totalOfSamples n indices sampled)

section Calls

variable {time : Layer → Except PyError Outcome} {l : Layer} {prefillChunkSize count n : ℕ}

theorem simulatePimPrefillScore_eq_bind (time : Layer → Except PyError Outcome) (l : Layer)
    (prefillChunkSize count : ℕ) : simulatePimPrefillScore time prefillChunkSize count l =
    (sampleIndices (chunkCount prefillChunkSize l.n) count).mapM
        (sampleChunk time l (chunkSizeOf prefillChunkSize l.n)) >>=
      totalOfSamples (chunkCount prefillChunkSize l.n)
        (sampleIndices (chunkCount prefillChunkSize l.n) count) :=
  rfl

/-- Where the step is an answer or a raise, it is the function of before. -/
theorem simulatePimPrefillScoreM_except : simulatePimPrefillScoreM time prefillChunkSize count l =
    simulatePimPrefillScore time prefillChunkSize count l := by
  have hofExcept : ∀ r : Except PyError (ℚ × Energy), ofExcept r = r := by
    intro r
    cases r with
    | ok total => rfl
    | error e => rfl
  rw [simulatePimPrefillScore_eq_bind, simulatePimPrefillScoreM]
  simp only [hofExcept]
  rfl

/-- The time and the energies of a sample are found under its index. -/
theorem exists_lookup_zip {α β : Type} [BEq α] [LawfulBEq α] {as : List α} {bs : List β} {a : α}
    (hlength : bs.length = as.length) (ha : a ∈ as) : ∃ b, (as.zip bs).lookup a = some b := by
  induction as generalizing bs with
  | nil => exact absurd ha List.not_mem_nil
  | cons a' as ih =>
    cases bs with
    | nil => simp at hlength
    | cons b bs =>
      rw [List.zip_cons_cons, List.lookup_cons]
      cases hhead : a == a' with
      | true => exact ⟨b, rfl⟩
      | false =>
        apply ih
        · simpa using hlength
        · exact (List.mem_cons.mp ha).resolve_left (beq_eq_false_iff_ne.mp hhead)

/-- Energies can be interpolated where there is a point. -/
theorem exists_interpVector {points : List (ℕ × Energy)} (hne : points ≠ []) (x : ℕ) :
    ∃ e, interpVector points x = .ok e := by
  have hlevel : ∀ level : EnergyLevel, ∃ v,
      interpScalar (points.map fun p => (p.1, p.2 level)) x = .ok v :=
    fun level => ⟨_, interpScalar_eq_ok (mt List.map_eq_nil_iff.mp hne) x⟩
  choose v hv using hlevel
  rw [interpVector, Energy.sequence]
  simp only [hv]
  exact ⟨_, rfl⟩

/-- What stands for a chunk is found, or interpolated, once the samples are timed. -/
theorem exists_chunkCost {indices : List ℕ} {sampled : List (ℚ × Energy)} {i : ℕ}
    (hlength : sampled.length = indices.length) (hne : indices ≠ [])
    (hall : indices.length = n → i ∈ indices) :
    ∃ cost, chunkCost (decide (indices.length = n)) (indices.zip (sampled.map Prod.fst))
      (indices.zip (sampled.map Prod.snd)) i = .ok cost := by
  rw [chunkCost]
  by_cases hexact : indices.length = n
  · have hfound : ∀ {α : Type} (f : ℚ × Energy → α), ∃ b,
        (indices.zip (sampled.map f)).lookup i = some b :=
      fun f => exists_lookup_zip (by simpa using hlength) (hall hexact)
    obtain ⟨t, ht⟩ := hfound Prod.fst
    obtain ⟨e, he⟩ := hfound Prod.snd
    rw [if_pos (decide_eq_true hexact), ht, he]
    exact ⟨_, rfl⟩
  · have hpoints : ∀ {α : Type} (f : ℚ × Energy → α), indices.zip (sampled.map f) ≠ [] := by
      intro α f hnil
      rcases List.zip_eq_nil_iff.mp hnil with hnil | hnil
      · exact hne hnil
      · rw [List.map_eq_nil_iff.mp hnil] at hlength
        exact hne (List.length_eq_zero_iff.mp hlength.symm)
    obtain ⟨e, he⟩ := exists_interpVector (hpoints Prod.snd) i
    rw [if_neg (by simp [hexact]), interpScalar_eq_ok (hpoints Prod.fst), he]
    exact ⟨_, rfl⟩

theorem exists_totalOfSamples (hn : 0 < n) {sampled : List (ℚ × Energy)}
    (hlength : sampled.length = (sampleIndices n count).length) :
    ∃ total, totalOfSamples n (sampleIndices n count) sampled = .ok total := by
  have hstep : ∀ acc, True → ∀ i ∈ List.range n, ∃ acc', (do
      let cost ← chunkCost (decide ((sampleIndices n count).length = n))
        ((sampleIndices n count).zip (sampled.map Prod.fst))
        ((sampleIndices n count).zip (sampled.map Prod.snd)) i
      return acc + cost : Except PyError (ℚ × Energy)) = .ok acc' ∧ True := by
    intro acc _ i hi
    obtain ⟨cost, hcost⟩ := exists_chunkCost hlength
      (List.ne_nil_of_mem (zero_mem_sampleIndices count hn))
      fun hall => mem_sampleIndices_of_length hn hall (List.mem_range.mp hi)
    exact ⟨_, bind_ok_iff.mpr ⟨cost, hcost, rfl⟩, trivial⟩
  obtain ⟨total, htotal, -⟩ := exists_foldlM_ok hstep trivial
  exact ⟨total, htotal⟩

/-- A sample is one call. -/
theorem calls_sampleChunkM (time : Layer → Except PyError Outcome) (l : Layer)
    (chunkSize chunkIdx : ℕ) :
    Calls (sampleChunkM (noting time) l chunkSize chunkIdx) (sampleChunk time l chunkSize chunkIdx)
      [chunkLayer l (accumulatedL l.n chunkSize chunkIdx)] :=
  (calls_noting time _).bind fun _ => calls_pure _

/-- What a sample raises, its call has raised. -/
theorem time_of_sampleChunk {chunkSize chunkIdx : ℕ} {e : PyError}
    (h : sampleChunk time l chunkSize chunkIdx = .error e) :
    time (chunkLayer l (accumulatedL l.n chunkSize chunkIdx)) = .error e := by
  have hcall : sampleChunk time l chunkSize chunkIdx =
      (time (chunkLayer l (accumulatedL l.n chunkSize chunkIdx)) >>= fun perQuery => .ok _) := rfl
  rw [hcall] at h
  cases htime : time (chunkLayer l (accumulatedL l.n chunkSize chunkIdx)) with
  | ok o =>
    rw [htime] at h
    cases h
  | error e' =>
    rw [htime] at h
    exact congrArg Except.error (Except.error.inj h)

/-- The accelerator is called for the samples, once each until it raises, and nothing else
raises. -/
def CalledForSamples (time : Layer → Except PyError Outcome) (prefillChunkSize count : ℕ)
    (l : Layer) : Prop :=
  ∃ asked, Calls (simulatePimPrefillScoreM (noting time) prefillChunkSize count l)
      (simulatePimPrefillScore time prefillChunkSize count l) asked ∧
    asked.length ≤ (sampleIndices (chunkCount prefillChunkSize l.n) count).length ∧
    (∀ total, simulatePimPrefillScore time prefillChunkSize count l = .ok total →
      asked.length = (sampleIndices (chunkCount prefillChunkSize l.n) count).length) ∧
    ∀ e, simulatePimPrefillScore time prefillChunkSize count l = .error e →
      ∃ q ∈ asked, time q = .error e

theorem calledForSamples (time : Layer → Except PyError Outcome) {prefillChunkSize : ℕ} {l : Layer}
    (hn : 0 < chunkCount prefillChunkSize l.n) (count : ℕ) :
    CalledForSamples time prefillChunkSize count l := by
  obtain ⟨asked, hcalls, hprefix, hok, herror⟩ := exists_calls_mapM
    (calls_sampleChunkM time l (chunkSizeOf prefillChunkSize l.n))
    (sampleIndices (chunkCount prefillChunkSize l.n) count)
  have hscore := simulatePimPrefillScore_eq_bind time l prefillChunkSize count
  refine ⟨asked, ?_, ?_, ?_, ?_⟩
  · rw [hscore]
    exact hcalls.bind fun sampled => calls_ofExcept _
  · simpa using hprefix.length_le
  · intro total htotal
    rw [hscore] at htotal
    obtain ⟨sampled, hsampled, -⟩ := bind_ok_iff.mp htotal
    rw [hok sampled hsampled, List.length_map]
  · intro e he
    rw [hscore] at he
    cases hsampled : (sampleIndices (chunkCount prefillChunkSize l.n) count).mapM
        (sampleChunk time l (chunkSizeOf prefillChunkSize l.n)) with
    | ok sampled =>
      -- the samples are timed, so the rest returns
      obtain ⟨total, htotal⟩ :=
        exists_totalOfSamples hn (mapM_ok_iff.mp hsampled).length_eq.symm
      rw [hsampled] at he
      cases htotal.symm.trans he
    | error e' =>
      obtain ⟨i, -, hasked, hraise⟩ := herror e' hsampled
      rw [hsampled] at he
      obtain rfl := Except.error.inj he
      exact ⟨_, hasked, time_of_sampleChunk hraise⟩

/-- The samples of `n` chunks are ordered, contain the first and the last, and are those of all
chunks exactly if there are as many. There are at most two, or as many as were asked for, and no
more than were asked for exactly if there is one chunk or two were asked for. The accelerator is
called for the samples, and finding what they cost never raises. -/
theorem sampleIndices_spec {n count : ℕ} (hn : 1 ≤ n) (hcount : 1 ≤ count) :
    SampleSet n (max count 2) (sampleIndices n count) ∧
      (SampleSet n count (sampleIndices n count) ↔ n = 1 ∨ 2 ≤ count) ∧
      ∀ time prefillChunkSize l, chunkCount prefillChunkSize l.n = n →
        CalledForSamples time prefillChunkSize count l := by
  refine ⟨sampleSet_sampleIndices hn (length_sampleIndices_le_max hn hcount), ?_, ?_⟩
  · rw [← length_sampleIndices_le_iff hn hcount]
    exact ⟨SampleSet.length_le, sampleSet_sampleIndices hn⟩
  · rintro time prefillChunkSize l rfl
    exact calledForSamples time hn count

/-- Five chunks, of which three are timed. -/
theorem sampleIndices_spec_five : SampleSet 5 (max 3 2) (sampleIndices 5 3) ∧
    (SampleSet 5 3 (sampleIndices 5 3) ↔ 5 = 1 ∨ 2 ≤ 3) ∧
    ∀ time prefillChunkSize l, chunkCount prefillChunkSize l.n = 5 →
      CalledForSamples time prefillChunkSize 3 l :=
  sampleIndices_spec (by decide) (by decide)

/-- Two chunks, one of which is asked for: both are timed. -/
theorem not_sampleSet_two_one : ¬SampleSet 2 1 (sampleIndices 2 1) ∧
    ∃ total asked, Calls (simulatePimPrefillScoreM (noting fakePim) 1 1 (scoreLayer 2))
      (.ok total) asked ∧ asked.length = 2 := by
  have htwo : sampleIndices 2 1 = [0, 1] := sampleIndices_one le_rfl
  have hchunks : chunkCount 1 (scoreLayer 2).n = 2 := by decide
  have hpos : 0 < chunkCount 1 (scoreLayer 2).n := by decide
  constructor
  · intro h
    have hle := h.length_le
    rw [htwo] at hle
    exact absurd hle (by decide)
  · obtain ⟨asked, hcalls, -, hlength, -⟩ :=
      calledForSamples fakePim hpos 1
    have hscore := simulatePimPrefillScore_eq (queryCosts_fakePim 2) (by decide) 1 1
    refine ⟨_, asked, hscore ▸ hcalls, ?_⟩
    rw [hlength _ hscore, hchunks, htwo]
    rfl

end Calls

end AttAcc
