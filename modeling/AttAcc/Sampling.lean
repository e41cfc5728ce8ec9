import AttAcc.Device
import AttAcc.Library.Rounding
import Mathlib.Data.Finset.Sort
import Mathlib.Data.List.Sort

/-!
# Sampled prefill on the accelerator

`_simulate_pim_prefill_score` of `src/system.py` and its helpers. The prefill score is
cut into chunks; every chunk is charged for all its queries at the KV length it ends
with. When there are more chunks than samples, a geometric sample of them is timed and
the others are interpolated.
-/

namespace AttAcc

open Library

/-- `_sample_indices`. `round` takes a tie to the even integer. -/
def sampleIndices (nItems sampleCount : ℕ) : List ℕ :=
  if nItems ≤ sampleCount then List.range nItems
  else
    let denom : ℕ := max 1 (2 ^ (sampleCount - 1) - 1)
    let sampled := (List.range sampleCount).map fun pos : ℕ =>
      (roundHalfEven (((nItems - 1 : ℕ) : ℚ) * (((2 ^ pos - 1 : ℕ) : ℚ) / denom))).toNat
    (0 :: (nItems - 1) :: sampled).toFinset.sort (· ≤ ·)

/-- The order of Python's tuples. -/
def tupleLe (p q : ℕ × ℚ) : Prop := p.1 < q.1 ∨ p.1 = q.1 ∧ p.2 ≤ q.2

instance : DecidableRel tupleLe := fun p q =>
  inferInstanceAs (Decidable (p.1 < q.1 ∨ p.1 = q.1 ∧ p.2 ≤ q.2))

/-- The loop of `_interp_scalar` over consecutive points, once `x` is known to lie
between the first and the last. -/
def interpSegments (x : ℕ) : ℕ × ℚ → List (ℕ × ℚ) → ℚ
  | p, [] => p.2
  | p, q :: qs =>
    if x ≤ q.1 then
      let ratio : ℚ := ((x : ℚ) - p.1) / max 1 ((q.1 : ℚ) - p.1)
      p.2 + (q.2 - p.2) * ratio
    else interpSegments x q qs

/-- `_interp_scalar`. -/
def interpScalar (points : List (ℕ × ℚ)) (x : ℕ) : Except PyError ℚ :=
  match points.insertionSort tupleLe with
  | [] => .error .indexError
  | p :: ps =>
    let last := (p :: ps).getLast (List.cons_ne_nil p ps)
    if x ≤ p.1 then .ok p.2
    else if last.1 ≤ x then .ok last.2
    else .ok (interpSegments x p ps)

/-- `_interp_vector`. -/
def interpVector (points : List (ℕ × Energy)) (x : ℕ) : Except PyError Energy :=
  Energy.sequence fun level => interpScalar (points.map fun p => (p.1, p.2 level)) x

/-- The layer timed for one query of a chunk that ends at `accumulatedL`. -/
def chunkLayer (l : Layer) (accumulatedL : ℕ) : Layer :=
  { l with m := 1, n := accumulatedL }

/-- The time and energy of chunk `chunkIdx`: those of one query, times its queries. -/
def sampleChunk (time : Layer → Except PyError Outcome) (l : Layer) (chunkSize chunkIdx : ℕ) :
    Except PyError (ℚ × Energy) := do
  let totalL := l.n
  let chunkTokens := min chunkSize (totalL - chunkIdx * chunkSize)
  let accumulatedL := min totalL ((chunkIdx + 1) * chunkSize)
  let perQuery ← time (chunkLayer l accumulatedL)
  return (perQuery.execTime * chunkTokens, fun level => perQuery.energy level * chunkTokens)

/-- The time and energy that stand for chunk `chunkIdx` in the total. -/
def chunkCost (exact : Bool) (sampledTime : List (ℕ × ℚ)) (sampledEnergy : List (ℕ × Energy))
    (chunkIdx : ℕ) : Except PyError (ℚ × Energy) := do
  if exact then
    match sampledTime.lookup chunkIdx, sampledEnergy.lookup chunkIdx with
    | some time, some energy => return (time, energy)
    | _, _ => throw .valueError
  else
    let time ← interpScalar sampledTime chunkIdx
    let energy ← interpVector sampledEnergy chunkIdx
    return (time, energy)

/-- `_simulate_pim_prefill_score`, for the configured chunk size and sample count. -/
def simulatePimPrefillScore (time : Layer → Except PyError Outcome)
    (prefillChunkSize prefillSampleCount : ℕ) (l : Layer) : Except PyError (ℚ × Energy) := do
  let totalL := l.n
  let chunkSize := max 1 (min prefillChunkSize totalL)
  let nChunks := totalL ⌈/⌉ chunkSize
  let indices := sampleIndices nChunks prefillSampleCount
  let sampled ← indices.mapM (sampleChunk time l chunkSize)
  let sampledTime := indices.zip (sampled.map Prod.fst)
  let sampledEnergy := indices.zip (sampled.map Prod.snd)
  let exact := decide (indices.length = nChunks)
  (List.range nChunks).foldlM (fun (acc : ℚ × Energy) chunkIdx => do
    let cost ← chunkCost exact sampledTime sampledEnergy chunkIdx
    return (acc.1 + cost.1, acc.2 + cost.2)) (0, 0)

end AttAcc
