import AttAcc.Sampling
import AttAcc.Library.Offload

/-!
# The gain of a denoise step

`compute_step_gain` of `analysis/theoretical_pim_gain.py`, over the constants of
`shared/cosmos_facts.py`. A step reads the weights and the KV cache of a Cosmos 3 model. Alone, the
H100 reads both; next to an AttAcc it reads the weights, and the AttAcc the KV cache.

The report prints the ratio of the bandwidths as the upper bound of the gain. It is one as long as
the KV cache is not too large for the weights (`realizedGain_le_upperBoundGain_iff`), which it is
not in the grid of the report (`realizedGain_le_upperBoundGain_of_grid`). A larger one brings the
gain above the ratio, by one at the most (`realizedGain_le_one_add`).
-/

namespace AttAcc

open Library

/-- What the analysis reads of a model of `cosmos_facts`. -/
structure CosmosModel where
  weightBytesBf16 : ℚ
  nLayers : ℕ
  nKvHeads : ℕ
  dHead : ℕ
  maxPositionEmbeddings : ℕ
  deriving DecidableEq

namespace CosmosModel

/-- `NANO`. -/
def nano : CosmosModel where
  weightBytesBf16 := 16 * 10 ^ 9 * 2
  nLayers := 36
  nKvHeads := 8
  dHead := 128
  maxPositionEmbeddings := 262144

/-- `SUPER`. -/
def super : CosmosModel where
  weightBytesBf16 := 64 * 10 ^ 9 * 2
  nLayers := 64
  nKvHeads := 8
  dHead := 128
  maxPositionEmbeddings := 262144

/-- `MODELS`. -/
def models : List CosmosModel := [nano, super]

end CosmosModel

/-- `CONTEXT_GRID`. -/
def contextGrid : List ℕ := [16384, 32768, 65536, 131072, 262144]

/-- `BATCH_GRID`. -/
def batchGrid : List ℕ := [1, 2, 4, 8]

/-- `ATTACC_BW_TBS`. -/
def attaccBwTbs : ℚ := 242

/-- `H100_BW_TBS`. -/
def h100BwTbs : ℚ := 335 / 100

/-- `kv_bytes_per_token`. -/
def kvBytesPerToken (model : CosmosModel) : ℕ :=
  2 * model.nKvHeads * model.dHead * model.nLayers * 2

/-- `kv_bytes_per_request`: without a context, that of all positions. -/
def kvBytesPerRequest (model : CosmosModel) (contextTokens : Option ℕ) : ℕ :=
  kvBytesPerToken model * contextTokens.getD model.maxPositionEmbeddings

/-- `kv_b`: what was measured, or else what the requests of the batch take. -/
def kvBytesPerStep (model : CosmosModel) (context : Option ℕ) (batch : ℕ)
    (kvBytesOverride : Option ℚ) : ℚ :=
  match kvBytesOverride with
  | some kv => kv
  | none => kvBytesPerRequest model context * batch

/-- The values of `compute_step_gain` before they are rounded. -/
structure StepTimes where
  tH100StepMs : ℚ
  tWeightOnlyMs : ℚ
  tKvPimMs : ℚ
  tAttaccStepMs : ℚ
  realizedGain : Option ℚ
  upperBoundGain : ℚ
  kvDominance : ℚ

/-- The arithmetic of `compute_step_gain`. -/
def stepTimes (model : CosmosModel) (context : Option ℕ) (batch : ℕ)
    (kvBytesOverride : Option ℚ) : StepTimes :=
  let weightB := model.weightBytesBf16
  let kvB := kvBytesPerStep model context batch kvBytesOverride
  let tH100StepMs := (weightB + kvB) / (h100BwTbs * 10 ^ 12) * 1000
  let tWeightOnlyMs := weightB / (h100BwTbs * 10 ^ 12) * 1000
  let tKvPimMs := kvB / (attaccBwTbs * 10 ^ 12) * 1000
  let tAttaccStepMs := max tWeightOnlyMs tKvPimMs
  { tH100StepMs, tWeightOnlyMs, tKvPimMs, tAttaccStepMs
    realizedGain := if 0 < tAttaccStepMs then some (tH100StepMs / tAttaccStepMs) else none
    upperBoundGain := attaccBwTbs / h100BwTbs
    kvDominance := if 0 < kvB + weightB then kvB / (kvB + weightB) * 100 else 0 }

/-- `round`, to a number of digits. -/
def roundDigits (digits : ℕ) (q : ℚ) : ℚ := roundHalfEven (q * 10 ^ digits) / 10 ^ digits

/-- What `compute_step_gain` returns. -/
structure StepGain where
  weightBytes : ℚ
  kvBytesPerStep : ℚ
  kvSource : String
  kvDominancePct : ℚ
  tH100PerStepMs : ℚ
  tAttAccPerStepMs : ℚ
  tWeightAloneMs : ℚ
  tKvViaAttaccMs : ℚ
  realizedGainX : Option ℚ
  upperBoundGainX : ℚ
  deriving DecidableEq

/-- `compute_step_gain`. A gain of zero is reported as none, too. -/
def computeStepGain (model : CosmosModel) (context : Option ℕ) (batch : ℕ)
    (kvBytesOverride : Option ℚ) (kvSource : String) : StepGain :=
  let t := stepTimes model context batch kvBytesOverride
  { weightBytes := model.weightBytesBf16
    kvBytesPerStep := kvBytesPerStep model context batch kvBytesOverride
    kvSource
    kvDominancePct := roundDigits 2 t.kvDominance
    tH100PerStepMs := roundDigits 3 t.tH100StepMs
    tAttAccPerStepMs := roundDigits 3 t.tAttaccStepMs
    tWeightAloneMs := roundDigits 3 t.tWeightOnlyMs
    tKvViaAttaccMs := roundDigits 4 t.tKvPimMs
    realizedGainX := (t.realizedGain.filter fun gain => decide (gain ≠ 0)).map (roundDigits 2)
    upperBoundGainX := roundDigits 2 t.upperBoundGain }

/-! ### The gain as a speedup -/

section Gain

variable {model : CosmosModel} {context context' : Option ℕ} {batch batch' : ℕ}
  {kvBytesOverride kvBytesOverride' : Option ℚ}

/-- Bytes that were not measured are counted, and there are no fewer than none. -/
theorem kvBytesPerStep_nonneg (hmeasured : ∀ kv ∈ kvBytesOverride, 0 ≤ kv) :
    0 ≤ kvBytesPerStep model context batch kvBytesOverride := by
  cases kvBytesOverride with
  | some kv => exact hmeasured kv rfl
  | none => exact mul_nonneg (Nat.cast_nonneg _) (Nat.cast_nonneg _)

theorem tWeightOnlyMs_pos (hweight : 0 < model.weightBytesBf16) :
    0 < (stepTimes model context batch kvBytesOverride).tWeightOnlyMs := by
  have hbw : (0 : ℚ) < h100BwTbs := by norm_num [h100BwTbs]
  simp only [stepTimes]
  positivity

/-- The gain is that of moving the KV cache to a memory with the bandwidth of the AttAcc. -/
theorem realizedGain_eq (hweight : 0 < model.weightBytesBf16) :
    (stepTimes model context batch kvBytesOverride).realizedGain =
      some (speedup (attaccBwTbs / h100BwTbs)
        (stepTimes model context batch kvBytesOverride).tWeightOnlyMs
        (stepTimes model context batch kvBytesOverride).tKvPimMs) := by
  have hpos : 0 < (stepTimes model context batch kvBytesOverride).tWeightOnlyMs :=
    tWeightOnlyMs_pos hweight
  simp only [stepTimes] at hpos ⊢
  rw [if_pos (lt_max_of_lt_left hpos), speedup]
  congr 2
  simp only [attaccBwTbs, h100BwTbs]
  ring

theorem one_le_ratio : (1 : ℚ) ≤ attaccBwTbs / h100BwTbs := by
  norm_num [attaccBwTbs, h100BwTbs]

theorem tKvPimMs_nonneg (hmeasured : ∀ kv ∈ kvBytesOverride, 0 ≤ kv) :
    0 ≤ (stepTimes model context batch kvBytesOverride).tKvPimMs := by
  have hbw : (0 : ℚ) < attaccBwTbs := by norm_num [attaccBwTbs]
  have hkv : 0 ≤ kvBytesPerStep model context batch kvBytesOverride :=
    kvBytesPerStep_nonneg hmeasured
  simp only [stepTimes]
  positivity

/-- The ratio of the bandwidths bounds the gain as long as the KV cache is not larger than the
weights by more than the ratio, less one. -/
theorem gain_le_ratio_iff (hweight : 0 < model.weightBytesBf16) :
    speedup (attaccBwTbs / h100BwTbs)
        (stepTimes model context batch kvBytesOverride).tWeightOnlyMs
        (stepTimes model context batch kvBytesOverride).tKvPimMs ≤ attaccBwTbs / h100BwTbs ↔
      kvBytesPerStep model context batch kvBytesOverride ≤
        (attaccBwTbs / h100BwTbs - 1) * model.weightBytesBf16 := by
  rw [speedup_le_ratio_iff (zero_lt_one.trans_le one_le_ratio) (tWeightOnlyMs_pos hweight)]
  -- both times are per byte that the H100 reads
  have hscale : (0 : ℚ) < 1000 / (h100BwTbs * 10 ^ 12) := by norm_num [h100BwTbs]
  have hkv : attaccBwTbs / h100BwTbs *
      (stepTimes model context batch kvBytesOverride).tKvPimMs =
        kvBytesPerStep model context batch kvBytesOverride * (1000 / (h100BwTbs * 10 ^ 12)) := by
    simp only [stepTimes, attaccBwTbs, h100BwTbs]
    ring
  have hweights : (attaccBwTbs / h100BwTbs - 1) *
      (stepTimes model context batch kvBytesOverride).tWeightOnlyMs =
        (attaccBwTbs / h100BwTbs - 1) * model.weightBytesBf16 *
          (1000 / (h100BwTbs * 10 ^ 12)) := by
    simp only [stepTimes]
    ring
  rw [hkv, hweights, mul_le_mul_iff_left₀ hscale]

/-- More bytes of KV cache take longer. -/
theorem tKvPimMs_le_tKvPimMs
    (hle : kvBytesPerStep model context batch kvBytesOverride ≤
      kvBytesPerStep model context' batch' kvBytesOverride') :
    (stepTimes model context batch kvBytesOverride).tKvPimMs ≤
      (stepTimes model context' batch' kvBytesOverride').tKvPimMs := by
  have hbw : (0 : ℚ) ≤ attaccBwTbs * 10 ^ 12 := by norm_num [attaccBwTbs]
  simp only [stepTimes]
  apply mul_le_mul_of_nonneg_right
  · exact div_le_div_of_nonneg_right hle hbw
  · norm_num

/-- The gain is at least one, and the upper bound bounds it exactly if the KV cache is at most so
much larger than the weights as the ratio of the bandwidths less one. As long as reading the
weights takes longer, it does not fall with the KV cache. -/
theorem realizedGain_le_upperBoundGain_iff (hweight : 0 < model.weightBytesBf16)
    (context : Option ℕ) (batch : ℕ) (hmeasured : ∀ kv ∈ kvBytesOverride, 0 ≤ kv) :
    ∃ gain, (stepTimes model context batch kvBytesOverride).realizedGain = some gain ∧
      1 ≤ gain ∧
      (gain ≤ (stepTimes model context batch kvBytesOverride).upperBoundGain ↔
        kvBytesPerStep model context batch kvBytesOverride ≤
          (attaccBwTbs / h100BwTbs - 1) * model.weightBytesBf16) ∧
      ∀ context' batch' kvBytesOverride',
        kvBytesPerStep model context batch kvBytesOverride ≤
          kvBytesPerStep model context' batch' kvBytesOverride' →
        (stepTimes model context' batch' kvBytesOverride').tKvPimMs ≤
          (stepTimes model context' batch' kvBytesOverride').tWeightOnlyMs →
        ∃ gain', (stepTimes model context' batch' kvBytesOverride').realizedGain = some gain' ∧
          gain ≤ gain' := by
  refine ⟨_, realizedGain_eq hweight, ?_, gain_le_ratio_iff hweight, ?_⟩
  · exact one_le_speedup one_le_ratio (tWeightOnlyMs_pos hweight) (tKvPimMs_nonneg hmeasured)
  · intro context' batch' kvBytesOverride' hle hfits
    refine ⟨_, realizedGain_eq hweight, ?_⟩
    apply speedup_le_speedup (zero_le_one.trans one_le_ratio) (tWeightOnlyMs_pos hweight)
    · exact tKvPimMs_le_tKvPimMs hle
    · exact hfits

/-- The smaller model, at its longest context. -/
theorem realizedGain_le_upperBoundGain_iff_nano :
    ∃ gain, (stepTimes .nano (some 262144) 8 none).realizedGain = some gain ∧
      1 ≤ gain ∧
      (gain ≤ (stepTimes .nano (some 262144) 8 none).upperBoundGain ↔
        kvBytesPerStep .nano (some 262144) 8 none ≤
          (attaccBwTbs / h100BwTbs - 1) * CosmosModel.nano.weightBytesBf16) ∧
      ∀ context' batch' kvBytesOverride',
        kvBytesPerStep .nano (some 262144) 8 none ≤
          kvBytesPerStep .nano context' batch' kvBytesOverride' →
        (stepTimes .nano context' batch' kvBytesOverride').tKvPimMs ≤
          (stepTimes .nano context' batch' kvBytesOverride').tWeightOnlyMs →
        ∃ gain', (stepTimes .nano context' batch' kvBytesOverride').realizedGain = some gain' ∧
          gain ≤ gain' :=
  realizedGain_le_upperBoundGain_iff (by norm_num [CosmosModel.nano]) (some 262144) 8 nofun

/-- With 59 requests of that length the gain is above the upper bound. -/
theorem upperBoundGain_lt_realizedGain_nano :
    ∃ gain, (stepTimes .nano (some 262144) 59 none).realizedGain = some gain ∧
      (stepTimes .nano (some 262144) 59 none).upperBoundGain < gain := by
  have hweight : 0 < CosmosModel.nano.weightBytesBf16 := by norm_num [CosmosModel.nano]
  refine ⟨_, realizedGain_eq hweight, ?_⟩
  apply lt_of_not_ge
  apply mt (gain_le_ratio_iff hweight).mp
  norm_num [kvBytesPerStep, kvBytesPerRequest, kvBytesPerToken, CosmosModel.nano, attaccBwTbs,
    h100BwTbs]

/-- Whatever is read, the gain is not above the upper bound by more than one. -/
theorem realizedGain_le_one_add (hweight : 0 < model.weightBytesBf16) :
    ∀ gain ∈ (stepTimes model context batch kvBytesOverride).realizedGain,
      gain ≤ 1 + (stepTimes model context batch kvBytesOverride).upperBoundGain := by
  intro gain hgain
  rw [realizedGain_eq hweight] at hgain
  obtain rfl := Option.some.inj hgain
  exact speedup_le_one_add_ratio (zero_le_one.trans one_le_ratio) (tWeightOnlyMs_pos hweight)

/-- What the report prints of its grid is below the upper bound. -/
theorem realizedGain_le_upperBoundGain_of_grid {model : CosmosModel} {context batch : ℕ}
    (hmodel : model ∈ CosmosModel.models) (hcontext : context ∈ contextGrid)
    (hbatch : batch ∈ batchGrid) :
    ∀ gain ∈ (stepTimes model (some context) batch none).realizedGain,
      gain ≤ (stepTimes model (some context) batch none).upperBoundGain := by
  have hcontext : context ≤ 262144 := (by decide : ∀ c ∈ contextGrid, c ≤ 262144) context hcontext
  have hbatch : batch ≤ 8 := (by decide : ∀ b ∈ batchGrid, b ≤ 8) batch hbatch
  have hmodel : model = .nano ∨ model = .super := by simpa [CosmosModel.models] using hmodel
  have hweight : 0 < model.weightBytesBf16 := by
    rcases hmodel with rfl | rfl
    · norm_num [CosmosModel.nano]
    · norm_num [CosmosModel.super]
  intro gain hgain
  rw [realizedGain_eq hweight] at hgain
  obtain rfl := Option.some.inj hgain
  refine (gain_le_ratio_iff hweight).mpr ?_
  -- eight requests at the longest context
  have htokens : ((context * batch : ℕ) : ℚ) ≤ (262144 * 8 : ℕ) :=
    Nat.cast_le.mpr (Nat.mul_le_mul hcontext hbatch)
  have hkv : kvBytesPerStep model (some context) batch none =
      kvBytesPerToken model * (context * batch : ℕ) := by
    simp only [kvBytesPerStep, kvBytesPerRequest, Option.getD_some]
    push_cast
    ring
  rw [hkv]
  apply (mul_le_mul_of_nonneg_left htokens (Nat.cast_nonneg _)).trans
  rcases hmodel with rfl | rfl
  · norm_num [kvBytesPerToken, CosmosModel.nano, attaccBwTbs, h100BwTbs]
  · norm_num [kvBytesPerToken, CosmosModel.super, attaccBwTbs, h100BwTbs]

end Gain

end AttAcc
