import AttAcc.Transformer

/-!
# The model table

`make_model_config` of `src/config.py`. An entry of the table is a positional list or a
dictionary; either way the widths of the projections are derived from the head counts and
the head size.
-/

namespace AttAcc

/-- The keys of `model_table`. -/
inductive ModelName where
  | gpt175B
  | gpt89B
  | gpt13B
  | llama7B
  | llama65B
  | mt76B
  | mt146B
  | mt310B
  | mt530B
  | mt1008B
  | opt66B
  | qwen3_4B
  | qwen3VL4B
  | qwen25VL7B
  | internVL3_8B
  | vicuna7B
  | llava15_7B
  | mistral7B
  | llavaNextMistral7B
  deriving DecidableEq, Repr

namespace ModelName

/-- The key as a string. -/
def text : ModelName → String
  | gpt175B => "GPT-175B"
  | gpt89B => "GPT-89B"
  | gpt13B => "GPT-13B"
  | llama7B => "LLAMA-7B"
  | llama65B => "LLAMA-65B"
  | mt76B => "MT-76B"
  | mt146B => "MT-146B"
  | mt310B => "MT-310B"
  | mt530B => "MT-530B"
  | mt1008B => "MT-1008B"
  | opt66B => "OPT-66B"
  | qwen3_4B => "Qwen3-4B"
  | qwen3VL4B => "Qwen3-VL-4B"
  | qwen25VL7B => "Qwen2.5-VL-7B"
  | internVL3_8B => "InternVL3-8B-hf"
  | vicuna7B => "Vicuna-7B"
  | llava15_7B => "LLaVA-1.5-7B"
  | mistral7B => "Mistral-7B"
  | llavaNextMistral7B => "LLaVA-Next-Mistral-7B"

/-- `'LLAMA' in name`. -/
def hasLLAMA : ModelName → Bool
  | llama7B | llama65B => true
  | _ => false

/-- `llama_ff_intermediate`. -/
def llamaFfIntermediate : ModelName → Option ℕ
  | llama7B => some 11008
  | llama65B => some 22016
  | _ => none

end ModelName

/-- A positional entry `[ndec, hdim, nheads, dhead, ff_scale, gqa_size]`. -/
def listConfig (name : ModelName) (dtype : DataType) (ndec hdim nheads dhead : ℕ) (ffScale : ℚ)
    (gqaSize : ℕ) : ModelInfos where
  name := name.text
  ndec := ndec
  hdim := hdim
  numHeads := some nheads
  numQHeads := some nheads
  numKvHeads := some (nheads / gqaSize)
  dhead := some dhead
  ffScale := ffScale
  gqaSize := some gqaSize
  ffIntermediate := name.llamaFfIntermediate
  dtype := dtype
  ffnType := if name.hasLLAMA then .gated else .standard
  activation := if name.hasLLAMA then .silu else .gelu

/-- The decoder half of a dictionary entry. All of them are gated and use `silu`. -/
def dictConfig (name : ModelName) (dtype : DataType)
    (ndec hdim numQHeads numKvHeads dhead ffIntermediate : ℕ) : ModelInfos where
  name := name.text
  ndec := ndec
  hdim := hdim
  numHeads := some numQHeads
  numQHeads := some numQHeads
  numKvHeads := some numKvHeads
  dhead := some dhead
  ffScale := (ffIntermediate : ℚ) / hdim
  gqaSize := some (numQHeads / numKvHeads)
  ffIntermediate := some ffIntermediate
  dtype := dtype
  ffnType := .gated
  activation := .silu

/-- `model_table[name]`, with the fields that do not depend on the table filled in. -/
def modelTable (name : ModelName) (dtype : DataType) : ModelInfos :=
  match name with
  | .gpt175B => listConfig name dtype 96 12288 96 128 4 1
  | .gpt89B => listConfig name dtype 48 12288 96 128 4 1
  | .gpt13B => listConfig name dtype 40 5120 40 128 4 1
  | .llama7B => listConfig name dtype 32 4096 32 128 (8 / 3) 1
  | .llama65B => listConfig name dtype 80 8192 64 128 (8 / 3) 1
  | .mt76B => listConfig name dtype 60 10240 40 128 4 1
  | .mt146B => listConfig name dtype 80 12288 80 128 4 1
  | .mt310B => listConfig name dtype 96 16384 128 128 4 1
  | .mt530B => listConfig name dtype 105 20480 128 160 4 1
  | .mt1008B => listConfig name dtype 128 25600 160 160 4 1
  | .opt66B => listConfig name dtype 64 9216 72 128 4 1
  | .qwen3_4B => dictConfig name dtype 36 2560 32 8 128 9728
  | .qwen3VL4B =>
    { dictConfig name dtype 36 2560 32 8 128 9728 with
      vitLayers := 24
      vitHidden := 1024
      vitNumHeads := 16
      vitIntermediate := 4096
      vitActivation := .other "gelu_pytorch_tanh"
      patchSize := 16
      imageSizeDefault := 672
      spatialMergeSize := 2
      numVisTokensPerImage := 441
      projectorType := some .mlpWithMerger
      hasDeepstack := true
      deepstackLayers := [5, 11, 17]
      vlmFloorOverheadMs := 22 }
  | .qwen25VL7B =>
    { dictConfig name dtype 28 3584 28 4 128 18944 with
      vitLayers := 32
      vitHidden := 1280
      vitNumHeads := 16
      vitIntermediate := 3420
      vitActivation := .silu
      patchSize := 14
      imageSizeDefault := 672
      spatialMergeSize := 2
      numVisTokensPerImage := 576
      projectorType := some .mlpWithMerger
      vlmFloorOverheadMs := 22 }
  | .internVL3_8B =>
    { dictConfig name dtype 28 3584 28 4 128 18944 with
      vitLayers := 24
      vitHidden := 1024
      vitNumHeads := 16
      vitIntermediate := 4096
      vitActivation := .gelu
      patchSize := 14
      imageSizeDefault := 448
      spatialMergeSize := 2
      numVisTokensPerImage := 256
      projectorType := some .pixelShuffleMlp
      vlmFloorOverheadMs := 22 }
  | .vicuna7B => dictConfig name dtype 32 4096 32 32 128 11008
  | .llava15_7B =>
    { dictConfig name dtype 32 4096 32 32 128 11008 with
      vitLayers := 24
      vitHidden := 1024
      vitNumHeads := 16
      vitIntermediate := 4096
      vitActivation := .gelu
      patchSize := 14
      imageSizeDefault := 336
      spatialMergeSize := 1
      numVisTokensPerImage := 576
      projectorType := some .mlp
      vlmFloorOverheadMs := 22 }
  | .mistral7B => dictConfig name dtype 32 4096 32 8 128 14336
  | .llavaNextMistral7B =>
    { dictConfig name dtype 32 4096 32 8 128 14336 with
      vitLayers := 24
      vitHidden := 1024
      vitNumHeads := 16
      vitIntermediate := 4096
      vitActivation := .gelu
      patchSize := 14
      imageSizeDefault := 336
      spatialMergeSize := 1
      numVisTokensPerImage := 2880
      projectorType := some .mlp
      isAnyres := true
      imageGridPinpoints := [(336, 672), (672, 336), (672, 672), (1008, 336), (336, 1008)]
      useImageNewlineParameter := true
      vlmFloorOverheadMs := 22 }

/-- `make_model_config`: the table entry, with the projection widths derived. -/
def makeModelConfig (name : ModelName) (dtype : DataType) : ModelInfos :=
  let config := modelTable name dtype
  let qProjOut := config.numQHeads.getD 0 * config.dhead.getD 0
  let kvProjOut := config.numKvHeads.getD 0 * config.dhead.getD 0
  { config with
    qProjOut := some qProjOut
    kvProjOut := some kvProjOut
    qkvProjOutTotal := some (qProjOut + 2 * kvProjOut) }

/-- Every model of the table is accepted by the constructor, at every degree. -/
theorem new_makeModelConfig (name : ModelName) (dtype : DataType) (tensorParallel : ℕ) :
    ∃ t, Transformer.new (makeModelConfig name dtype) tensorParallel = .ok t ∧
      t.hdim = (makeModelConfig name dtype).hdim ∧
      some t.qProjOut = (makeModelConfig name dtype).qProjOut := by
  cases name <;> exact ⟨_, rfl, rfl, rfl⟩

end AttAcc
