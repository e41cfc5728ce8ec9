import AttAcc.Layer
import AttAcc.Library.Rounding

/-!
# The transformer and its decoder blocks

`Transformer` of `src/model.py`: the constructor, and the builders of one prefill
block (`_build_sum`) and one decode block (`_build_gen_stage`). Weights are sharded
by `fc_tp` and `ff_tp`, attention heads by `attn_tp`; every split is guarded by an
exact-division assertion.
-/

namespace AttAcc

open Library

/-- `ffn_type`: every value other than `'gated'` builds the standard FFN. -/
inductive FfnType where
  | gated
  | standard
  deriving DecidableEq, Repr

/-- The `activation` and `vit_activation` strings. -/
inductive Activation where
  | relu
  | gelu
  | silu
  | other (text : String)
  deriving DecidableEq, Repr

/-- `projector_type`, when it is not `None`. -/
inductive ProjectorType where
  | mlpWithMerger
  | pixelShuffleMlp
  | mlp
  deriving DecidableEq, Repr

/-- A model description, and the float arithmetic that the model's resolutions are chosen in. The
fields that the source reads by `modelinfos[...]` are plain, those it reads by `.get` are
optional. -/
structure ModelInfos where
  name : String
  ndec : ℕ
  hdim : ℕ
  numHeads : Option ℕ := none
  numQHeads : Option ℕ := none
  numKvHeads : Option ℕ := none
  dhead : Option ℕ := none
  qProjOut : Option ℕ := none
  kvProjOut : Option ℕ := none
  qkvProjOutTotal : Option ℕ := none
  gqaSize : Option ℕ := none
  ffScale : ℚ
  ffIntermediate : Option ℕ := none
  ffnType : FfnType := .standard
  activation : Activation := .gelu
  dtype : DataType
  hasDeepstack : Bool := false
  deepstackLayers : List ℤ := []
  vitLayers : ℕ := 0
  vitHidden : ℕ := 0
  vitNumHeads : ℕ := 0
  vitIntermediate : ℕ := 0
  vitActivation : Activation := .gelu
  projectorType : Option ProjectorType := none
  patchSize : ℕ := 0
  imageSizeDefault : ℕ := 0
  spatialMergeSize : ℕ := 1
  numVisTokensPerImage : ℕ := 0
  isAnyres : Bool := false
  imageGridPinpoints : List (ℕ × ℕ) := []
  useImageNewlineParameter : Bool := false
  vlmFloorOverheadMs : ℚ := 0
  float : FloatArithmetic := .double

/-- A `Transformer`. The constructor divides by both head counts, so neither is zero,
and derives the three sharding degrees from its `tensor_parallel` argument. -/
structure Transformer where
  name : String
  ndec : ℕ
  hdim : ℕ
  numQHeads : ℕ
  numKvHeads : ℕ
  dhead : ℕ
  qProjOut : ℕ
  kvProjOut : ℕ
  qkvProjOutTotal : ℕ
  gqaSize : ℕ
  ffIntermediate : ℕ
  ffnType : FfnType
  activation : Activation
  dtype : DataType
  tpArg : ℕ
  fcTp : ℕ
  attnTp : ℕ
  ffTp : ℕ
  hasDeepstack : Bool
  deepstackLayers : List ℤ
  vitLayers : ℕ
  vitHidden : ℕ
  vitNumHeads : ℕ
  vitIntermediate : ℕ
  vitActivation : Activation
  projectorType : Option ProjectorType
  patchSize : ℕ
  imageSizeDefault : ℕ
  spatialMergeSize : ℕ
  numVisTokensPerImage : ℕ
  isAnyres : Bool
  imageGridPinpoints : List (ℕ × ℕ)
  useImageNewlineParameter : Bool
  vlmFloorOverheadMs : ℚ
  float : FloatArithmetic
  numQHeads_pos : 0 < numQHeads
  numKvHeads_pos : 0 < numKvHeads
  fcTp_eq : fcTp = tpArg
  attnTp_eq : attnTp = min tpArg numKvHeads
  ffTp_eq : ffTp = tpArg

namespace Transformer

/-- `Transformer.__init__`. The defaults of `dhead` and `gqa_size` are computed whether
or not the description gives the field, so a zero head count always raises; a
description with no head count at all divides by `None`. -/
def new (mi : ModelInfos) (tensorParallel : ℕ) : Except PyError Transformer :=
  match mi.numQHeads.or mi.numHeads with
  | none => .error .typeError
  | some numQHeads =>
    let numKvHeads := mi.numKvHeads.getD numQHeads
    if hq : 0 < numQHeads then
      if hkv : 0 < numKvHeads then
        let dhead := mi.dhead.getD (mi.hdim / numQHeads)
        let qProjOut := mi.qProjOut.getD (numQHeads * dhead)
        let kvProjOut := mi.kvProjOut.getD (numKvHeads * dhead)
        .ok
          { name := mi.name
            ndec := mi.ndec
            hdim := mi.hdim
            numQHeads := numQHeads
            numKvHeads := numKvHeads
            dhead := dhead
            qProjOut := qProjOut
            kvProjOut := kvProjOut
            qkvProjOutTotal := mi.qkvProjOutTotal.getD (qProjOut + 2 * kvProjOut)
            gqaSize := mi.gqaSize.getD (numQHeads / numKvHeads)
            ffIntermediate := mi.ffIntermediate.getD ⌊mi.ffScale * mi.hdim⌋.toNat
            ffnType := mi.ffnType
            activation := mi.activation
            dtype := mi.dtype
            tpArg := tensorParallel
            fcTp := tensorParallel
            attnTp := min tensorParallel numKvHeads
            ffTp := tensorParallel
            hasDeepstack := mi.hasDeepstack
            deepstackLayers := mi.deepstackLayers
            vitLayers := mi.vitLayers
            vitHidden := mi.vitHidden
            vitNumHeads := mi.vitNumHeads
            vitIntermediate := mi.vitIntermediate
            vitActivation := mi.vitActivation
            projectorType := mi.projectorType
            patchSize := mi.patchSize
            imageSizeDefault := mi.imageSizeDefault
            spatialMergeSize := mi.spatialMergeSize
            numVisTokensPerImage := mi.numVisTokensPerImage
            isAnyres := mi.isAnyres
            imageGridPinpoints := mi.imageGridPinpoints
            useImageNewlineParameter := mi.useImageNewlineParameter
            vlmFloorOverheadMs := mi.vlmFloorOverheadMs
            float := mi.float
            numQHeads_pos := hq
            numKvHeads_pos := hkv
            fcTp_eq := rfl
            attnTp_eq := rfl
            ffTp_eq := rfl }
      else .error .zeroDivision
    else .error .zeroDivision

/-- `_split`: exact division, or the assertion's message. -/
def split (value parts : ℕ) (field : String) : Except PyError ℕ :=
  if parts = 0 then .error .zeroDivision
  else if value % parts = 0 then .ok (value / parts)
  else .error (.assertion s!"{field}={value} is not divisible by tp={parts}")

theorem split_eq_ok {value parts q : ℕ} {field : String} :
    split value parts field = .ok q ↔ 0 < parts ∧ value = q * parts := by
  unfold split
  by_cases hp : parts = 0
  · simp [hp]
  · rw [if_neg hp]
    have hpos : 0 < parts := Nat.pos_of_ne_zero hp
    by_cases hv : value % parts = 0
    · rw [if_pos hv]
      refine ⟨?_, ?_⟩
      · intro h
        obtain rfl := Except.ok.inj h
        exact ⟨hpos, (Nat.div_mul_cancel (Nat.dvd_of_mod_eq_zero hv)).symm⟩
      · rintro ⟨-, rfl⟩
        rw [Nat.mul_div_cancel _ hpos]
    · rw [if_neg hv]
      refine ⟨?_, ?_⟩
      · intro h
        cases h
      · rintro ⟨-, rfl⟩
        exact absurd (Nat.mul_mod_left q parts) hv

variable (t : Transformer)

/-- `_heads_per_attn_shard`. -/
def headsPerAttnShard (batch : ℕ) : Except PyError (ℕ × ℕ) := do
  let qHeads ← split t.numQHeads t.attnTp "num_q_heads"
  let kvHeads ← split t.numKvHeads t.attnTp "num_kv_heads"
  return (qHeads * batch, kvHeads * batch)

/-- `_activation_name`. -/
def activationName : LayerName :=
  match t.activation with
  | .relu => .relu
  | .gelu => .gelu
  | _ => .glu

/-- `_vit_activation_name`. -/
def vitActivationName : LayerName :=
  match t.vitActivation with
  | .relu => .vitRelu
  | .gelu => .vitGelu
  | .silu => .vitSilu
  | .other _ => .vitGelu

/-- The layers `_append_ffn` appends, once the intermediate width is split. -/
def ffnArgs (stage : Stage) (tokens ffPerTp : ℕ) : List LayerArgs :=
  match t.ffnType with
  | .gated =>
    [⟨stage, .ff1, .FC, true, t.dtype, tokens, ffPerTp, t.hdim, 1, 1⟩,
     ⟨stage, .ff2, .FC, true, t.dtype, tokens, ffPerTp, t.hdim, 1, 1⟩,
     ⟨stage, .glu, .ACT, false, t.dtype, tokens, ffPerTp, 1, 1, 1⟩,
     ⟨stage, .ff3, .FC, true, t.dtype, tokens, t.hdim, ffPerTp, 1, 1⟩]
  | .standard =>
    [⟨stage, .ff1, .FC, true, t.dtype, tokens, ffPerTp, t.hdim, 1, 1⟩,
     ⟨stage, t.activationName, .ACT, false, t.dtype, tokens, ffPerTp, 1, 1, 1⟩,
     ⟨stage, .ff2, .FC, true, t.dtype, tokens, t.hdim, ffPerTp, 1, 1⟩]

/-- `_append_ffn`. -/
def appendFfn (stage : Stage) (tokens : ℕ) : Except PyError (List Layer) := do
  let ffPerTp ← split t.ffIntermediate t.ffTp "ff_intermediate"
  (t.ffnArgs stage tokens ffPerTp).mapM Layer.new

/-- The layers `_build_sum` appends before the output projection. `layer.n` is the
accumulated KV length, `layer.k` the head size, `numOp` counts query heads and
`pimNumOp` KV heads. -/
def sumAttnArgs (batch lin : ℕ) (attnOnHetero : Bool) (layerIdx : Option ℕ)
    (qHeads kvHeads qkvPerTp qPerFcTp kvPerFcTp qPerAttnTp : ℕ) : List LayerArgs :=
  [⟨.sum, .qkv, .FC, true, t.dtype, batch * lin, qkvPerTp, t.hdim, 1, 1⟩] ++
  (if attnOnHetero then
    [⟨.sum, .commX2gKv, .X2G, false, t.dtype, batch * lin, 2 * kvPerFcTp, 1, 1, 1⟩,
     ⟨.sum, .commX2gQ, .X2G, false, t.dtype, batch * lin, qPerFcTp, 1, 1, 1⟩]
  else []) ++
  [⟨.sum, .score, .MATMUL, false, t.dtype, lin, lin, t.dhead, qHeads, kvHeads⟩,
   ⟨.sum, .softmax, .SOFTMAX, false, t.dtype, lin, lin, 1, qHeads, kvHeads⟩,
   ⟨.sum, .context, .MATMUL, false, t.dtype, lin, t.dhead, lin, qHeads, kvHeads⟩] ++
  (match layerIdx with
  | some idx =>
    if (idx : ℤ) ∈ t.deepstackLayers then
      [⟨.sum, .deepstackAdd, .ACT, false, t.dtype, batch * lin, t.hdim, 1, 1, 1⟩]
    else []
  | none => []) ++
  (if attnOnHetero then
    [⟨.sum, .commX2gReturn, .X2G, false, t.dtype, batch * lin, qPerAttnTp, 1, 1, 1⟩]
  else [])

/-- The output projection, its all-reduce and the first normalisation. -/
def projArgs (stage : Stage) (tokens hdimPerTp : ℕ) : List LayerArgs :=
  [⟨stage, .proj, .FC, true, t.dtype, tokens, t.hdim, hdimPerTp, 1, 1⟩,
   ⟨stage, .commG2g, .G2G, false, t.dtype, tokens, t.hdim, 1, 1, 1⟩,
   ⟨stage, .norm1, .NORM, false, t.dtype, tokens, t.hdim, 1, 1, 1⟩]

/-- The all-reduce and the normalisation that close a block. -/
def closeArgs (stage : Stage) (tokens : ℕ) : List LayerArgs :=
  [⟨stage, .commG2g, .G2G, false, t.dtype, tokens, t.hdim, 1, 1, 1⟩,
   ⟨stage, .norm2, .NORM, false, t.dtype, tokens, t.hdim, 1, 1, 1⟩]

/-- What both builders append after attention: the output projection, its all-reduce and
the first normalisation, the FFN, and the closing all-reduce and normalisation. -/
def finishBlock (stage : Stage) (tokens : ℕ) : Except PyError (List Layer) := do
  let hdimPerTp ← split t.hdim t.fcTp "hdim"
  let proj ← (t.projArgs stage tokens hdimPerTp).mapM Layer.new
  let ffn ← t.appendFfn stage tokens
  let close ← (t.closeArgs stage tokens).mapM Layer.new
  return proj ++ ffn ++ close

/-- `_build_sum`: one prefill block. -/
def buildSum (batch lin : ℕ) (attnOnHetero : Bool) (layerIdx : Option ℕ) :
    Except PyError (List Layer) := do
  let (qHeads, kvHeads) ← t.headsPerAttnShard batch
  let qkvPerTp ← split t.qkvProjOutTotal t.fcTp "qkv_proj_out_total"
  let qPerFcTp ← split t.qProjOut t.fcTp "q_proj_out"
  let kvPerFcTp ← split t.kvProjOut t.fcTp "kv_proj_out"
  let qPerAttnTp ← split t.qProjOut t.attnTp "q_proj_out"
  let attn ← (t.sumAttnArgs batch lin attnOnHetero layerIdx qHeads kvHeads qkvPerTp qPerFcTp
    kvPerFcTp qPerAttnTp).mapM Layer.new
  let finish ← t.finishBlock .sum (batch * lin)
  return attn ++ finish

/-- The layers `_build_gen_stage` appends before the output projection. -/
def genAttnArgs (batch kvLen : ℕ) (attnOnHetero : Bool)
    (qHeads kvHeads qkvPerTp qPerAttnTp : ℕ) : List LayerArgs :=
  [⟨.gen, .qkv, .FC, true, t.dtype, batch, qkvPerTp, t.hdim, 1, 1⟩] ++
  (if attnOnHetero then
    [⟨.gen, .commX2gQkv, .X2G, false, t.dtype, batch, qkvPerTp, 1, 1, 1⟩]
  else []) ++
  [⟨.gen, .score, .MATMUL, false, t.dtype, 1, kvLen, t.dhead, qHeads, kvHeads⟩,
   ⟨.gen, .softmax, .SOFTMAX, false, t.dtype, 1, kvLen, 1, qHeads, kvHeads⟩,
   ⟨.gen, .context, .MATMUL, false, t.dtype, 1, t.dhead, kvLen, qHeads, kvHeads⟩] ++
  (if attnOnHetero then
    [⟨.gen, .commX2gReturn, .X2G, false, t.dtype, batch, qPerAttnTp, 1, 1, 1⟩]
  else [])

/-- `_build_gen_stage`: the decode block of one generation step. -/
def buildGenStage (batch lin stage : ℕ) (attnOnHetero : Bool) :
    Except PyError (List Layer) := do
  let (qHeads, kvHeads) ← t.headsPerAttnShard batch
  let qkvPerTp ← split t.qkvProjOutTotal t.fcTp "qkv_proj_out_total"
  let qPerAttnTp ← split t.qProjOut t.attnTp "q_proj_out"
  let attn ← (t.genAttnArgs batch (lin + stage) attnOnHetero qHeads kvHeads qkvPerTp
    qPerAttnTp).mapM Layer.new
  let finish ← t.finishBlock .gen batch
  return attn ++ finish

end Transformer

end AttAcc
