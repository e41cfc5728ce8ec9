import AttAcc.Transformer
import Mathlib

/-!
# The vision graph

The vision half of `Transformer` in `src/model.py`: the AnyRes resolution choice, the
token counts, and the builders of the ViT template and of the projector. Vision layers
are not sharded; only the broadcast that ends the projector looks at `fc_tp`.
-/

namespace AttAcc

open Library

/-- The `image_size` argument: a side length or a `(width, height)` pair. -/
inductive ImageSize where
  | square (side : ℕ)
  | rect (width height : ℕ)
  deriving DecidableEq, Repr

/-- `_normalize_image_size`. -/
def ImageSize.normalize : ImageSize → ℕ × ℕ
  | square side => (side, side)
  | rect width height => (width, height)

/-- The loop state of `select_best_resolution`. -/
structure BestFit where
  bestFit : ℕ × ℕ
  maxEffective : ℤ
  minWasted : Option ℤ
  deriving DecidableEq, Repr

namespace Transformer

/-- The effective and the wasted area of one candidate resolution. The image is scaled in floats,
so rounding can cost it a pixel. -/
def effectiveWasted (f : FloatArithmetic) (originalW originalH width height : ℕ) : ℤ × ℤ :=
  let scale : ℚ := min (f.round ((width : ℚ) / originalW)) (f.round ((height : ℚ) / originalH))
  let downW : ℤ := min ⌊f.round (f.round originalW * scale)⌋ width
  let downH : ℤ := min ⌊f.round (f.round originalH * scale)⌋ height
  let effective : ℤ := min (downW * downH) (originalW * originalH)
  (effective, width * height - effective)

/-- One iteration of the loop of `select_best_resolution`. -/
def selectStep (f : FloatArithmetic) (originalW originalH : ℕ) (s : BestFit)
    (candidate : ℕ × ℕ) : BestFit :=
  let (effective, wasted) :=
    effectiveWasted f originalW originalH candidate.1 candidate.2
  let better := match s.minWasted with
    | none => true
    | some w => decide (wasted < w)
  if effective > s.maxEffective ∨ (effective = s.maxEffective ∧ better = true) then
    ⟨candidate, effective, some wasted⟩
  else s

/-- `select_best_resolution`: an empty list of resolutions raises `IndexError`, an
empty image divides by zero. -/
def selectBestResolution (f : FloatArithmetic) (imageSize : ℕ × ℕ)
    (possibleResolutions : List (ℕ × ℕ)) : Except PyError (ℕ × ℕ) :=
  match possibleResolutions with
  | [] => .error .indexError
  | first :: _ =>
    if imageSize.1 = 0 ∨ imageSize.2 = 0 then .error .zeroDivision
    else .ok (possibleResolutions.foldl (selectStep f imageSize.1 imageSize.2)
      ⟨first, -1, none⟩).bestFit

variable (t : Transformer)

/-- The AnyRes branch is taken for AnyRes models that list their resolutions. -/
def usesGrid : Bool := t.isAnyres && !t.imageGridPinpoints.isEmpty

/-- The image size of the AnyRes branch: the default square when none is given. -/
def gridImageSize (imageSize : Option ImageSize) : ℕ × ℕ :=
  match imageSize with
  | some s => s.normalize
  | none => (t.imageSizeDefault, t.imageSizeDefault)

/-- `select_best_resolution`, as the AnyRes branches call it. -/
def chosenResolution (imageSize : Option ImageSize) : Except PyError (ℕ × ℕ) :=
  selectBestResolution t.float (t.gridImageSize imageSize) t.imageGridPinpoints

/-- `compute_visual_tokens`. -/
def computeVisualTokens (imageSize : Option ImageSize) : Except PyError ℕ := do
  if t.numVisTokensPerImage = 0 then return 0
  if t.usesGrid then
    let (gridW, gridH) ← t.chosenResolution imageSize
    let w ← intDiv gridW t.patchSize
    let h ← intDiv gridH t.patchSize
    let base ← intDiv t.imageSizeDefault t.patchSize
    return w * h + (if t.useImageNewlineParameter then h else 0) + base ^ 2
  else
    match imageSize with
    | some s =>
      if 0 < t.patchSize then
        let (width, height) := s.normalize
        let raw := (width / t.patchSize) * (height / t.patchSize)
        let merged ← intDiv raw (t.spatialMergeSize * t.spatialMergeSize)
        return max 1 merged
      else return t.numVisTokensPerImage
    | none => return t.numVisTokensPerImage

/-- `compute_vit_tokens`. The patch size is not zero where it divides. -/
def computeVitTokens (imageSize : Option ImageSize) : ℕ :=
  if t.numVisTokensPerImage = 0 ∨ t.patchSize = 0 then 0
  else if t.usesGrid then (t.imageSizeDefault / t.patchSize) ^ 2
  else
    match imageSize with
    | none =>
      if 1 < t.spatialMergeSize then
        t.numVisTokensPerImage * (t.spatialMergeSize * t.spatialMergeSize)
      else (t.imageSizeDefault / t.patchSize) * (t.imageSizeDefault / t.patchSize)
    | some s => (s.normalize.1 / t.patchSize) * (s.normalize.2 / t.patchSize)

/-- `compute_vit_attention_tokens`: attention runs on all patch tokens. -/
def computeVitAttentionTokens (imageSize : Option ImageSize) : ℕ :=
  t.computeVitTokens imageSize

/-- `compute_vit_num_images`. -/
def computeVitNumImages (imageSize : Option ImageSize) : Except PyError ℕ := do
  if t.numVisTokensPerImage = 0 then return 0
  if t.usesGrid then
    let (gridW, gridH) ← t.chosenResolution imageSize
    let base ← intDiv t.imageSizeDefault t.patchSize
    let w ← intDiv gridW t.patchSize
    let h ← intDiv gridH t.patchSize
    return 1 + (w * h) ⌈/⌉ (max 1 (base ^ 2))
  else return 1

/-- The ten layers of the ViT template; `blockOps` folds all ViT layers and crops into
the operation count. -/
def vitArgs (batch tokens attnTokens blockOps attnOps vitDhead : ℕ) : List LayerArgs :=
  [⟨.vit, .vitQkv, .FC, true, t.dtype, batch * tokens, 3 * t.vitHidden, t.vitHidden,
      blockOps, blockOps⟩,
   ⟨.vit, .vitScore, .MATMUL, false, t.dtype, attnTokens, attnTokens, vitDhead, attnOps,
      attnOps⟩,
   ⟨.vit, .vitSoftmax, .SOFTMAX, false, t.dtype, attnTokens, attnTokens, 1, attnOps, attnOps⟩,
   ⟨.vit, .vitContext, .MATMUL, false, t.dtype, attnTokens, vitDhead, attnTokens, attnOps,
      attnOps⟩,
   ⟨.vit, .vitProj, .FC, true, t.dtype, batch * tokens, t.vitHidden, t.vitHidden, blockOps,
      blockOps⟩,
   ⟨.vit, .vitNorm1, .NORM, false, t.dtype, batch * tokens, t.vitHidden, 1, blockOps,
      blockOps⟩,
   ⟨.vit, .vitFf1, .FC, true, t.dtype, batch * tokens, t.vitIntermediate, t.vitHidden,
      blockOps, blockOps⟩,
   ⟨.vit, t.vitActivationName, .ACT, false, t.dtype, batch * tokens, t.vitIntermediate, 1,
      blockOps, blockOps⟩,
   ⟨.vit, .vitFf2, .FC, true, t.dtype, batch * tokens, t.vitHidden, t.vitIntermediate,
      blockOps, blockOps⟩,
   ⟨.vit, .vitNorm2, .NORM, false, t.dtype, batch * tokens, t.vitHidden, 1, blockOps,
      blockOps⟩]

/-- `_build_vit`. -/
def buildVit (batch : ℕ) (imageSize : Option ImageSize) : Except PyError (List Layer) := do
  let tokens := t.computeVitTokens imageSize
  if tokens = 0 ∨ t.vitLayers = 0 then return []
  let attnTokens := t.computeVitAttentionTokens imageSize
  let numImages ← t.computeVitNumImages imageSize
  let blockOps := t.vitLayers * max 1 numImages
  let attnOps := t.vitNumHeads * batch * blockOps
  let vitDhead ← intDiv t.vitHidden t.vitNumHeads
  (t.vitArgs batch tokens attnTokens blockOps attnOps vitDhead).mapM Layer.new

/-- The three layers of a projector with the given names and input width. -/
def projectorArgs (fc1 act fc2 : LayerName) (batch tokens inDim : ℕ) : List LayerArgs :=
  [⟨.projector, fc1, .FC, true, t.dtype, batch * tokens, t.hdim, inDim, 1, 1⟩,
   ⟨.projector, act, .ACT, false, t.dtype, batch * tokens, t.hdim, 1, 1, 1⟩,
   ⟨.projector, fc2, .FC, true, t.dtype, batch * tokens, t.hdim, t.hdim, 1, 1⟩]

/-- `_build_projector`. -/
def buildProjector (batch : ℕ) (imageSize : Option ImageSize) :
    Except PyError (List Layer) := do
  let tokens ← t.computeVisualTokens imageSize
  match t.projectorType with
  | none => return []
  | some projectorType =>
    if tokens = 0 then return []
    let merged := t.vitHidden * t.spatialMergeSize * t.spatialMergeSize
    let args := match projectorType with
      | .mlpWithMerger =>
        t.projectorArgs .projMergerFc1 .projMergerAct .projMergerFc2 batch tokens merged
      | .pixelShuffleMlp =>
        t.projectorArgs .projPixelFc1 .projPixelAct .projPixelFc2 batch tokens merged
      | .mlp =>
        t.projectorArgs .projMlpFc1 .projMlpAct .projMlpFc2 batch tokens t.vitHidden
    let broadcast := if 1 < t.fcTp then
        [⟨.projector, .vitBroadcast, .G2G, false, t.dtype, batch * tokens, t.hdim, 1, 1, 1⟩]
      else []
    (args ++ broadcast).mapM Layer.new

/-- `_build_vision`. -/
def buildVision (batch : ℕ) (imageSize : Option ImageSize) : Except PyError (List Layer) := do
  let vit ← t.buildVit batch imageSize
  let projector ← t.buildProjector batch imageSize
  return vit ++ projector

end Transformer

end AttAcc
