import AttAcc.Library.Except
import AttAcc.Types

/-!
# Layers of the compute graph

`Layer` of `src/model.py`: the immutable description of one operator. The source
tests layer names by substring (`'ff' in layer.name`) and by prefix
(`layer.name.startswith("comm_x2g")`); names here are an enumeration of the names
the builders write, and each such test is a predicate on it. The attributes that
simulation assigns (`exec_time`, `energy`, `bound`) are kept apart, in
`AttAcc.System`.
-/

namespace AttAcc

open Library

/-- The `stage` argument of a layer. -/
inductive Stage where
  | sum
  | gen
  | vit
  | projector
  deriving DecidableEq, Repr

/-- Every layer name the graph builders write. -/
inductive LayerName where
  | qkv
  | commX2gKv
  | commX2gQ
  | commX2gQkv
  | commX2gReturn
  | score
  | softmax
  | context
  | deepstackAdd
  | proj
  | commG2g
  | norm1
  | norm2
  | ff1
  | ff2
  | ff3
  | relu
  | gelu
  | glu
  | vitQkv
  | vitScore
  | vitSoftmax
  | vitContext
  | vitProj
  | vitNorm1
  | vitNorm2
  | vitFf1
  | vitFf2
  | vitRelu
  | vitGelu
  | vitSilu
  | projMergerFc1
  | projMergerAct
  | projMergerFc2
  | projPixelFc1
  | projPixelAct
  | projPixelFc2
  | projMlpFc1
  | projMlpAct
  | projMlpFc2
  | vitBroadcast
  deriving DecidableEq, Repr

namespace LayerName

/-- `'relu' in name`. -/
def hasRelu : LayerName → Bool
  | relu | vitRelu => true
  | _ => false

/-- `'glu' in name`; the string `gelu` does not contain it. -/
def hasGlu : LayerName → Bool
  | glu => true
  | _ => false

/-- `'ff' in name`. -/
def hasFf : LayerName → Bool
  | ff1 | ff2 | ff3 | vitFf1 | vitFf2 => true
  | _ => false

/-- `'qkv' in name`. -/
def hasQkv : LayerName → Bool
  | qkv | commX2gQkv | vitQkv => true
  | _ => false

/-- `'proj' in name`. -/
def hasProj : LayerName → Bool
  | proj | vitProj | projMergerFc1 | projMergerAct | projMergerFc2 | projPixelFc1
  | projPixelAct | projPixelFc2 | projMlpFc1 | projMlpAct | projMlpFc2 => true
  | _ => false

/-- `'x2g' in name`. -/
def hasX2g : LayerName → Bool
  | commX2gKv | commX2gQ | commX2gQkv | commX2gReturn => true
  | _ => false

/-- `'g2g' in name`. -/
def hasG2g : LayerName → Bool
  | commG2g => true
  | _ => false

/-- `name.startswith("comm_x2g")`. -/
def startsWithCommX2g : LayerName → Bool
  | commX2gKv | commX2gQ | commX2gQkv | commX2gReturn => true
  | _ => false

end LayerName

/-- The data types the `Layer` constructor accepts. -/
def DataType.Supported (d : DataType) : Prop := d = .W16A16 ∨ d = .W8A8

instance (d : DataType) : Decidable d.Supported :=
  inferInstanceAs (Decidable (d = .W16A16 ∨ d = .W8A8))

/-- `dbyte`: two bytes, one for `W8A8`. -/
def DataType.dbyte : DataType → ℕ
  | .W8A8 => 1
  | _ => 2

/-- The arguments of `Layer.__init__`. Where the source leaves `pim_numOp` out, the
caller passes `numOp` again. -/
structure LayerArgs where
  stage : Stage
  name : LayerName
  type : LayerType
  hasWeight : Bool
  dtype : DataType
  m : ℕ
  n : ℕ
  k : ℕ
  numOp : ℕ
  pimNumOp : ℕ
  deriving DecidableEq, Repr

/-- The immutable part of a layer: what its constructor stores, for a data type the
constructor accepts. -/
structure Layer extends LayerArgs where
  supported : dtype.Supported
  deriving DecidableEq

namespace Layer

/-- `Layer.__init__`. -/
def new (a : LayerArgs) : Except PyError Layer :=
  if h : a.dtype.Supported then .ok ⟨a, h⟩
  else .error (.assertion "Only support W16A16, W8A8")

theorem new_eq_ok {a : LayerArgs} {l : Layer} :
    new a = .ok l ↔ a.dtype.Supported ∧ l.toLayerArgs = a := by
  unfold new
  by_cases h : a.dtype.Supported
  · rw [dif_pos h]
    refine ⟨?_, ?_⟩
    · intro hl
      obtain rfl := Except.ok.inj hl
      exact ⟨h, rfl⟩
    · rintro ⟨-, rfl⟩
      rfl
  · rw [dif_neg h]
    refine ⟨?_, ?_⟩
    · intro hl
      cases hl
    · rintro ⟨hs, -⟩
      exact absurd hs h

/-- Constructing a list of layers succeeds exactly when every data type is supported,
and then stores the arguments as given. -/
theorem mapM_new_eq_ok {as : List LayerArgs} {ls : List Layer} :
    as.mapM new = .ok ls ↔
      (∀ a ∈ as, a.dtype.Supported) ∧ ls.map toLayerArgs = as := by
  rw [mapM_ok_iff]
  simp only [new_eq_ok]
  refine ⟨?_, ?_⟩
  · intro h
    induction h with
    | nil => exact ⟨fun a ha => absurd ha List.not_mem_nil, rfl⟩
    | cons hl _ ih =>
      obtain ⟨hs, rfl⟩ := hl
      exact ⟨List.forall_mem_cons.mpr ⟨hs, ih.1⟩, by rw [List.map_cons, ih.2]⟩
  · rintro ⟨-, rfl⟩
    induction ls with
    | nil => exact .nil
    | cons l ls ih => exact .cons ⟨l.supported, rfl⟩ ih

/-- Arguments with supported data types are those of layers. -/
theorem exists_map_toLayerArgs {as : List LayerArgs} (h : ∀ a ∈ as, a.dtype.Supported) :
    ∃ ls : List Layer, ls.map toLayerArgs = as := by
  induction as with
  | nil => exact ⟨[], rfl⟩
  | cons a as ih =>
    obtain ⟨ha, has⟩ := List.forall_mem_cons.mp h
    obtain ⟨ls, hls⟩ := ih has
    exact ⟨⟨a, ha⟩ :: ls, by rw [List.map_cons, hls]⟩

end Layer

namespace LayerArgs

/-- `dbyte` of a layer. -/
def dbyte (l : LayerArgs) : ℕ := l.dtype.dbyte

/-- `get_flops`. -/
def getFlops (l : LayerArgs) : ℕ :=
  match l.type with
  | .SOFTMAX => 5 * l.m * l.n * l.numOp
  | .ACT =>
    if l.name.hasRelu then 1 * l.m * l.n * l.numOp
    else if l.name.hasGlu then (8 + 1) * l.m * l.n * l.numOp
    else 8 * l.m * l.n * l.numOp
  | .NORM => 5 * l.m * l.n * l.numOp
  | .FC | .MATMUL => 2 * l.m * l.n * l.k * l.numOp
  | .G2G | .X2G => 0

/-- `get_size`: bytes of the two inputs and of the output. -/
def getSize (l : LayerArgs) : ℕ × ℕ × ℕ :=
  match l.type with
  | .SOFTMAX | .ACT | .G2G | .X2G =>
    let in1 := l.numOp * l.m * l.n * l.dbyte
    -- SwiGLU and GeGLU read a second operand of the same size
    (in1, if l.name.hasGlu then in1 else 0, in1)
  | .NORM =>
    let in1 := l.numOp * l.m * l.n * l.dbyte
    (in1, in1, in1)
  | .FC | .MATMUL =>
    (l.numOp * l.m * l.k * l.dbyte, l.numOp * l.n * l.k * l.dbyte,
      l.numOp * l.m * l.n * l.dbyte)

end LayerArgs

end AttAcc
