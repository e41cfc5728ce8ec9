import AttAcc.Transformer

/-!
# The memory capacity model

`_compute_mem_components` of `src/system.py`: bytes of weights, KV cache and
temporaries per tensor-parallel shard, as closed formulas of the model's dimensions.
-/

namespace AttAcc

/-- The result of `_compute_mem_components`, in bytes per shard. -/
structure MemComponents where
  weightMemory : ℚ
  kvMemory : ℚ
  tempMemory : ℚ
  deriving DecidableEq

/-- `w_byte`. -/
def DataType.wByte : DataType → ℕ
  | .W16A16 | .W16A8 => 2
  | _ => 1

/-- `a_byte`. -/
def DataType.aByte : DataType → ℕ
  | .W16A16 | .W8A16 => 2
  | _ => 1

namespace Transformer

variable (t : Transformer)

/-- `weight_memory` before it is divided over the FC shards. -/
def weightBytes : ℕ :=
  let qkvWeight := t.hdim * t.qkvProjOutTotal
  let attnOutWeight := t.qProjOut * t.hdim
  let ffWeight := match t.ffnType with
    | .gated => t.hdim * t.ffIntermediate * 3
    | .standard => t.hdim * t.ffIntermediate * 2
  t.ndec * (qkvWeight + attnOutWeight + ffWeight) * t.dtype.wByte

/-- `_compute_mem_components`. The sequence length `lin + lout - 1` is an integer of
either sign. -/
def computeMemComponents (batchSize lin lout : ℕ) : MemComponents :=
  let aByte : ℤ := t.dtype.aByte
  let l : ℤ := lin + lout - 1
  let hdim : ℤ := t.hdim
  let nhead : ℤ := t.numQHeads
  let tempMemory : ℤ :=
    max (max (max ((hdim + l * nhead) * aByte) (hdim * 2 * aByte)) (l * nhead * 2 * aByte))
      ((t.ffIntermediate + hdim) * aByte) + l * nhead * aByte
  let kvMemory : ℤ := t.ndec * 2 * l * t.numKvHeads * t.dhead * aByte
  { weightMemory := (t.weightBytes : ℚ) / t.fcTp
    kvMemory := (kvMemory : ℚ) / t.attnTp * batchSize
    tempMemory := (tempMemory : ℚ) * batchSize }

end Transformer

end AttAcc
