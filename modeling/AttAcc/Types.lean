import Mathlib.Data.Rat.Floor
import Mathlib.Algebra.Order.Floor.Div

/-!
# The simulator's enumerations and Python's exceptions

The enumerations of `src/type.py`, the exceptions the modelled Python can raise,
and the two division idioms the source is built from. Floating-point quantities
are exact rationals throughout: `math.ceil(a / b)` on integers is the ceiling
division `a ⌈/⌉ b`, and `int(a / b)` is `a / b` on `ℕ`.
-/

namespace AttAcc

/-- `DataType`: weight and activation widths. -/
inductive DataType where
  | W16A16
  | W16A8
  | W8A16
  | W8A8
  deriving DecidableEq, Repr

/-- `LayerType`. -/
inductive LayerType where
  | FC
  | MATMUL
  | ACT
  | SOFTMAX
  | NORM
  | G2G
  | X2G
  deriving DecidableEq, Repr

/-- `DeviceType`. -/
inductive DeviceType where
  | NONE
  | GPU
  | CPU
  | PIM
  deriving DecidableEq, Repr

/-- `PIMType`: the level of the DRAM hierarchy the MAC units sit at. -/
inductive PIMType where
  | BA
  | BG
  | BUFFER
  deriving DecidableEq, Repr

/-- The exceptions the modelled functions raise. -/
inductive PyError where
  /-- `AssertionError`, with its message -/
  | assertion (message : String)
  /-- `ZeroDivisionError` -/
  | zeroDivision
  /-- `TypeError` -/
  | typeError
  /-- `ValueError` -/
  | valueError
  /-- `IndexError` -/
  | indexError
  /-- `KeyError` -/
  | keyError
  /-- `RuntimeError`, with its message -/
  | runtimeError (message : String)
  deriving DecidableEq, Repr

/-- `int(a / b)`: division by zero raises. -/
def intDiv (a b : ℕ) : Except PyError ℕ :=
  if b = 0 then .error .zeroDivision else .ok (a / b)

end AttAcc
