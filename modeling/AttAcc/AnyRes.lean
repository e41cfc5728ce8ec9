import AttAcc.Vision
import AttAcc.Library.Least
import Mathlib.Data.Prod.Lex

/-!
# The AnyRes resolution choice

`select_best_resolution` goes once through the list of resolutions, with an area of `-1` and
no wasted area as the values before the first one. It keeps the first resolution that is
best when larger effective areas come first and, among equal ones, smaller wasted areas
(`selectBestResolution_eq_ok`).
-/

namespace AttAcc

open Library

namespace Transformer

variable {f : FloatArithmetic} {w h : ℕ}

/-- The effective area of a resolution. -/
def effectiveArea (f : FloatArithmetic) (originalW originalH : ℕ) (r : ℕ × ℕ) : ℤ :=
  (effectiveWasted f originalW originalH r.1 r.2).1

/-- Its wasted area. -/
def wastedArea (f : FloatArithmetic) (originalW originalH : ℕ) (r : ℕ × ℕ) : ℤ :=
  (effectiveWasted f originalW originalH r.1 r.2).2

/-- What the choice makes least: the effective area, negated, and then the wasted one. -/
def resolutionCost (f : FloatArithmetic) (originalW originalH : ℕ) (r : ℕ × ℕ) : Lex (ℤ × ℤ) :=
  toLex (-effectiveArea f originalW originalH r, wastedArea f originalW originalH r)

/-- The loop state for the best resolution so far. -/
def BestFitOf (f : FloatArithmetic) (originalW originalH : ℕ) (first : ℕ × ℕ) (s : BestFit) :
    Option (ℕ × ℕ) → Prop
  | none => s = ⟨first, -1, none⟩
  | some r =>
    s = ⟨r, effectiveArea f originalW originalH r, some (wastedArea f originalW originalH r)⟩

/-- No effective area is as small as the value the loop starts with. -/
theorem effectiveArea_nonneg (r : ℕ × ℕ) : 0 ≤ effectiveArea f w h r := by
  have hscale : 0 ≤ min (f.round ((r.1 : ℚ) / w)) (f.round ((r.2 : ℚ) / h)) :=
    le_min (f.round_nonneg (div_nonneg (Nat.cast_nonneg _) (Nat.cast_nonneg _)))
      (f.round_nonneg (div_nonneg (Nat.cast_nonneg _) (Nat.cast_nonneg _)))
  have hscaled : ∀ side : ℕ,
      0 ≤ ⌊f.round (f.round side * min (f.round ((r.1 : ℚ) / w)) (f.round ((r.2 : ℚ) / h)))⌋ :=
    fun side => Int.floor_nonneg.mpr
      (f.round_nonneg (mul_nonneg (f.round_nonneg (Nat.cast_nonneg _)) hscale))
  exact le_min (mul_nonneg (le_min (hscaled w) (Int.natCast_nonneg _))
      (le_min (hscaled h) (Int.natCast_nonneg _)))
    (mul_nonneg (Int.natCast_nonneg _) (Int.natCast_nonneg _))

/-- The lexicographic order, in the terms of the loop. -/
theorem resolutionCost_lt_iff {r r' : ℕ × ℕ} :
    resolutionCost f w h r < resolutionCost f w h r' ↔
      effectiveArea f w h r' < effectiveArea f w h r ∨
        effectiveArea f w h r = effectiveArea f w h r' ∧
          wastedArea f w h r < wastedArea f w h r' := by
  rw [resolutionCost, resolutionCost, Prod.Lex.toLex_lt_toLex, neg_lt_neg_iff, neg_inj]

theorem resolutionCost_le_iff {r r' : ℕ × ℕ} :
    resolutionCost f w h r ≤ resolutionCost f w h r' ↔
      effectiveArea f w h r' < effectiveArea f w h r ∨
        effectiveArea f w h r = effectiveArea f w h r' ∧
          wastedArea f w h r ≤ wastedArea f w h r' := by
  rw [resolutionCost, resolutionCost, Prod.Lex.toLex_le_toLex, neg_lt_neg_iff, neg_inj]

/-- Resolutions of one cost are tied in both areas. -/
theorem resolutionCost_eq_iff {r r' : ℕ × ℕ} :
    resolutionCost f w h r = resolutionCost f w h r' ↔
      effectiveArea f w h r = effectiveArea f w h r' ∧
        wastedArea f w h r = wastedArea f w h r' := by
  rw [resolutionCost, resolutionCost, toLex_inj, Prod.mk.injEq, neg_inj]

/-- One iteration keeps the better one. -/
theorem selectStep_spec {first : ℕ × ℕ} {s : BestFit} {best : Option (ℕ × ℕ)}
    (hs : BestFitOf f w h first s best) (r : ℕ × ℕ) :
    BestFitOf f w h first (selectStep f w h s r) (keepLeast (resolutionCost f w h) best r) := by
  rcases best with _ | b
  · -- the first resolution is taken, as its area is more than -1
    obtain rfl := hs
    have hpos : -1 < effectiveArea f w h r :=
      lt_of_lt_of_le neg_one_lt_zero (effectiveArea_nonneg r)
    exact if_pos (.inl hpos)
  · obtain rfl := hs
    rw [keepLeast_some]
    by_cases hlt : resolutionCost f w h r < resolutionCost f w h b
    · rw [if_pos hlt]
      rcases resolutionCost_lt_iff.mp hlt with hmore | ⟨heq, hless⟩
      · exact if_pos (.inl hmore)
      · exact if_pos (.inr ⟨heq, decide_eq_true hless⟩)
    · rw [if_neg hlt]
      apply if_neg
      intro hbetter
      refine hlt (resolutionCost_lt_iff.mpr ?_)
      rcases hbetter with hmore | ⟨heq, hless⟩
      · exact .inl hmore
      · exact .inr ⟨heq, of_decide_eq_true hless⟩

/-- **The choice is the first resolution of least cost.** -/
theorem selectBestResolution_eq_ok {rs : List (ℕ × ℕ)} {r : ℕ × ℕ} (hw : 0 < w) (hh : 0 < h) :
    selectBestResolution f (w, h) rs = .ok r ↔ rs.argmin (resolutionCost f w h) = some r := by
  rcases rs with _ | ⟨first, rest⟩
  · exact ⟨nofun, nofun⟩
  · have himage : ¬((w, h).1 = 0 ∨ (w, h).2 = 0) :=
      not_or.mpr ⟨hw.ne', hh.ne'⟩
    have hfold : BestFitOf f w h first ((first :: rest).foldl (selectStep f w h) ⟨first, -1, none⟩)
        ((first :: rest).argmin (resolutionCost f w h)) :=
      foldl_argmin _ (BestFitOf f w h first) (fun hs r _ => selectStep_spec hs r) rfl
    obtain ⟨m, hm⟩ := exists_argmin (f := resolutionCost f w h) (List.cons_ne_nil first rest)
    rw [hm] at hfold ⊢
    rw [selectBestResolution, if_neg himage]
    have hbest : ((first :: rest).foldl (selectStep f w h) ⟨first, -1, none⟩).bestFit = m :=
      congrArg BestFit.bestFit hfold
    rw [hbest, Except.ok.injEq, Option.some.injEq]

/-- **The choice is optimal**, and which of several optimal resolutions it is depends only on
which of them comes first. -/
theorem selectBestResolution_optimal (f : FloatArithmetic) (hw : 0 < w) (hh : 0 < h)
    {rs : List (ℕ × ℕ)} (hrs : rs ≠ []) :
    ∃ r, selectBestResolution f (w, h) rs = .ok r ∧ r ∈ rs ∧
      (∀ r' ∈ rs, effectiveArea f w h r' ≤ effectiveArea f w h r) ∧
      (∀ r' ∈ rs, effectiveArea f w h r' = effectiveArea f w h r →
        wastedArea f w h r ≤ wastedArea f w h r') ∧
      (∃ front back, rs = front ++ r :: back ∧ ∀ r' ∈ front,
        ¬(effectiveArea f w h r' = effectiveArea f w h r ∧
          wastedArea f w h r' = wastedArea f w h r)) ∧
      ∀ rs' r', rs.Perm rs' → selectBestResolution f (w, h) rs' = .ok r' →
        effectiveArea f w h r' = effectiveArea f w h r ∧
          wastedArea f w h r' = wastedArea f w h r := by
  obtain ⟨r, hr⟩ := exists_argmin (f := resolutionCost f w h) hrs
  have hle : ∀ r' ∈ rs, resolutionCost f w h r ≤ resolutionCost f w h r' :=
    fun r' hr' => List.le_of_mem_argmin hr' hr
  refine ⟨r, (selectBestResolution_eq_ok hw hh).mpr hr, List.argmin_mem hr, ?_, ?_, ?_, ?_⟩
  · intro r' hr'
    rcases resolutionCost_le_iff.mp (hle r' hr') with hlt | ⟨heq, -⟩
    · exact hlt.le
    · exact heq.ge
  · intro r' hr' heq
    rcases resolutionCost_le_iff.mp (hle r' hr') with hlt | ⟨-, hwasted⟩
    · exact absurd heq hlt.ne
    · exact hwasted
  · obtain ⟨front, back, hsplit, hfront, -⟩ := argmin_eq_some_iff_append.mp hr
    refine ⟨front, back, hsplit, ?_⟩
    intro r' hr' htie
    exact (hfront r' hr').ne (resolutionCost_eq_iff.mpr htie).symm
  · intro rs' r' hperm hr'
    rw [selectBestResolution_eq_ok hw hh] at hr'
    exact resolutionCost_eq_iff.mp (apply_argmin_eq_of_perm hperm hr hr').symm

/-- A wide image, two resolutions that are tied, and one that wastes more. -/
theorem selectBestResolution_optimal_wide :
    (0 < 672 ∧ 0 < 336 ∧ [(1008, 336), (672, 336), (672, 336)] ≠ ([] : List (ℕ × ℕ))) ∧
    ∃ r, selectBestResolution .exact (672, 336) [(1008, 336), (672, 336), (672, 336)] = .ok r ∧
      effectiveArea .exact 672 336 (1008, 336) ≤ effectiveArea .exact 672 336 r := by
  refine ⟨⟨by decide, by decide, by decide⟩, ?_⟩
  have hrs : [(1008, 336), (672, 336), (672, 336)] ≠ ([] : List (ℕ × ℕ)) := by decide
  obtain ⟨r, hr, -, hmax, -⟩ := selectBestResolution_optimal .exact (w := 672) (h := 336)
    (by decide) (by decide) hrs
  exact ⟨r, hr, hmax _ (by decide)⟩

end Transformer

end AttAcc
