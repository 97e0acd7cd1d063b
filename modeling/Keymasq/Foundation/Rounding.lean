import Mathlib.Algebra.Order.Floor.Ring
import Mathlib.Algebra.Order.Round
import Mathlib.Data.Int.ConditionallyCompleteOrder
import Mathlib.Data.Rat.Floor
import Mathlib.Tactic.Linarith
import Mathlib.Tactic.Ring

/-!
# Rounding to the nearest integer, ties to even

The built-in `round`, over an ordered field with a floor. It never passes an integer, so what
lies between two integers is rounded between them.
-/

namespace Foundation.Rounding


variable {K : Type} [Field K] [LinearOrder K] [IsStrictOrderedRing K] [FloorRing K]

/- Below the middle of two integers the lower one, above it the upper one, in the middle the
even one. -/
def roundHalfEven (x : K) : ℤ :=
  if 2 * Int.fract x < 1 then ⌊x⌋
  else if 1 < 2 * Int.fract x then ⌊x⌋ + 1
  else if ⌊x⌋ % 2 = 0 then ⌊x⌋ else ⌊x⌋ + 1

omit [IsStrictOrderedRing K] in
theorem roundHalfEven_cases (x : K) :
    (roundHalfEven x = ⌊x⌋ ∧ 2 * Int.fract x ≤ 1) ∨
      (roundHalfEven x = ⌊x⌋ + 1 ∧ 1 ≤ 2 * Int.fract x) := by
  unfold roundHalfEven
  by_cases hlow : 2 * Int.fract x < 1
  · exact .inl ⟨if_pos hlow, hlow.le⟩
  rw [if_neg hlow]
  by_cases hhigh : 1 < 2 * Int.fract x
  · exact .inr ⟨if_pos hhigh, hhigh.le⟩
  rw [if_neg hhigh]
  by_cases heven : ⌊x⌋ % 2 = 0
  · exact .inl ⟨if_pos heven, not_lt.mp hhigh⟩
  · exact .inr ⟨if_neg heven, not_lt.mp hlow⟩

theorem abs_roundHalfEven_sub_le (x : K) : |(roundHalfEven x : K) - x| ≤ 1 / 2 := by
  have hx := Int.floor_add_fract x
  have hnonneg := Int.fract_nonneg x
  have hlt := Int.fract_lt_one x
  rw [abs_le]
  obtain ⟨hround, hfract⟩ | ⟨hround, hfract⟩ := roundHalfEven_cases x
  · rw [hround]
    constructor <;> linarith
  · rw [hround, Int.cast_add, Int.cast_one]
    constructor <;> linarith

/-- An integer closer than one half is what a number is rounded to. -/
theorem roundHalfEven_eq {x : K} {n : ℤ} (h : |x - n| < 1 / 2) : roundHalfEven x = n := by
  have hround := abs_roundHalfEven_sub_le x
  have hdist : |((roundHalfEven x - n : ℤ) : K)| < 1 := by
    have htriangle := abs_sub_le (roundHalfEven x : K) x n
    rw [Int.cast_sub]
    linarith
  rw [← Int.cast_abs, ← Int.cast_one, Int.cast_lt] at hdist
  have hzero := Int.abs_lt_one_iff.mp hdist
  omega

@[simp] theorem roundHalfEven_intCast (n : ℤ) : roundHalfEven (n : K) = n :=
  roundHalfEven_eq (by rw [sub_self, abs_zero]; exact one_half_pos)

theorem roundHalfEven_mono : Monotone (roundHalfEven : K → ℤ) := by
  intro x y hxy
  by_contra hlt
  -- both are rounded within one half, to different integers, so both are their middle
  have hstep : (roundHalfEven y : K) + 1 ≤ roundHalfEven x := by
    exact_mod_cast Int.add_one_le_iff.mpr (not_le.mp hlt)
  have hx := abs_le.mp (abs_roundHalfEven_sub_le x)
  have hy := abs_le.mp (abs_roundHalfEven_sub_le y)
  have heq : x = y := by linarith
  rw [heq] at hlt
  exact hlt le_rfl

theorem le_roundHalfEven {n : ℤ} {x : K} (h : n ≤ x) : n ≤ roundHalfEven x := by
  have hmono := roundHalfEven_mono h
  rwa [roundHalfEven_intCast] at hmono

theorem roundHalfEven_le {n : ℤ} {x : K} (h : x ≤ n) : roundHalfEven x ≤ n := by
  have hmono := roundHalfEven_mono h
  rwa [roundHalfEven_intCast] at hmono

example : roundHalfEven (5 / 2 : ℚ) = 2 := by
  unfold roundHalfEven
  norm_num

end Foundation.Rounding
