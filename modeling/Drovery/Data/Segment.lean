import Mathlib.Algebra.Order.Field.Basic
import Mathlib.Tactic.Linarith
import Mathlib.Tactic.LinearCombination

-- The points of a segment in the plane, and the one among them that is nearest to a given point.
namespace Segment

variable {K : Type} [Field K] [LinearOrder K] [IsStrictOrderedRing K] {x y u v t r : K}

-- The element of the unit interval that is nearest to `t`.
def clamp (t : K) : K :=
  max 0 (min 1 t)

theorem clamp_mem : 0 ≤ clamp t ∧ clamp t ≤ 1 :=
  ⟨le_max_left _ _, max_le zero_le_one <| min_le_left _ _⟩

theorem clamp_nearest (h₀ : 0 ≤ r) (h₁ : r ≤ 1) : (clamp t - t) ^ 2 ≤ (r - t) ^ 2 := by
  refine sq_le_sq.mpr ?_
  by_cases hn : t < 0
  case pos =>
    have hc : clamp t = 0 := max_eq_left <| (min_le_right _ _).trans hn.le
    rw [hc, zero_sub, abs_neg, abs_of_neg hn, abs_of_nonneg (sub_nonneg.mpr <| hn.le.trans h₀)]
    linarith only [h₀]
  case neg =>
    by_cases hg : 1 < t
    case pos =>
      have hc : clamp t = 1 := by rw [clamp, min_eq_left hg.le, max_eq_right zero_le_one]
      rw [hc, abs_of_nonpos (sub_nonpos.mpr hg.le), abs_of_nonpos (sub_nonpos.mpr <| h₁.trans hg.le)]
      exact neg_le_neg <| sub_le_sub_right h₁ t
    case neg =>
      have hc : clamp t = t := by rw [clamp, min_eq_right (not_lt.mp hg), max_eq_right (not_lt.mp hn)]
      rw [hc, sub_self, abs_zero]
      exact abs_nonneg _

-- The square of the distance from the point `(u, v)` to the point that lies at `t` on the segment from the
-- origin to `(x, y)`.
def sqDist (x y u v t : K) : K :=
  (u - t * x) ^ 2 + (v - t * y) ^ 2

-- Where the perpendicular through the point `(u, v)` meets the line through the segment.
def foot (x y u v : K) : K :=
  if x * x + y * y = 0 then 0 else (u * x + v * y) / (x * x + y * y)

theorem sqDist_eq : sqDist x y u v t =
    sqDist x y u v (foot x y u v) + (x * x + y * y) * (t - foot x y u v) ^ 2 := by
  unfold sqDist foot
  split
  case isTrue h =>
    have ⟨hx, hy⟩ := mul_self_add_mul_self_eq_zero.mp h
    simp [hx, hy]
  case isFalse h =>
    have hs := div_mul_cancel₀ (u * x + v * y) h
    generalize (u * x + v * y) / (x * x + y * y) = s at hs
    linear_combination (2 * t - 2 * s) * hs

-- No point of the segment is nearer than the one at the clamped foot of the perpendicular.
theorem sqDist_clamp_le (h₀ : 0 ≤ t) (h₁ : t ≤ 1) :
    sqDist x y u v (clamp (foot x y u v)) ≤ sqDist x y u v t := by
  rw [sqDist_eq (t := clamp _), sqDist_eq (t := t)]
  have hn : 0 ≤ x * x + y * y := add_nonneg (mul_self_nonneg x) (mul_self_nonneg y)
  exact add_le_add_right (mul_le_mul_of_nonneg_left (clamp_nearest h₀ h₁) hn) _

end Segment
