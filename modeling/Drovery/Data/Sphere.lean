import Mathlib.Analysis.InnerProductSpace.PiL2
import Mathlib.Analysis.SpecialFunctions.Complex.Arg
import Mathlib.Geometry.Euclidean.Angle.Unoriented.TriangleInequality

-- The haversine formula computes the angle between two directions. Hence what is proportional to it is a
-- metric on the sphere.
namespace Sphere

open Real InnerProductGeometry

-- The angle of the point `(x, y)` of the plane.
noncomputable def atan2 (y x : ℝ) : ℝ :=
  Complex.arg ⟨x, y⟩

-- The unit vector with the given latitude and longitude.
noncomputable def direction (lat lng : ℝ) : EuclideanSpace ℝ (Fin 3) :=
  !₂[cos lat * cos lng, cos lat * sin lng, sin lat]

noncomputable def hav (lat₁ lng₁ lat₂ lng₂ : ℝ) : ℝ :=
  sin ((lat₂ - lat₁) / 2) ^ 2 + cos lat₁ * cos lat₂ * sin ((lng₂ - lng₁) / 2) ^ 2

-- The angle between two directions by the haversine formula.
noncomputable def centralAngle (lat₁ lng₁ lat₂ lng₂ : ℝ) : ℝ :=
  2 * atan2 (√(hav lat₁ lng₁ lat₂ lng₂)) (√(1 - hav lat₁ lng₁ lat₂ lng₂))

variable {lat lng lat₁ lng₁ lat₂ lng₂ lat₃ lng₃ a : ℝ}

theorem two_mul_atan2_sqrt (h₀ : 0 ≤ a) (h₁ : a ≤ 1) :
    2 * atan2 (√a) (√(1 - a)) = arccos (1 - 2 * a) := by
  have hn : ‖(⟨√(1 - a), √a⟩ : ℂ)‖ = 1 := by
    rw [Complex.norm_def, Complex.normSq_mk, mul_self_sqrt (sub_nonneg.mpr h₁), mul_self_sqrt h₀]
    simp
  have hz : (⟨√(1 - a), √a⟩ : ℂ) ≠ 0 := by
    intro h
    simp [h] at hn
  have ha : atan2 (√a) (√(1 - a)) = arccos (√(1 - a)) := by
    rw [atan2, Complex.arg_of_im_nonneg_of_ne_zero (sqrt_nonneg a) hz, hn, div_one]
  have hs : √(1 - a) ≤ 1 := sqrt_le_one.mpr (by linarith)
  have hc : cos (2 * arccos (√(1 - a))) = 1 - 2 * a := by
    rw [cos_two_mul, cos_arccos (by linarith [sqrt_nonneg (1 - a)]) hs, sq_sqrt (sub_nonneg.mpr h₁)]
    ring
  have hl : arccos (√(1 - a)) ≤ π / 2 := arccos_le_pi_div_two.mpr <| sqrt_nonneg _
  rw [ha, ← hc, arccos_cos (by linarith [arccos_nonneg (√(1 - a))]) (by linarith)]

theorem inner_direction :
    inner ℝ (direction lat₁ lng₁) (direction lat₂ lng₂) = 1 - 2 * hav lat₁ lng₁ lat₂ lng₂ := by
  have versine {x y : ℝ} : 1 - 2 * sin ((y - x) / 2) ^ 2 = cos x * cos y + sin x * sin y := by
    rw [sin_sq_eq_half_sub, mul_div_cancel₀ _ two_ne_zero, cos_sub]
    ring
  have hl := versine (x := lat₁) (y := lat₂)
  have hm := versine (x := lng₁) (y := lng₂)
  simp only [direction, hav, PiLp.inner_apply, Fin.sum_univ_three]
  simp
  linear_combination -hl - cos lat₁ * cos lat₂ * hm

theorem norm_direction : ‖direction lat lng‖ = 1 := by
  have h := @inner_direction lat lng lat lng
  rw [real_inner_self_eq_norm_sq] at h
  exact (pow_eq_one_iff_of_nonneg (norm_nonneg _) two_ne_zero).mp <| by simpa [hav] using h

theorem direction_ne_zero : direction lat lng ≠ 0 := by
  intro h
  have := @norm_direction lat lng
  simp [h] at this

theorem hav_mem : 0 ≤ hav lat₁ lng₁ lat₂ lng₂ ∧ hav lat₁ lng₁ lat₂ lng₂ ≤ 1 := by
  have h := abs_real_inner_le_norm (direction lat₁ lng₁) (direction lat₂ lng₂)
  rw [inner_direction, norm_direction, norm_direction, mul_one, abs_le] at h
  exact ⟨by linarith, by linarith⟩

theorem centralAngle_eq_angle :
    centralAngle lat₁ lng₁ lat₂ lng₂ = angle (direction lat₁ lng₁) (direction lat₂ lng₂) := by
  have ⟨h₀, h₁⟩ := @hav_mem lat₁ lng₁ lat₂ lng₂
  rw [centralAngle, two_mul_atan2_sqrt h₀ h₁, angle, inner_direction, norm_direction, norm_direction]
  simp

theorem centralAngle_nonneg : 0 ≤ centralAngle lat₁ lng₁ lat₂ lng₂ :=
  centralAngle_eq_angle ▸ angle_nonneg _ _

@[simp]
theorem centralAngle_self : centralAngle lat lng lat lng = 0 := by
  rw [centralAngle_eq_angle, angle_self direction_ne_zero]

theorem centralAngle_comm : centralAngle lat₁ lng₁ lat₂ lng₂ = centralAngle lat₂ lng₂ lat₁ lng₁ := by
  rw [centralAngle_eq_angle, centralAngle_eq_angle, angle_comm]

theorem centralAngle_triangle : centralAngle lat₁ lng₁ lat₃ lng₃ ≤
    centralAngle lat₁ lng₁ lat₂ lng₂ + centralAngle lat₂ lng₂ lat₃ lng₃ := by
  rw [centralAngle_eq_angle, centralAngle_eq_angle, centralAngle_eq_angle]
  exact angle_le_angle_add_angle _ _ _

-- Along the equator the angle is the difference of the longitudes.
theorem centralAngle_equator (h₀ : 0 ≤ lng₂ - lng₁) (h₁ : lng₂ - lng₁ ≤ π) :
    centralAngle 0 lng₁ 0 lng₂ = lng₂ - lng₁ := by
  rw [centralAngle_eq_angle, angle, inner_direction, norm_direction, norm_direction, hav]
  have : 1 - 2 * sin ((lng₂ - lng₁) / 2) ^ 2 = cos (lng₂ - lng₁) := by
    rw [sin_sq_eq_half_sub, mul_div_cancel₀ _ two_ne_zero]
    ring
  simp [this, arccos_cos h₀ h₁]

end Sphere
