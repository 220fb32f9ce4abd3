import Mathlib.AlgebraicGeometry.EllipticCurve.Affine.Point

/-!
# Curves in short Weierstrass form

The curve `y² = x³ + ax + b` over a field, as one of Mathlib's Weierstrass
curves, whose points are a group. `two_nsmul_some` doubles a point by the slope
of its tangent, given as a number that need not be computed by a division.
-/

namespace ShortWeierstrass

variable {F : Type*} [Field F]

/-- The curve `y² = x³ + ax + b`. -/
def curve (a b : F) : WeierstrassCurve.Affine F where
  a₁ := 0
  a₂ := 0
  a₃ := 0
  a₄ := a
  a₆ := b

variable {a b x y slope : F}

theorem equation_iff : (curve a b).Equation x y ↔ y ^ 2 = x ^ 3 + a * x + b := by
  simp [WeierstrassCurve.Affine.equation_iff, curve]

@[simp] theorem negY_eq : (curve a b).negY x y = -y := by
  simp [WeierstrassCurve.Affine.negY, curve]

theorem ne_neg_of_two_mul_ne_zero (hy : 2 * y ≠ 0) : y ≠ -y := by
  intro h
  refine hy ?_
  rw [two_mul]
  exact add_eq_zero_iff_eq_neg.mpr h

/-- A point whose tangent is not vertical is nonsingular. -/
theorem nonsingular_of_equation (hequation : y ^ 2 = x ^ 3 + a * x + b) (hy : 2 * y ≠ 0) :
    (curve a b).Nonsingular x y := by
  refine ((curve a b).nonsingular_iff x y).mpr ⟨equation_iff.mpr hequation, Or.inr ?_⟩
  have hne := ne_neg_of_two_mul_ne_zero hy
  simpa [curve] using hne

/-- Twice a point, by the slope of its tangent. -/
theorem two_nsmul_some [DecidableEq F] (h : (curve a b).Nonsingular x y) (hy : 2 * y ≠ 0)
    (hslope : slope * (2 * y) = 3 * x ^ 2 + a) :
    ∃ h', 2 • (.some x y h : (curve a b).Point) =
      .some (slope ^ 2 - 2 * x) (slope * (x - (slope ^ 2 - 2 * x)) - y) h' := by
  have hne : y ≠ (curve a b).negY x y := by
    rw [negY_eq]
    exact ne_neg_of_two_mul_ne_zero hy
  have htangent : (curve a b).slope x x y y = slope := by
    rw [(curve a b).slope_of_Y_ne rfl hne, negY_eq, div_eq_iff (by rwa [sub_neg_eq_add, ← two_mul])]
    simp only [curve]
    linear_combination -hslope
  have hX : (curve a b).addX x x slope = slope ^ 2 - 2 * x := by
    simp only [WeierstrassCurve.Affine.addX, curve]
    ring
  have hY : (curve a b).addY x x y slope = slope * (x - (slope ^ 2 - 2 * x)) - y := by
    rw [WeierstrassCurve.Affine.addY, negY_eq, WeierstrassCurve.Affine.negAddY, hX]
    ring
  have h' := WeierstrassCurve.Affine.nonsingular_add h h fun hxy => hne hxy.right
  rw [htangent, hX, hY] at h'
  refine ⟨h', ?_⟩
  rw [two_nsmul, WeierstrassCurve.Affine.Point.add_self_of_Y_ne hne]
  congr 1
  · rw [htangent, hX]
  · rw [htangent, hY]

end ShortWeierstrass
