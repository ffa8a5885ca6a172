import Mathlib.Algebra.Order.BigOperators.Group.Finset
import Mathlib.LinearAlgebra.Matrix.NonsingularInverse
import Mathlib.LinearAlgebra.Matrix.ToLinearEquiv

/-!
# Positive definite matrices

Symmetric matrices over an ordered field whose quadratic form is positive. Sums, congruences and
inverses of such matrices are such matrices, and so is the covariance after a correction: it is
the inverse of the sum of two inverses.
-/

namespace ObstacleTracking

open Matrix

variable {K : Type} [Field K] [LinearOrder K] {ι : Type} [Fintype ι]

/-- A symmetric matrix with a positive quadratic form. -/
structure IsPositive (a : Matrix ι ι K) : Prop where
  symmetric : aᵀ = a
  positive : ∀ v : ι → K, v ≠ 0 → 0 < v ⬝ᵥ a *ᵥ v

variable [DecidableEq ι] {a b f : Matrix ι ι K}

namespace IsPositive

/-! ### Inverses -/

theorem det_ne_zero (h : IsPositive a) : a.det ≠ 0 := by
  intro hdet
  obtain ⟨v, hv, hzero⟩ := Matrix.exists_mulVec_eq_zero_iff.mpr hdet
  have hpos := h.positive v hv
  rw [hzero, dotProduct_zero] at hpos
  exact lt_irrefl 0 hpos

theorem isUnit_det (h : IsPositive a) : IsUnit a.det :=
  isUnit_iff_ne_zero.mpr h.det_ne_zero

theorem inv (h : IsPositive a) : IsPositive a⁻¹ := by
  constructor
  · rw [transpose_nonsing_inv, h.symmetric]
  · intro v hv
    have hback : a *ᵥ (a⁻¹ *ᵥ v) = v := by
      rw [mulVec_mulVec, mul_nonsing_inv a h.isUnit_det, one_mulVec]
    have hne : a⁻¹ *ᵥ v ≠ 0 := by
      intro hzero
      rw [hzero, mulVec_zero] at hback
      exact hv hback.symm
    have hpos := h.positive _ hne
    rw [hback, dotProduct_comm] at hpos
    exact hpos

/-! ### Sums and congruences -/

theorem congruence (ha : IsPositive a) (hf : f.det ≠ 0) : IsPositive (f * a * fᵀ) := by
  constructor
  · rw [transpose_mul, transpose_mul, transpose_transpose, ha.symmetric, Matrix.mul_assoc]
  · intro v hv
    have hne : fᵀ *ᵥ v ≠ 0 := by
      intro hzero
      rw [← Matrix.det_transpose] at hf
      exact hf (Matrix.exists_mulVec_eq_zero_iff.mp ⟨v, hv, hzero⟩)
    have hform : v ⬝ᵥ (f * a * fᵀ) *ᵥ v = (fᵀ *ᵥ v) ⬝ᵥ a *ᵥ (fᵀ *ᵥ v) := by
      rw [← mulVec_mulVec, ← mulVec_mulVec, dotProduct_mulVec, ← mulVec_transpose]
    rw [hform]
    exact ha.positive _ hne

variable [IsStrictOrderedRing K]

omit [DecidableEq ι] in
theorem add (ha : IsPositive a) (hb : IsPositive b) : IsPositive (a + b) := by
  constructor
  · rw [transpose_add, ha.symmetric, hb.symmetric]
  · intro v hv
    rw [add_mulVec, dotProduct_add]
    exact add_pos (ha.positive v hv) (hb.positive v hv)

theorem smul_one {r : K} (hr : 0 < r) : IsPositive (r • (1 : Matrix ι ι K)) := by
  constructor
  · rw [transpose_smul, transpose_one]
  · intro v hv
    rw [smul_mulVec, one_mulVec, dotProduct_smul, smul_eq_mul]
    refine mul_pos hr ?_
    obtain ⟨i, hi⟩ := Function.ne_iff.mp hv
    exact Finset.sum_pos' (fun k _ => mul_self_nonneg (v k))
      ⟨i, Finset.mem_univ i, mul_self_pos.mpr hi⟩

/-! ### Corrections -/

/-- What a correction takes away is the part of the covariance that the gain picks. -/
theorem gain_congruence (h : IsPositive a) {r : K} (hr : 0 < r) :
    a * (a + r • 1)⁻¹ * (a + r • 1) * (a * (a + r • 1)⁻¹)ᵀ = a * (a + r • 1)⁻¹ * a := by
  have hs := h.add (smul_one hr)
  rw [transpose_mul, h.symmetric, transpose_nonsing_inv, hs.symmetric, Matrix.mul_assoc a,
    nonsing_inv_mul _ hs.isUnit_det, Matrix.mul_one, Matrix.mul_assoc]

/-- What a correction leaves of a covariance is the inverse of a sum of inverses. -/
theorem correct_eq (h : IsPositive a) {r : K} (hr : 0 < r) :
    a - a * (a + r • 1)⁻¹ * (a + r • 1) * (a * (a + r • 1)⁻¹)ᵀ = (a⁻¹ + r⁻¹ • 1)⁻¹ := by
  have hunit := (h.add (smul_one hr)).isUnit_det
  have hscaled : a - a * ((a + r • 1)⁻¹ * a) = r • ((a + r • 1)⁻¹ * a) := by
    have hsum : (a + r • 1) * ((a + r • 1)⁻¹ * a) = a := by
      rw [← Matrix.mul_assoc, mul_nonsing_inv _ hunit, Matrix.one_mul]
    rw [Matrix.add_mul, Matrix.smul_mul, Matrix.one_mul] at hsum
    rw [sub_eq_iff_eq_add', hsum]
  rw [h.gain_congruence hr, Matrix.mul_assoc]
  refine (Matrix.inv_eq_right_inv ?_).symm
  rw [Matrix.add_mul, Matrix.mul_sub, nonsing_inv_mul a h.isUnit_det, ← Matrix.mul_assoc,
    nonsing_inv_mul a h.isUnit_det, Matrix.one_mul, hscaled, Matrix.smul_mul, Matrix.one_mul,
    smul_smul, inv_mul_cancel₀ hr.ne', one_smul, sub_add_cancel]

theorem correct (h : IsPositive a) {r : K} (hr : 0 < r) :
    IsPositive (a - a * (a + r • 1)⁻¹ * (a + r • 1) * (a * (a + r • 1)⁻¹)ᵀ) := by
  rw [h.correct_eq hr]
  exact (h.inv.add (smul_one (inv_pos.mpr hr))).inv

end IsPositive

end ObstacleTracking
