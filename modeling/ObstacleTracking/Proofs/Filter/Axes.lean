import Mathlib.Data.Matrix.Block
import Mathlib.LinearAlgebra.Matrix.Block
import Mathlib.LinearAlgebra.Matrix.Determinant.Basic
import Mathlib.Tactic.FinCases
import ObstacleTracking.Filter.Motion
import ObstacleTracking.Proofs.Linear.Elimination
import ObstacleTracking.Proofs.Linear.Positive

/-!
# Axes of the motion state

The six entries of a motion state are a position and a velocity on each of three axes. Matrices
that do not mix the axes consist of a block of two rows and two columns for each axis; sums,
products, transposes and inverses are taken block by block.
-/

namespace ObstacleTracking

open Matrix

variable {K : Type} [Field K]

def place : Fin 2 × Fin 3 ≃ Fin 6 := finProdFinEquiv

def ofAxes (m : Fin 3 → Matrix (Fin 2) (Fin 2) K) : Matrix (Fin 6) (Fin 6) K :=
  (blockDiagonal m).submatrix place.symm place.symm

variable {m m' : Fin 3 → Matrix (Fin 2) (Fin 2) K}

theorem ofAxes_place (x y : Fin 2 × Fin 3) :
    ofAxes m (place x) (place y) = if x.2 = y.2 then m x.2 x.1 y.1 else 0 := by
  rw [ofAxes, submatrix_apply, Equiv.symm_apply_apply, Equiv.symm_apply_apply,
    blockDiagonal_apply]

theorem val_place (x : Fin 2 × Fin 3) : (place x).val = x.2.val + 3 * x.1.val := rfl

/-! ### Operations block by block -/

theorem ofAxes_mul : ofAxes m * ofAxes m' = ofAxes fun k => m k * m' k := by
  rw [ofAxes, ofAxes, submatrix_mul_equiv, ofAxes, ← blockDiagonal_mul]

theorem ofAxes_add : ofAxes m + ofAxes m' = ofAxes (m + m') := by
  rw [ofAxes, ofAxes, ofAxes, blockDiagonal_add]
  rfl

theorem ofAxes_sub : ofAxes m - ofAxes m' = ofAxes (m - m') := by
  rw [ofAxes, ofAxes, ofAxes, blockDiagonal_sub]
  rfl

theorem ofAxes_one : (1 : Matrix (Fin 6) (Fin 6) K) = ofAxes 1 := by
  rw [ofAxes, blockDiagonal_one, submatrix_one_equiv]

theorem ofAxes_smul (r : K) : r • ofAxes m = ofAxes (r • m) := by
  rw [ofAxes, ofAxes, blockDiagonal_smul]
  rfl

theorem ofAxes_transpose : (ofAxes m)ᵀ = ofAxes fun k => (m k)ᵀ := by
  rw [ofAxes, ofAxes, transpose_submatrix, blockDiagonal_transpose]

theorem det_ofAxes : (ofAxes m).det = ∏ k, (m k).det := by
  rw [ofAxes, det_submatrix_equiv_self, det_blockDiagonal]

theorem ofAxes_inv (h : (ofAxes m).det ≠ 0) : (ofAxes m)⁻¹ = ofAxes fun k => (m k)⁻¹ := by
  rw [det_ofAxes] at h
  have hdet : ∀ k, IsUnit (m k).det :=
    fun k => isUnit_iff_ne_zero.mpr (Finset.prod_ne_zero_iff.mp h k (Finset.mem_univ k))
  refine Matrix.inv_eq_right_inv ?_
  rw [ofAxes_mul, funext fun k => mul_nonsing_inv (m k) (hdet k), ofAxes_one]
  rfl

/-! ### Positive blocks -/

/-- The quadratic form is the sum of those of the axes. -/
theorem dotProduct_ofAxes (v : Fin 6 → K) :
    v ⬝ᵥ ofAxes m *ᵥ v =
      ∑ k, (fun i => v (place (i, k))) ⬝ᵥ m k *ᵥ fun i => v (place (i, k)) := by
  have hform : v ⬝ᵥ ofAxes m *ᵥ v = (v ∘ place) ⬝ᵥ blockDiagonal m *ᵥ (v ∘ place) := by
    rw [ofAxes, submatrix_mulVec_equiv, Equiv.symm_symm, dotProduct_comp_equiv_symm]
  rw [hform]
  simp only [dotProduct, mulVec, Fintype.sum_prod_type, blockDiagonal_apply, Function.comp_apply,
    ite_mul, zero_mul, Finset.sum_ite_eq, Finset.mem_univ, if_true]
  exact Finset.sum_comm

section Positive

variable [LinearOrder K] [IsStrictOrderedRing K]

theorem isPositive_ofAxes (h : ∀ k, IsPositive (m k)) : IsPositive (ofAxes m) := by
  constructor
  · rw [ofAxes_transpose, funext fun k => (h k).symmetric]
  · intro v hv
    obtain ⟨i, hi⟩ := Function.ne_iff.mp hv
    rw [dotProduct_ofAxes]
    refine Finset.sum_pos' ?_ ⟨(place.symm i).2, Finset.mem_univ _, ?_⟩
    · intro k _
      by_cases hzero : (fun i => v (place (i, k))) = 0
      · rw [hzero, zero_dotProduct]
      · exact ((h k).positive _ hzero).le
    · refine (h _).positive _ ?_
      intro hzero
      have hvalue := congrFun hzero (place.symm i).1
      rw [Prod.mk.eta, Equiv.apply_symm_apply] at hvalue
      exact hi hvalue

omit [IsStrictOrderedRing K] in
/-- A vector on one axis only sees the block of this axis. -/
theorem isPositive_axis (h : IsPositive (ofAxes m)) (k : Fin 3) : IsPositive (m k) := by
  constructor
  · ext i j
    have hentry := congrFun (congrFun h.symmetric (place (i, k))) (place (j, k))
    rw [transpose_apply, ofAxes_place, ofAxes_place, if_pos rfl, if_pos rfl] at hentry
    exact hentry
  · intro w hw
    have hv : (fun p => if (place.symm p).2 = k then w (place.symm p).1 else 0) ≠ 0 := by
      intro hzero
      refine hw (funext fun i => ?_)
      have hentry := congrFun hzero (place (i, k))
      rw [Equiv.symm_apply_apply, if_pos rfl] at hentry
      exact hentry
    have hpos := h.positive _ hv
    simp only [dotProduct_ofAxes, Equiv.symm_apply_apply] at hpos
    have hothers : ∀ l ∈ Finset.univ, l ≠ k →
        (fun i => if l = k then w i else 0) ⬝ᵥ m l *ᵥ (fun i => if l = k then w i else 0) = 0 := by
      intro l _ hl
      simp only [if_neg hl]
      exact zero_dotProduct _
    rw [Finset.sum_eq_single k hothers fun hk => absurd (Finset.mem_univ k) hk] at hpos
    simpa using hpos

theorem isPositive_fin_two {p q r : K} (hp : 0 < p) (hdet : 0 < p * r - q * q) :
    IsPositive !![p, q; q, r] := by
  constructor
  · ext i j
    fin_cases i <;> fin_cases j <;> rfl
  · intro v hv
    have hform : p * (v ⬝ᵥ !![p, q; q, r] *ᵥ v) =
        (p * v 0 + q * v 1) * (p * v 0 + q * v 1) + (p * r - q * q) * (v 1 * v 1) := by
      simp only [dotProduct, mulVec, Fin.sum_univ_two, of_apply, cons_val_zero, cons_val_one]
      ring
    have hsum : 0 < p * (v ⬝ᵥ !![p, q; q, r] *ᵥ v) := by
      rw [hform]
      by_cases hv1 : v 1 = 0
      · have hv0 : v 0 ≠ 0 := by
          intro hv0
          refine hv (funext fun i => ?_)
          fin_cases i
          · exact hv0
          · exact hv1
        rw [hv1, mul_zero, add_zero, mul_zero, mul_zero, add_zero]
        exact mul_self_pos.mpr (mul_ne_zero hp.ne' hv0)
      · exact add_pos_of_nonneg_of_pos (mul_self_nonneg _)
          (mul_pos hdet (mul_self_pos.mpr hv1))
    exact pos_of_mul_pos_right hsum hp.le

theorem IsPositive.exists_fin_two {a : Matrix (Fin 2) (Fin 2) K} (h : IsPositive a) :
    ∃ p q r, a = !![p, q; q, r] ∧ 0 < p ∧ 0 < r ∧ 0 < p * r - q * q := by
  have hsymm : a 1 0 = a 0 1 := congrFun (congrFun h.symmetric 0) 1
  have hform : ∀ x y, (x, y) ≠ (0, 0) →
      0 < x * (a 0 0 * x + a 0 1 * y) + y * (a 0 1 * x + a 1 1 * y) := by
    intro x y hxy
    have hv : ![x, y] ≠ 0 := fun hzero =>
      hxy (Prod.ext (congrFun hzero 0) (congrFun hzero 1))
    have hpos := h.positive ![x, y] hv
    rw [← hsymm]
    simpa [dotProduct, mulVec, Fin.sum_univ_two, hsymm] using hpos
  have hp : 0 < a 0 0 := by simpa using hform 1 0 (by simp)
  have hr : 0 < a 1 1 := by simpa using hform 0 1 (by simp)
  refine ⟨a 0 0, a 0 1, a 1 1, ?_, hp, hr, ?_⟩
  · have hentries := eta_fin_two a
    rw [hsymm] at hentries
    exact hentries
  · have hdet := hform (a 0 1) (-a 0 0) (by simp [hp.ne'])
    have hproduct : a 0 1 * (a 0 0 * a 0 1 + a 0 1 * -a 0 0) +
        -a 0 0 * (a 0 1 * a 0 1 + a 1 1 * -a 0 0) =
        a 0 0 * (a 0 0 * a 1 1 - a 0 1 * a 0 1) := by ring
    rw [hproduct] at hdet
    exact pos_of_mul_pos_right hdet hp.le

end Positive

/-! ### The matrices of the filter -/

section Filter

variable {α : Type} [LinearOrder K] [Scalar α] [ExactScalar K α]

theorem place_ne {a b : Fin 2} {k l : Fin 3} (h : k ≠ l) : place (a, k) ≠ place (b, l) :=
  fun heq => h (congrArg Prod.snd (place.injective heq))

/-- Places three apart are on the same axis. -/
theorem val_place_ne {a b : Fin 2} {k l : Fin 3} (h : k ≠ l) :
    (place (a, k)).val ≠ (place (b, l)).val + 3 := by
  have hne : k.val ≠ l.val := fun heq => h (Fin.ext heq)
  rw [val_place, val_place]
  dsimp only
  omega

theorem eq_ofAxes {a : Mat 6 6 α}
    (h : ∀ x y, a.get (place x) (place y) =
      if x.2 = y.2 then ExactScalar.ofField (m x.2 x.1 y.1) else 0) :
    a = Mat.ofField (ofAxes m) := by
  refine Mat.eq_ofField ?_
  intro i j
  obtain ⟨x, rfl⟩ := place.surjective i
  obtain ⟨y, rfl⟩ := place.surjective j
  rw [h, ofAxes_place]
  split
  · rfl
  · exact ExactScalar.zero_eq

/-- The initial uncertainties of a position and a velocity. -/
def axisInitial (p v : K) : Matrix (Fin 2) (Fin 2) K := !![p, 0; 0, v]

/-- Positions advance by the velocity on the same axis. -/
def axisTransition (dt : K) : Matrix (Fin 2) (Fin 2) K := !![1, dt; 0, 1]

/-- What random accelerations of an intensity add on an axis. -/
def axisNoise (dt q : K) : Matrix (Fin 2) (Fin 2) K :=
  !![q * (dt * dt * dt) / (3 : ℕ), q * (dt * dt) / (2 : ℕ); q * (dt * dt) / (2 : ℕ), q * dt]

theorem initial_ofField (p v : K) :
    (Mat.diagonal fun i : Fin 6 => if i.val < 3 then ExactScalar.ofField p else
      ExactScalar.ofField v : Mat 6 6 α) = Mat.ofField (ofAxes fun _ => axisInitial p v) := by
  refine eq_ofAxes ?_
  intro x y
  obtain ⟨a, k⟩ := x
  obtain ⟨b, l⟩ := y
  rw [Mat.get_diagonal]
  by_cases hkl : k = l
  · subst hkl
    fin_cases a <;> fin_cases b <;> simp [val_place, axisInitial, ExactScalar.zero_eq]
  · rw [if_neg (place_ne hkl), if_neg hkl]

theorem transition_ofField (dt : K) :
    Filter.transition (ExactScalar.ofField dt : α) =
      Mat.ofField (ofAxes fun _ => axisTransition dt) := by
  refine eq_ofAxes ?_
  intro x y
  obtain ⟨a, k⟩ := x
  obtain ⟨b, l⟩ := y
  rw [Filter.transition, Mat.get_ofFn]
  by_cases hkl : k = l
  · subst hkl
    fin_cases a <;> fin_cases b <;>
      simp [val_place, axisTransition, ExactScalar.zero_eq, ExactScalar.one_eq]
    omega
  · rw [if_neg (place_ne hkl), if_neg (val_place_ne (Ne.symm hkl)), if_neg hkl]

variable [IsStrictOrderedRing K]

theorem processNoise_ofField {c : FilterConfig α} {h v : K}
    (hh : c.horizontalNoise = ExactScalar.ofField h) (hv : c.verticalNoise = ExactScalar.ofField v)
    (dt : K) :
    Filter.processNoise c (ExactScalar.ofField dt : α) =
      Mat.ofField (ofAxes fun k => axisNoise dt (if k.val < 2 then h else v)) := by
  refine eq_ofAxes ?_
  intro x y
  obtain ⟨a, k⟩ := x
  obtain ⟨b, l⟩ := y
  have hintensity : Filter.intensity c ((place (a, k)).val % 3) =
      ExactScalar.ofField (if k.val < 2 then h else v) := by
    rw [val_place, Nat.add_mul_mod_self_left, Nat.mod_eq_of_lt k.isLt, Filter.intensity, hh, hv]
    split <;> rfl
  rw [Filter.processNoise, Mat.get_ofFn]
  dsimp only
  rw [hintensity]
  generalize (if k.val < 2 then h else v) = q
  simp only [ExactScalar.mul_ofField, ExactScalar.natCast_eq]
  rw [ExactScalar.div_ofField _ _ (by norm_num), ExactScalar.div_ofField _ _ (by norm_num)]
  by_cases hkl : k = l
  · subst hkl
    fin_cases a <;> fin_cases b <;> simp [val_place, axisNoise]
  · have hfar : ¬ ((place (b, l)).val = (place (a, k)).val + 3 ∨
        (place (a, k)).val = (place (b, l)).val + 3) :=
      fun h => h.elim (val_place_ne (Ne.symm hkl)) (val_place_ne hkl)
    rw [if_neg (place_ne hkl), if_neg hfar, if_neg hkl]

end Filter

end ObstacleTracking
