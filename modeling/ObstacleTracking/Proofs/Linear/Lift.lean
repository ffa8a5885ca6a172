import Mathlib.Data.Matrix.Mul
import ObstacleTracking.Proofs.Scalar.Exact

/-!
# Matrices of finite values

A matrix of field elements as a matrix of exact scalars. The operations on the latter are those
of the former.
-/

namespace ObstacleTracking

namespace Mat

variable {K α : Type} [Field K] [LinearOrder K] [Scalar α] [ExactScalar K α] {m n k : ℕ}

/-- The matrix of scalars whose values are the entries of a matrix over the field. -/
def ofField (a : Matrix (Fin m) (Fin n) K) : Mat m n α := ofFn fun i j => ExactScalar.ofField (a i j)

@[simp] theorem get_ofField (a : Matrix (Fin m) (Fin n) K) (i : Fin m) (j : Fin n) :
    (ofField a : Mat m n α).get i j = ExactScalar.ofField (a i j) :=
  get_ofFn _ i j

theorem eq_ofField {a : Mat m n α} {b : Matrix (Fin m) (Fin n) K}
    (h : ∀ i j, a.get i j = ExactScalar.ofField (b i j)) : a = ofField b := by
  refine ext_get ?_
  intro i j
  rw [h, get_ofField]

theorem ofField_transpose (a : Matrix (Fin m) (Fin n) K) :
    (ofField a : Mat m n α).transpose = ofField a.transpose := by
  refine eq_ofField ?_
  intro i j
  rw [get_transpose, get_ofField, Matrix.transpose_apply]

theorem ofField_one : (identity : Mat n n α) = ofField (1 : Matrix (Fin n) (Fin n) K) := by
  refine eq_ofField ?_
  intro i j
  rw [get_identity, Matrix.one_apply]
  by_cases h : i = j
  · rw [if_pos h, if_pos h]
    exact ExactScalar.one_eq
  · rw [if_neg h, if_neg h]
    exact ExactScalar.zero_eq

theorem ofField_add (a b : Matrix (Fin m) (Fin n) K) :
    (ofField a + ofField b : Mat m n α) = ofField (a + b) := by
  refine eq_ofField ?_
  intro i j
  rw [get_add, get_ofField, get_ofField, ExactScalar.add_ofField, Matrix.add_apply]

theorem ofField_sub (a b : Matrix (Fin m) (Fin n) K) :
    (ofField a - ofField b : Mat m n α) = ofField (a - b) := by
  refine eq_ofField ?_
  intro i j
  rw [get_sub, get_ofField, get_ofField, ExactScalar.sub_ofField, Matrix.sub_apply]

theorem ofField_scale (a : Matrix (Fin m) (Fin n) K) (x : K) :
    (ofField a : Mat m n α) * (ExactScalar.ofField x : α) = (ofField (x • a) : Mat m n α) := by
  refine eq_ofField ?_
  intro i j
  rw [get_scale, get_ofField, ExactScalar.mul_ofField, Matrix.smul_apply, smul_eq_mul, mul_comm]

theorem ofField_mul (a : Matrix (Fin m) (Fin n) K) (b : Matrix (Fin n) (Fin k) K) :
    (ofField a : Mat m n α) * (ofField b : Mat n k α) = (ofField (a * b) : Mat m k α) := by
  refine eq_ofField ?_
  intro i j
  have hterm : ∀ l, (ofField a : Mat m n α).get i l * (ofField b : Mat n k α).get l j =
      ExactScalar.ofField (a i l * b l j) := by
    intro l
    rw [get_ofField, get_ofField, ExactScalar.mul_ofField]
  rw [get_mul, funext hterm, ExactScalar.sumFirstToLast_ofField, Matrix.mul_apply]

end Mat

end ObstacleTracking
