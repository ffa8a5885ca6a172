import Mathlib.Algebra.BigOperators.Fin
import Mathlib.Algebra.Order.Field.Basic
import ObstacleTracking.Linear.Matrix

/-!
# Exact scalars

A scalar type computes exactly if its finite values are the elements of an ordered field and the
operations on them are those of the field. What is not finite is left open, except that it lies
above all finite values, or below all of them, or does not compare even with itself. Division by
zero is left open too. Results on what the library computes without rounding are stated over
exact scalars, with matrices and time steps that may hold values which are not finite.
-/

namespace ObstacleTracking

/-- A scalar type whose finite values are the elements of an ordered field. -/
class ExactScalar (K : outParam Type) (α : Type) [Field K] [LinearOrder K] [Scalar α] where
  ofField : K → α
  value : α → K
  value_ofField (x : K) : value (ofField x) = x
  isFinite_ofField (x : K) : Scalar.isFinite (ofField x) = true
  ofField_value {a : α} : Scalar.isFinite a = true → ofField (value a) = a
  zero_eq : (0 : α) = ofField 0
  one_eq : (1 : α) = ofField 1
  natCast_eq (n : ℕ) : (n : α) = ofField n
  add_ofField (x y : K) : ofField x + ofField y = ofField (x + y)
  sub_ofField (x y : K) : ofField x - ofField y = ofField (x - y)
  mul_ofField (x y : K) : ofField x * ofField y = ofField (x * y)
  neg_ofField (x : K) : -ofField x = ofField (-x)
  div_ofField (x y : K) : y ≠ 0 → ofField x / ofField y = ofField (x / y)
  le_ofField (x y : K) : ofField x ≤ ofField y ↔ x ≤ y
  lt_ofField (x y : K) : ofField x < ofField y ↔ x < y
  /-- Positively infinite, negatively infinite, or not a number. -/
  beyond_or_incomparable {a : α} : Scalar.isFinite a = false →
    (∀ x, ofField x < a) ∨ (∀ x, a ≤ ofField x) ∨ ¬ a ≤ a

namespace ExactScalar

attribute [simp] value_ofField isFinite_ofField add_ofField sub_ofField mul_ofField neg_ofField
  le_ofField lt_ofField

variable {K α : Type} [Field K] [LinearOrder K] [Scalar α] [ExactScalar K α]

/-! ### Finite values -/

theorem exists_of_isFinite {a : α} (h : Scalar.isFinite a = true) : ∃ x : K, a = ofField x :=
  ⟨value a, (ofField_value h).symm⟩

theorem exists_pos {a : α} (h : Scalar.isFinite a = true) (h0 : 0 < a) :
    ∃ x : K, 0 < x ∧ a = ofField x := by
  obtain ⟨x, rfl⟩ := exists_of_isFinite h
  rw [zero_eq, lt_ofField] at h0
  exact ⟨x, h0, rfl⟩

/-! ### Sums -/

theorem sumFirstToLast_ofField {n : ℕ} (f : Fin n → K) :
    sumFirstToLast n (fun i => (ofField (f i) : α)) = ofField (∑ i, f i) := by
  induction n with
  | zero =>
    rw [Fin.sum_univ_zero]
    exact zero_eq
  | succ n ih =>
    cases n with
    | zero =>
      rw [Fin.sum_univ_one]
      rfl
    | succ n =>
      rw [sumFirstToLast, ih fun i => f i.castSucc, add_ofField, ← Fin.sum_univ_castSucc]

/-! ### Sign and size -/

theorem maxNum_ofField (x y : K) : Scalar.maxNum (ofField x : α) (ofField y) = ofField (max x y) := by
  unfold Scalar.maxNum
  by_cases h : x ≤ y
  · rw [if_pos ((le_ofField x y).mpr h), max_eq_right h]
  · have h' : ¬ (ofField x : α) ≤ ofField y := fun hle => h ((le_ofField x y).mp hle)
    rw [if_neg h', if_pos ((le_ofField x x).mpr le_rfl), max_eq_left (le_of_not_ge h)]

/-- A value with an upper bound counts as zero if it is infinite or not a number. -/
theorem exists_nonneg_maxNum {a : α} {m : K} (h : ¬ (ofField m : α) < a) :
    ∃ x : K, 0 ≤ x ∧ Scalar.maxNum a 0 = ofField x := by
  by_cases hfinite : Scalar.isFinite a = true
  · obtain ⟨y, rfl⟩ := exists_of_isFinite hfinite
    refine ⟨max y 0, le_max_right y 0, ?_⟩
    rw [zero_eq, maxNum_ofField]
  · refine ⟨0, le_rfl, ?_⟩
    rw [← zero_eq]
    unfold Scalar.maxNum
    obtain hbeyond | hbelow | hincomparable :=
      beyond_or_incomparable (Bool.eq_false_iff.mpr hfinite)
    · exact absurd (hbeyond m) h
    · have hle : a ≤ 0 := by
        rw [zero_eq]
        exact hbelow 0
      rw [if_pos hle]
    · rw [if_neg hincomparable]
      exact ite_self 0

variable [IsStrictOrderedRing K]

theorem abs_ofField (x : K) : Scalar.abs (ofField x : α) = ofField |x| := by
  unfold Scalar.abs
  rw [zero_eq]
  by_cases h : x < 0
  · rw [if_pos ((lt_ofField x 0).mpr h), neg_ofField, abs_of_neg h]
  · have h' : ¬ (ofField x : α) < ofField 0 := fun hlt => h ((lt_ofField x 0).mp hlt)
    rw [if_neg h', abs_of_nonneg (le_of_not_gt h)]

theorem ratio_eq (n : ℕ) {d : ℕ} (hd : d ≠ 0) :
    (Scalar.ratio n d : α) = ofField ((n : K) / (d : K)) := by
  unfold Scalar.ratio
  rw [natCast_eq, natCast_eq]
  exact div_ofField _ _ (Nat.cast_ne_zero.mpr hd)

theorem half_eq : (Scalar.half : α) = ofField (1 / 2 : K) := by
  unfold Scalar.half
  rw [ratio_eq 1 two_ne_zero]
  norm_num

end ExactScalar

/-- A scalar type in which parts `v / (a + 1)` compare with fractions as the exact quotients do.
Nothing else of the arithmetic needs to be exact. -/
class ExactRatios (K : outParam Type) (α : Type) [Field K] [LinearOrder K] [Scalar α] : Prop where
  exists_ratio_lt_iff {m : α} : 0 ≤ m → m ≤ 1 → ∃ x : K, x ≤ 1 ∧
    ∀ v a : ℕ, (v : α) / ((a : α) + 1) < m ↔ (v : K) / ((a : K) + 1) < x

end ObstacleTracking
