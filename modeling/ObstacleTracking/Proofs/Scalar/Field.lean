import Mathlib.Analysis.SpecialFunctions.Complex.Arg
import Mathlib.Tactic.Linarith
import ObstacleTracking.Linear.Vec3
import ObstacleTracking.Proofs.Scalar.Exact

/-!
# Fields with exact roots

An ordered field with square roots is an exact scalar type in which every value is finite. Angles
and the rounding down of a quotient are left open.
-/

namespace ObstacleTracking

/-- An ordered field in which what is not negative has a square root. -/
class ExactRoots (K : Type) [Field K] [LinearOrder K] where
  root : K → K
  root_nonneg {x : K} : 0 ≤ x → 0 ≤ root x
  root_mul_self {x : K} : 0 ≤ x → root x * root x = x
  /-- The angle of a point of the plane. -/
  angle : K → K → K
  /-- A natural number near a scalar. -/
  floor : K → ℕ

namespace ExactRoots

instance scalar {K : Type} [Field K] [LinearOrder K] [ExactRoots K] : Scalar K where
  toZero := inferInstance
  toOne := inferInstance
  toAdd := inferInstance
  toSub := inferInstance
  toMul := inferInstance
  toDiv := inferInstance
  toNeg := inferInstance
  toLT := inferInstance
  toLE := inferInstance
  toNatCast := inferInstance
  decLt := inferInstance
  decLe := inferInstance
  sqrt := root
  atan2 := angle
  isFinite _ := true
  floorIndex := floor

/-- Every element of the field is a finite value. -/
instance exactScalar {K : Type} [Field K] [LinearOrder K] [ExactRoots K] : ExactScalar K K where
  ofField := id
  value := id
  value_ofField _ := rfl
  isFinite_ofField _ := rfl
  ofField_value _ := rfl
  zero_eq := rfl
  one_eq := rfl
  natCast_eq _ := rfl
  add_ofField _ _ := rfl
  sub_ofField _ _ := rfl
  mul_ofField _ _ := rfl
  neg_ofField _ := rfl
  div_ofField _ _ _ := rfl
  le_ofField _ _ := Iff.rfl
  lt_ofField _ _ := Iff.rfl
  beyond_or_incomparable h := by cases h

/-- A fraction of the field is itself the bound. -/
instance exactRatios {K : Type} [Field K] [LinearOrder K] [ExactRoots K] : ExactRatios K K where
  exists_ratio_lt_iff {m} _ hle := ⟨m, hle, fun _ _ => Iff.rfl⟩

/-- The real numbers, with the angle of a complex number. -/
@[reducible] noncomputable def real : ExactRoots ℝ where
  root := Real.sqrt
  root_nonneg _ := Real.sqrt_nonneg _
  root_mul_self h := Real.mul_self_sqrt h
  angle y x := Complex.arg ⟨x, y⟩
  floor x := min ⌊x⌋₊ (2 ^ 64 - 1)

variable {K : Type} [Field K] [LinearOrder K] [ExactRoots K]

@[simp] theorem ofField_self (x : K) : (ExactScalar.ofField x : K) = x := rfl

theorem isFinite_mat {m n : ℕ} (a : Mat m n K) : a.isFinite = true := by
  unfold Mat.isFinite
  simp only [Vector.all_eq_true]
  intro i hi j hj
  rfl

theorem sum_eq {n : ℕ} (f : Fin n → K) : sumFirstToLast n f = ∑ i, f i :=
  ExactScalar.sumFirstToLast_ofField f

/-! ### Sign and size -/

theorem minNum_eq (x y : K) : Scalar.minNum x y = min x y := by
  unfold Scalar.minNum
  rw [if_pos (le_refl y), min_def]

theorem maxNum_eq (x y : K) : Scalar.maxNum x y = max x y := ExactScalar.maxNum_ofField x y

theorem lower_eq (x y : K) : Scalar.lower x y = min x y := (min_def x y).symm

theorem upper_eq (x y : K) : Scalar.upper x y = max x y := by
  unfold Scalar.upper
  rw [max_comm, max_def]

/-! ### Roots -/

theorem sqrt_nonneg {x : K} (h : 0 ≤ x) : 0 ≤ Scalar.sqrt x := root_nonneg h

theorem sqrt_mul_self {x : K} (h : 0 ≤ x) : Scalar.sqrt x * Scalar.sqrt x = x := root_mul_self h

@[simp] theorem sqrt_zero : Scalar.sqrt (0 : K) = 0 :=
  mul_self_eq_zero.mp (sqrt_mul_self le_rfl)

variable [IsStrictOrderedRing K]

theorem abs_eq (x : K) : Scalar.abs x = |x| := ExactScalar.abs_ofField x

@[simp] theorem sqrt_one : Scalar.sqrt (1 : K) = 1 := by
  have hsquare := sqrt_mul_self (zero_le_one' K)
  rw [mul_self_eq_one_iff] at hsquare
  rcases hsquare with hone | hneg
  · exact hone
  · have hnonneg := sqrt_nonneg (zero_le_one' K)
    rw [hneg] at hnonneg
    linarith

end ExactRoots

/-! ### Lengths -/

open ExactRoots

variable {K : Type} [Field K] [LinearOrder K] [ExactRoots K]

@[simp] theorem Vec3.norm_zero : (0 : Vec3 K).norm = 0 := by
  unfold norm dot
  simp

@[simp] theorem Vec3.norm_horizontal_zero : (0 : Vec3 K).horizontal.norm = 0 := by
  unfold Vec2.norm Vec2.dot horizontal
  simp

variable [IsStrictOrderedRing K]

theorem Vec2.dot_self_nonneg (v : Vec2 K) : 0 ≤ v.dot v := by
  unfold dot
  exact add_nonneg (mul_self_nonneg v.x) (mul_self_nonneg v.y)

end ObstacleTracking
