import Mathlib.Analysis.SpecialFunctions.Complex.Arg
import ObstacleTracking.Proofs.Scalar.Exact

/-!
# Exact numbers

The values that machine numbers have, without their rounding: the real numbers, two infinities,
and a value that is not a number. They are an exact scalar type. There is one zero, and the
quotient of a number and zero has the sign of the number.
-/

namespace ObstacleTracking

/-- A real number, an infinity, or not a number. -/
inductive ExactNumber where
  | real (x : ℝ)
  | infinite (negative : Bool)
  | notNumber

namespace ExactNumber

noncomputable section

/-! ### Arithmetic -/

def neg : ExactNumber → ExactNumber
  | real x => real (-x)
  | infinite s => infinite !s
  | notNumber => notNumber

def add : ExactNumber → ExactNumber → ExactNumber
  | real x, real y => real (x + y)
  | real _, infinite s => infinite s
  | infinite s, real _ => infinite s
  | infinite s, infinite t => if s = t then infinite s else notNumber
  | _, _ => notNumber

/-- An infinity, turned round by a negative factor; with zero there is no product. -/
def scaleInfinite (negative : Bool) (x : ℝ) : ExactNumber :=
  if x = 0 then notNumber else infinite (negative ^^ decide (x < 0))

def mul : ExactNumber → ExactNumber → ExactNumber
  | real x, real y => real (x * y)
  | real x, infinite s => scaleInfinite s x
  | infinite s, real x => scaleInfinite s x
  | infinite s, infinite t => infinite (s ^^ t)
  | _, _ => notNumber

def div : ExactNumber → ExactNumber → ExactNumber
  | real x, real y => if y = 0 then scaleInfinite false x else real (x / y)
  | real _, infinite _ => real 0
  | infinite s, real y => infinite (s ^^ decide (y < 0))
  | _, _ => notNumber

/-! ### Order -/

def lt : ExactNumber → ExactNumber → Prop
  | real x, real y => x < y
  | real _, infinite s => s = false
  | infinite s, real _ => s = true
  | infinite s, infinite t => s = true ∧ t = false
  | _, _ => False

def le : ExactNumber → ExactNumber → Prop
  | real x, real y => x ≤ y
  | real _, infinite s => s = false
  | infinite s, real _ => s = true
  | infinite s, infinite t => s = true ∨ t = false
  | _, _ => False

/-! ### Roots and angles -/

def sqrt : ExactNumber → ExactNumber
  | real x => if x < 0 then notNumber else real (Real.sqrt x)
  | infinite false => infinite false
  | _ => notNumber

/-- The angle of a point; an infinite coordinate outweighs a finite one. -/
def atan2 : ExactNumber → ExactNumber → ExactNumber
  | real y, real x => real (Complex.arg ⟨x, y⟩)
  | real _, infinite false => real 0
  | real y, infinite true => real (if y < 0 then -Real.pi else Real.pi)
  | infinite s, real _ => real (if s then -(Real.pi / 2) else Real.pi / 2)
  | infinite s, infinite false => real (if s then -(Real.pi / 4) else Real.pi / 4)
  | infinite s, infinite true => real (if s then -(3 * Real.pi / 4) else 3 * Real.pi / 4)
  | _, _ => notNumber

def isFinite : ExactNumber → Bool
  | real _ => true
  | _ => false

def floorIndex : ExactNumber → ℕ
  | real x => min ⌊x⌋₊ (2 ^ 64 - 1)
  | infinite false => 2 ^ 64 - 1
  | _ => 0

instance scalar : Scalar ExactNumber where
  zero := real 0
  one := real 1
  add := add
  sub a b := add a (neg b)
  mul := mul
  div := div
  neg := neg
  lt := lt
  le := le
  natCast n := real n
  decLt _ _ := Classical.propDecidable _
  decLe _ _ := Classical.propDecidable _
  sqrt := sqrt
  atan2 := atan2
  isFinite := isFinite
  floorIndex := floorIndex

/-! ### Exactness -/

theorem beyond_or_incomparable {a : ExactNumber} (h : Scalar.isFinite a = false) :
    (∀ x : ℝ, real x < a) ∨ (∀ x : ℝ, a ≤ real x) ∨ ¬ a ≤ a := by
  cases a with
  | real x => cases h
  | infinite s =>
    cases s with
    | false => exact Or.inl fun _ => rfl
    | true => exact Or.inr (Or.inl fun _ => rfl)
  | notNumber => exact Or.inr (Or.inr id)

/-- The finite exact numbers are the real numbers. -/
instance exactScalar : ExactScalar ℝ ExactNumber where
  ofField := real
  value
    | real x => x
    | _ => 0
  value_ofField _ := rfl
  isFinite_ofField _ := rfl
  ofField_value {a} h := by
    cases a with
    | real x => rfl
    | infinite s => cases h
    | notNumber => cases h
  zero_eq := rfl
  one_eq := rfl
  natCast_eq _ := rfl
  add_ofField _ _ := rfl
  sub_ofField x y := congrArg real (sub_eq_add_neg x y).symm
  mul_ofField _ _ := rfl
  neg_ofField _ := rfl
  div_ofField _ _ hy := if_neg hy
  le_ofField _ _ := Iff.rfl
  lt_ofField _ _ := Iff.rfl
  beyond_or_incomparable := beyond_or_incomparable

theorem exists_real_of_fraction {m : ExactNumber} (hlow : 0 ≤ m) (hhigh : m ≤ 1) :
    ∃ x : ℝ, x ≤ 1 ∧ m = real x := by
  cases m with
  | real x => exact ⟨x, hhigh, rfl⟩
  | infinite s =>
    -- an infinite value would have both signs
    have hneg : s = true := hhigh
    have hpos : s = false := hlow
    rw [hneg] at hpos
    cases hpos
  | notNumber => exact absurd hlow id

instance exactRatios : ExactRatios ℝ ExactNumber where
  exists_ratio_lt_iff hlow hhigh := by
    obtain ⟨x, hx, rfl⟩ := exists_real_of_fraction hlow hhigh
    refine ⟨x, hx, ?_⟩
    intro v a
    have hratio : (v : ExactNumber) / ((a : ExactNumber) + 1) = real ((v : ℝ) / ((a : ℝ) + 1)) :=
      if_neg (Nat.cast_add_one_ne_zero a)
    rw [hratio]
    exact Iff.rfl

end

end ExactNumber

end ObstacleTracking
