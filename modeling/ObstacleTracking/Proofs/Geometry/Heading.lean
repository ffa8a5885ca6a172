import ObstacleTracking.Proofs.Scalar.Field
import ObstacleTracking.Geometry.Heading

/-!
# Unit vectors

A vector whose horizontal part is long enough has a unit vector along it, and this one is long
enough again.
-/

namespace ObstacleTracking

open ExactRoots

variable {K : Type} [Field K] [LinearOrder K] [ExactRoots K] {u v : Vec3 K}

theorem Vec3.exists_unitHorizontal? (h : directionTolerance < v.horizontal.norm) :
    ∃ u, v.unitHorizontal? = some u := by
  unfold unitHorizontal?
  exact ⟨_, if_pos h⟩

variable [IsStrictOrderedRing K]

theorem directionTolerance_pos : (0 : K) < directionTolerance := by
  unfold directionTolerance Scalar.ratio
  norm_num

theorem directionTolerance_lt_one : (directionTolerance : K) < 1 := by
  unfold directionTolerance Scalar.ratio
  norm_num

theorem Vec3.norm_unitHorizontal? (h : v.unitHorizontal? = some u) : u.horizontal.norm = 1 := by
  unfold unitHorizontal? at h
  dsimp only at h
  split at h
  case isTrue hlength =>
    have hne := (directionTolerance_pos.trans hlength).ne'
    have hsquare : v.horizontal.norm * v.horizontal.norm = v.x * v.x + v.y * v.y :=
      sqrt_mul_self v.horizontal.dot_self_nonneg
    have hdot : u.horizontal.dot u.horizontal = 1 := by
      rw [← Option.some_inj.mp h]
      simp only [Vec3.horizontal, Vec2.dot] at hne hsquare ⊢
      rw [div_mul_div_comm, div_mul_div_comm, ← add_div, ← hsquare, div_self (mul_ne_zero hne hne)]
    unfold Vec2.norm
    rw [hdot, sqrt_one]
  case isFalse => cases h

theorem Vec3.isDirected_unitHorizontal? (h : v.unitHorizontal? = some u) :
    directionTolerance < u.horizontal.norm := by
  rw [norm_unitHorizontal? h]
  exact directionTolerance_lt_one

end ObstacleTracking
