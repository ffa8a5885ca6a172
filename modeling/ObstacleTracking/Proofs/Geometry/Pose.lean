import ObstacleTracking.Proofs.Scalar.Field
import ObstacleTracking.Geometry.Pose

/-!
# Products of poses

A pose is linear in directions and affine in points. If its last row is that of a displacement, the
product of another pose with it does what the two do one after the other.
-/

namespace ObstacleTracking.Pose

variable {K : Type} [Field K] [LinearOrder K] [ExactRoots K]

/-- The last row does not mix points with directions. Nothing is asked of the other rows, which may
turn, stretch or flatten. -/
structure IsAffine (p : Pose K) : Prop where
  last_row : ∀ j, p.get 3 j = (Mat.identity : Pose K).get 3 j

variable {a : Pose K}

theorem turn_add (p : Pose K) (v w : Vec3 K) : p.turn (v + w) = p.turn v + p.turn w := by
  apply Vec3.ext <;> simp [turn] <;> ring

theorem get_mul_affine (ha : a.IsAffine) (b : Pose K) (i j : Fin 4) :
    (b * a).get i j = b.get i 0 * a.get 0 j + b.get i 1 * a.get 1 j + b.get i 2 * a.get 2 j +
      if j = 3 then b.get i 3 else 0 := by
  have hlast : a.get 3 j = if 3 = j then 1 else 0 := by
    rw [ha.last_row, Mat.get_identity]
  rw [Mat.get_mul, ExactRoots.sum_eq, Fin.sum_univ_four, hlast, mul_ite, mul_one, mul_zero]
  simp only [eq_comm]

theorem turn_mul (ha : a.IsAffine) (b : Pose K) (v : Vec3 K) :
    turn (b * a) v = b.turn (a.turn v) := by
  apply Vec3.ext <;> simp [turn, get_mul_affine ha] <;> ring

theorem origin_mul (ha : a.IsAffine) (b : Pose K) : origin (b * a) = b.move a.origin := by
  apply Vec3.ext <;> simp [move, turn, origin, get_mul_affine ha]

theorem move_mul (ha : a.IsAffine) (b : Pose K) (v : Vec3 K) :
    move (b * a) v = b.move (a.move v) := by
  unfold move
  rw [turn_mul ha, origin_mul ha, turn_add]
  apply Vec3.ext <;> simp [move, add_assoc]

/-! ### Displacements -/

theorem turn_ofOrigin (t v : Vec3 K) : (ofOrigin t).turn v = v := by
  unfold ofOrigin
  rw [turn_displace]
  apply Vec3.ext <;> simp [turn]

theorem move_ofOrigin (t v : Vec3 K) : (ofOrigin t).move v = v + t := by
  have horigin : (ofOrigin t).origin = t := by
    unfold ofOrigin
    rw [origin_displace]
    apply Vec3.ext <;> simp [origin]
  unfold move
  rw [turn_ofOrigin, horigin]

end ObstacleTracking.Pose
