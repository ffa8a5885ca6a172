import ObstacleTracking.Proofs.Geometry.Pose
import ObstacleTracking.Geometry.Cloud

/-!
# Moved clouds

Displacements of a cloud add up, and moves go on from one another. A cloud that is moved into a
local frame and out of it again stands where the pose puts it. The mean of the points of a cloud is
moved with them, whatever the pose turns and stretches.
-/

namespace ObstacleTracking.Cloud

variable {K : Type} [Field K] [LinearOrder K] [ExactRoots K]

theorem shift_shift (u v : Vec3 K) (cloud : Cloud K) :
    shift v (shift u cloud) = shift (u + v) cloud := by
  unfold shift
  rw [List.map_map]
  refine List.map_congr_left ?_
  intro p _
  apply Vec3.ext <;> simp [add_assoc]

theorem shift_sub_self (v : Vec3 K) (cloud : Cloud K) : shift (v - v) cloud = cloud := by
  unfold shift
  refine (List.map_congr_left ?_).trans (List.map_id cloud)
  intro p _
  apply Vec3.ext <;> simp

theorem shift_sub_shift_sub (u v w : Vec3 K) (cloud : Cloud K) :
    shift (w - v) (shift (v - u) cloud) = shift (w - u) cloud := by
  rw [shift_shift]
  congr 1
  apply Vec3.ext <;> simp

theorem shift_move_displace (pose : Pose K) (offset : Vec3 K) (cloud : Cloud K) :
    shift (-offset) (move (pose.displace offset) cloud) = move pose cloud := by
  unfold shift move
  rw [List.map_map]
  refine List.map_congr_left ?_
  intro p _
  apply Vec3.ext <;> simp [Pose.move, add_assoc]

theorem move_move {a : Pose K} (ha : a.IsAffine) (b : Pose K) (cloud : Cloud K) :
    move b (move a cloud) = move (b * a) cloud := by
  unfold move
  rw [List.map_map]
  exact List.map_congr_left fun v _ => (Pose.move_mul ha b v).symm

theorem move_ofOrigin (t : Vec3 K) (cloud : Cloud K) : move (Pose.ofOrigin t) cloud = shift t cloud :=
  List.map_congr_left fun v _ => Pose.move_ofOrigin t v

theorem move_ne_nil (p : Pose K) {cloud : Cloud K} (h : cloud ≠ []) : move p cloud ≠ [] := by
  unfold move
  rw [Ne, List.map_eq_nil_iff]
  exact h

/-! ### Means -/

def mean (cloud : Cloud K) : Vec3 K where
  x := (cloud.map Vec3.x).sum / (cloud.length : K)
  y := (cloud.map Vec3.y).sum / (cloud.length : K)
  z := (cloud.map Vec3.z).sum / (cloud.length : K)

theorem foldl_add_eq (v : Vec3 K) (cloud : Cloud K) :
    cloud.foldl (· + ·) v = v + ⟨(cloud.map Vec3.x).sum, (cloud.map Vec3.y).sum,
      (cloud.map Vec3.z).sum⟩ := by
  induction cloud generalizing v with
  | nil => apply Vec3.ext <;> simp
  | cons p cloud ih =>
    rw [List.foldl_cons, ih]
    apply Vec3.ext <;> simp [add_assoc]

theorem barycenter?_eq {cloud : Cloud K} (h : cloud ≠ []) :
    barycenter? cloud = some (mean cloud) := by
  cases cloud with
  | nil => exact absurd rfl h
  | cons p cloud =>
    unfold barycenter?
    dsimp only
    rw [foldl_add_eq]
    congr 1
    apply Vec3.ext <;> simp [mean]

variable [IsStrictOrderedRing K]

theorem mean_move {cloud : Cloud K} (h : cloud ≠ []) (p : Pose K) :
    mean (move p cloud) = p.move (mean cloud) := by
  -- this is where the order counts: in it a number of points is not zero
  have hlength : (cloud.length : K) ≠ 0 := by
    rw [Nat.cast_ne_zero]
    exact fun hzero => h (List.length_eq_zero_iff.mp hzero)
  have hcoordinate : ∀ i, (cloud.map fun v =>
        p.get i 0 * v.x + p.get i 1 * v.y + p.get i 2 * v.z + p.get i 3).sum / (cloud.length : K) =
      p.get i 0 * (mean cloud).x + p.get i 1 * (mean cloud).y + p.get i 2 * (mean cloud).z +
        p.get i 3 := by
    intro i
    have hsum : (cloud.map fun v =>
          p.get i 0 * v.x + p.get i 1 * v.y + p.get i 2 * v.z + p.get i 3).sum =
        p.get i 0 * (cloud.map Vec3.x).sum + p.get i 1 * (cloud.map Vec3.y).sum +
          p.get i 2 * (cloud.map Vec3.z).sum + cloud.length * p.get i 3 := by
      rw [List.sum_map_add, List.sum_map_add, List.sum_map_add, List.sum_map_mul_left,
        List.sum_map_mul_left, List.sum_map_mul_left, List.map_const', List.sum_replicate,
        nsmul_eq_mul]
    rw [hsum, add_div, mul_div_cancel_left₀ _ hlength]
    unfold mean
    ring
  unfold mean
  rw [length_move]
  unfold move
  simp only [List.map_map]
  exact Vec3.ext (hcoordinate 0) (hcoordinate 1) (hcoordinate 2)

theorem mean_shift {cloud : Cloud K} (h : cloud ≠ []) (v : Vec3 K) :
    mean (shift v cloud) = mean cloud + v := by
  rw [← move_ofOrigin, mean_move h, Pose.move_ofOrigin]

theorem barycenter?_move (p : Pose K) (cloud : Cloud K) :
    barycenter? (move p cloud) = (barycenter? cloud).map p.move := by
  by_cases h : cloud = []
  · subst h
    rfl
  · rw [barycenter?_eq h, barycenter?_eq (move_ne_nil p h), mean_move h, Option.map_some]

end ObstacleTracking.Cloud
