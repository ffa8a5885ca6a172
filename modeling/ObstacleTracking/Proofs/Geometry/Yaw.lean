import ObstacleTracking.Proofs.Scalar.Field
import ObstacleTracking.Geometry.OrientedBox
import ObstacleTracking.Proofs.Geometry.Heading
import ObstacleTracking.Proofs.Linear.Lift

/-!
# Turns about the vertical axis

A turn keeps lengths, products and signed areas and commutes with sums, means and unit vectors. So
the box around a turned cloud along a turned direction has the same size, and its middle is turned.
-/

namespace ObstacleTracking

/-- A turn about the vertical axis, given by the cosine and the sine of its angle. -/
structure Yaw (K : Type) [Field K] where
  cos : K
  sin : K
  unit : cos * cos + sin * sin = 1

namespace Yaw

variable {K : Type} [Field K] [LinearOrder K] [ExactRoots K] (r : Yaw K)

def turn (v : Vec3 K) : Vec3 K := ⟨r.cos * v.x - r.sin * v.y, r.sin * v.x + r.cos * v.y, v.z⟩

def turnPlane (v : Vec2 K) : Vec2 K := ⟨r.cos * v.x - r.sin * v.y, r.sin * v.x + r.cos * v.y⟩

/-- The turn as a homogeneous transform. -/
def pose : Pose K :=
  Mat.ofField !![r.cos, -r.sin, 0, 0; r.sin, r.cos, 0, 0; 0, 0, 1, 0; 0, 0, 0, 1]

/-! ### Vectors -/

@[simp] theorem turn_zero : r.turn 0 = 0 := by
  apply Vec3.ext <;> simp [turn]

@[simp] theorem turn_add (v w : Vec3 K) : r.turn (v + w) = r.turn v + r.turn w := by
  apply Vec3.ext <;> simp [turn] <;> ring

@[simp] theorem turn_sub (v w : Vec3 K) : r.turn (v - w) = r.turn v - r.turn w := by
  apply Vec3.ext <;> simp [turn] <;> ring

@[simp] theorem turn_neg (v : Vec3 K) : r.turn (-v) = -r.turn v := by
  apply Vec3.ext <;> simp [turn] <;> ring

@[simp] theorem turn_mul (v : Vec3 K) (a : K) : r.turn (v * a) = r.turn v * a := by
  apply Vec3.ext <;> simp [turn] <;> ring

@[simp] theorem turn_div (v : Vec3 K) (a : K) : r.turn (v / a) = r.turn v / a := by
  apply Vec3.ext <;> simp [turn] <;> ring

@[simp] theorem horizontal_turn (v : Vec3 K) :
    (r.turn v).horizontal = r.turnPlane v.horizontal := rfl

@[simp] theorem leftward_turn (v : Vec3 K) : (r.turn v).leftward = r.turn v.leftward := by
  apply Vec3.ext <;> simp [turn, Vec3.leftward] <;> ring

@[simp] theorem dot_turnPlane (v w : Vec2 K) : (r.turnPlane v).dot (r.turnPlane w) = v.dot w := by
  have h := r.unit
  unfold Vec2.dot turnPlane
  linear_combination (v.x * w.x + v.y * w.y) * h

@[simp] theorem cross_turnPlane (v w : Vec2 K) :
    (r.turnPlane v).cross (r.turnPlane w) = v.cross w := by
  have h := r.unit
  unfold Vec2.cross turnPlane
  linear_combination (v.x * w.y - v.y * w.x) * h

@[simp] theorem norm_turnPlane (v : Vec2 K) : (r.turnPlane v).norm = v.norm := by
  unfold Vec2.norm
  rw [dot_turnPlane]

theorem turnPlane_div (v : Vec2 K) (a : K) : r.turnPlane v / a = r.turnPlane (v / a) := by
  apply Vec2.ext <;> simp [turnPlane] <;> ring

theorem clockwise_turnPlane (v : Vec2 K) :
    (r.turnPlane v).clockwise = r.turnPlane v.clockwise := by
  apply Vec2.ext <;> simp [turnPlane, Vec2.clockwise] <;> ring

@[simp] theorem dot_turn (v w : Vec3 K) : (r.turn v).dot (r.turn w) = v.dot w := by
  have h := r.unit
  unfold Vec3.dot turn
  linear_combination (v.x * w.x + v.y * w.y) * h

@[simp] theorem norm_turn (v : Vec3 K) : (r.turn v).norm = v.norm := by
  unfold Vec3.norm
  rw [dot_turn]

/-! ### Directions -/

@[simp] theorem cosHorizontal_turn (v w : Vec3 K) :
    (r.turn v).cosHorizontal (r.turn w) = v.cosHorizontal w := by
  unfold Vec3.cosHorizontal
  simp

@[simp] theorem unitHorizontal?_turn (v : Vec3 K) :
    (r.turn v).unitHorizontal? = v.unitHorizontal?.map r.turn := by
  unfold Vec3.unitHorizontal?
  dsimp only
  rw [horizontal_turn, norm_turnPlane]
  split
  · rw [Option.map_some, Option.some_inj]
    apply Vec3.ext <;> simp [turn] <;> ring
  · rfl

theorem axis_turn {v : Vec3 K} (h : directionTolerance < v.horizontal.norm) :
    (r.turn v).axis = r.turn v.axis := by
  obtain ⟨u, hu⟩ := Vec3.exists_unitHorizontal? h
  unfold Vec3.axis
  rw [unitHorizontal?_turn, hu]
  rfl

/-! ### Poses -/

theorem get_pose_mul (p : Pose K) (j : Fin 4) :
    (r.pose * p).get 0 j = r.cos * p.get 0 j - r.sin * p.get 1 j ∧
    (r.pose * p).get 1 j = r.sin * p.get 0 j + r.cos * p.get 1 j ∧
    (r.pose * p).get 2 j = p.get 2 j := by
  unfold pose
  simp only [Mat.get_mul, ExactRoots.sum_eq, Fin.sum_univ_four, Mat.get_ofField]
  refine ⟨?_, ?_, ?_⟩
  · simp
    ring
  · simp
  · simp

@[simp] theorem turn_pose_mul (p : Pose K) (v : Vec3 K) :
    Pose.turn (r.pose * p) v = r.turn (p.turn v) := by
  unfold Pose.turn
  apply Vec3.ext <;> simp only [get_pose_mul, turn] <;> ring

@[simp] theorem origin_pose_mul (p : Pose K) : Pose.origin (r.pose * p) = r.turn p.origin := by
  unfold Pose.origin
  apply Vec3.ext <;> simp only [get_pose_mul, turn]

@[simp] theorem turn_pose (v : Vec3 K) : Pose.turn r.pose v = r.turn v := by
  unfold Pose.turn pose
  apply Vec3.ext <;> simp [turn, sub_eq_add_neg]

/-- A displacement that is turned along leads to the turned place. -/
@[simp] theorem move_pose_mul (p : Pose K) (offset v : Vec3 K) :
    (Pose.displace (r.pose * p) (r.turn offset)).move v = r.turn ((p.displace offset).move v) := by
  unfold Pose.move
  simp

/-! ### Clouds -/

@[simp] theorem map_move_pose_mul (p : Pose K) (offset : Vec3 K) (cloud : Cloud K) :
    Cloud.move (Pose.displace (r.pose * p) (r.turn offset)) cloud =
      (Cloud.move (p.displace offset) cloud).map r.turn := by
  unfold Cloud.move
  rw [List.map_map]
  refine List.map_congr_left ?_
  intro v _
  exact r.move_pose_mul p offset v

@[simp] theorem shift_map_turn (offset : Vec3 K) (cloud : Cloud K) :
    Cloud.shift (r.turn offset) (cloud.map r.turn) = (Cloud.shift offset cloud).map r.turn := by
  unfold Cloud.shift
  rw [List.map_map, List.map_map]
  refine List.map_congr_left ?_
  intro v _
  exact (r.turn_add v offset).symm

theorem foldl_add_map_turn (cloud : Cloud K) (sum : Vec3 K) :
    (cloud.map r.turn).foldl (· + ·) (r.turn sum) = r.turn (cloud.foldl (· + ·) sum) := by
  induction cloud generalizing sum with
  | nil => rfl
  | cons v cloud ih => rw [List.map_cons, List.foldl_cons, List.foldl_cons, ← turn_add, ih]

@[simp] theorem barycenter?_map_turn (cloud : Cloud K) :
    Cloud.barycenter? (cloud.map r.turn) = (Cloud.barycenter? cloud).map r.turn := by
  cases cloud with
  | nil => rfl
  | cons v cloud =>
    have hsum := r.foldl_add_map_turn (v :: cloud) 0
    rw [turn_zero] at hsum
    have hmean : ((v :: cloud).map r.turn).foldl (· + ·) 0 /
          (((v :: cloud).map r.turn).length : K) =
        r.turn ((v :: cloud).foldl (· + ·) 0 / ((v :: cloud).length : K)) := by
      rw [hsum, List.length_map, turn_div]
    exact congrArg some hmean

/-! ### Boxes -/

theorem coordinates_turn (axis v : Vec3 K) :
    OrientedBox.coordinates (r.turn axis) (r.turn v) = OrientedBox.coordinates axis v := by
  unfold OrientedBox.coordinates
  rw [leftward_turn, dot_turn, dot_turn]
  rfl

theorem place_turn (axis c : Vec3 K) :
    OrientedBox.place (r.turn axis) c = r.turn (OrientedBox.place axis c) := by
  have hup : r.turn ⟨0, 0, c.z⟩ = ⟨0, 0, c.z⟩ := by
    apply Vec3.ext <;> simp [turn]
  unfold OrientedBox.place
  rw [leftward_turn, turn_add, turn_add, turn_mul, turn_mul, hup]

theorem around?_cons (v : Vec3 K) (cloud : Cloud K) (direction : Vec3 K) :
    OrientedBox.around? (v :: cloud) direction =
      let bounds := Cloud.bounds ((v :: cloud).map (OrientedBox.coordinates direction.axis))
      some ⟨bounds.2 - bounds.1,
        OrientedBox.place direction.axis ((bounds.2 + bounds.1) * (Scalar.half : K))⟩ := rfl

theorem around?_turn (cloud : Cloud K) {direction : Vec3 K}
    (h : directionTolerance < direction.horizontal.norm) :
    OrientedBox.around? (cloud.map r.turn) (r.turn direction) =
      (OrientedBox.around? cloud direction).map fun box => ⟨box.size, r.turn box.center⟩ := by
  cases cloud with
  | nil => rfl
  | cons v cloud =>
    have hcoordinates : ((v :: cloud).map r.turn).map
        (OrientedBox.coordinates (r.turn direction).axis) =
        (v :: cloud).map (OrientedBox.coordinates direction.axis) := by
      rw [List.map_map, r.axis_turn h]
      refine List.map_congr_left ?_
      intro w _
      exact r.coordinates_turn _ w
    rw [List.map_cons, around?_cons, ← List.map_cons, hcoordinates, around?_cons, Option.map_some,
      r.axis_turn h]
    dsimp only
    rw [place_turn]

end Yaw

end ObstacleTracking
