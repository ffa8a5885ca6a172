import ObstacleTracking.Proofs.Scalar.Field
import ObstacleTracking.Detection.Observation
import ObstacleTracking.Proofs.Geometry.Yaw

/-!
# Turned observations

A detection that is seen from a turned pose is the turned detection. Its size, the number of its
points and its histogram, which is taken in the frame of the sensor, stay as they are.
-/

namespace ObstacleTracking

variable {K : Type} [Field K] [LinearOrder K] [ExactRoots K]

def Detection.turned (r : Yaw K) (d : Detection K) : Detection K :=
  { d with
    cloud := d.cloud.map r.turn
    outline := d.outline.map r.turn
    center := r.turn d.center
    direction := r.turn d.direction }

def Observation.turned (r : Yaw K) (o : Observation K) : Observation K :=
  { o with
    detection := o.detection.turned r
    barycenter := r.turn o.barycenter
    anchor := r.turn o.anchor
    lane := r.turn o.lane
    velocity := r.turn o.velocity }

variable (r : Yaw K)

namespace Detection

@[simp] theorem pointCount_turned (d : Detection K) : (d.turned r).pointCount = d.pointCount :=
  List.length_map ..

theorem move_pose_mul (pose : Pose K) (offset : Vec3 K) (d : Detection K) :
    d.move (Pose.displace (r.pose * pose) (r.turn offset)) =
      (d.move (pose.displace offset)).turned r := by
  unfold move turned
  simp

theorem shift_turned (offset : Vec3 K) (d : Detection K) :
    (d.turned r).shift (r.turn offset) = (d.shift offset).turned r := by
  unfold shift turned
  simp

end Detection

namespace Observation

theorem shift_turned (offset : Vec3 K) (o : Observation K) :
    (o.turned r).shift (r.turn offset) = (o.shift offset).turned r := by
  unfold shift turned
  simp [Detection.shift_turned]

theorem ofDetection_pose_mul (pose : Pose K) (offset : Vec3 K) (bins : Option ℕ)
    (d : Detection K) :
    ofDetection (Pose.displace (r.pose * pose) (r.turn offset)) bins d =
      (ofDetection (pose.displace offset) bins d).turned r := by
  have hbarycenter : ∀ moved : Detection K,
      (Cloud.barycenter? (moved.turned r).cloud).getD (moved.turned r).center =
        r.turn ((Cloud.barycenter? moved.cloud).getD moved.center) := by
    intro moved
    show (Cloud.barycenter? (moved.cloud.map r.turn)).getD (r.turn moved.center) = _
    rw [r.barycenter?_map_turn, Option.getD_map]
  unfold ofDetection turned
  dsimp only
  rw [Detection.move_pose_mul, hbarycenter, Yaw.turn_zero]

end Observation

end ObstacleTracking
