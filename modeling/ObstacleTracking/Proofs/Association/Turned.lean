import ObstacleTracking.Proofs.Scalar.Field
import ObstacleTracking.Association.Dissimilarity
import ObstacleTracking.Proofs.Detection.Turned
import ObstacleTracking.Proofs.Filter.Turned

/-!
# Costs and turns

Every term of the dissimilarity is made of lengths, products and signed areas of horizontal
vectors, of sizes, counts and histograms. So it is the same when all vectors are turned.
-/

namespace ObstacleTracking.Dissimilarity

variable {K : Type} [Field K] [LinearOrder K] [ExactRoots K] (r : Yaw K)

theorem deviation_turned (motion difference : Vec2 K) :
    deviation (r.turnPlane motion) (r.turnPlane difference) = deviation motion difference := by
  unfold deviation
  dsimp only
  rw [r.norm_turnPlane, r.turnPlane_div, r.clockwise_turnPlane]
  simp

theorem location_turned (last o : Observation K) (expected : MotionState K) :
    location (last.turned r) (expected.turned r) (o.turned r) = location last expected o := by
  unfold location Observation.turned
  dsimp only
  rw [MotionState.position_turned, ← r.turn_sub, r.horizontal_turn, r.horizontal_turn,
    deviation_turned]

theorem direction_turned (last o : Observation K) (expected : MotionState K) (dt : K) :
    direction (last.turned r) (expected.turned r) (o.turned r) dt =
      direction last expected o dt := by
  unfold direction Observation.turned
  dsimp only
  rw [MotionState.velocity_turned, ← r.turn_sub, ← r.turn_mul, r.unitHorizontal?_turn,
    r.unitHorizontal?_turn, Option.isNone_map, Option.isNone_map, r.cosHorizontal_turn]

theorem boxSize_turned (last o : Observation K) :
    boxSize (last.turned r) (o.turned r) = boxSize last o := by
  unfold boxSize boxChange Observation.turned Detection.turned
  simp

theorem pointCount_turned (last o : Observation K) :
    pointCount (last.turned r) (o.turned r) = pointCount last o := by
  unfold pointCount Observation.pointCount Observation.turned
  simp

theorem total_turned (w : Weights K) (last o : Observation K) (expected : MotionState K) (dt : K) :
    total w (last.turned r) (expected.turned r) (o.turned r) dt = total w last expected o dt := by
  have hshape : shape (last.turned r) (o.turned r) = shape last o := rfl
  unfold total
  rw [location_turned, direction_turned, boxSize_turned, pointCount_turned, hshape]

end ObstacleTracking.Dissimilarity
