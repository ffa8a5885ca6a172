import ObstacleTracking.Decimal.Text
import ObstacleTracking.Linear.Vec3

/-!
# Lane directions

A map that says which way the nearest lane runs at a point of the world. A lookup may fail, and
then the tracker goes on with the heading of the sensor.
-/

namespace ObstacleTracking

/-- Why there is no lane direction at a point. -/
inductive LaneError (α : Type) where
  | noLaneNearby (point : Vec3 α)
  | unavailable (reason : String)

def LaneError.message : LaneError Float → String
  | .noLaneNearby p =>
    "no lane found near (" ++ ", ".intercalate (p.toList.map (fixedText 2)) ++ ")"
  | .unavailable reason => "lane direction service unavailable: " ++ reason

/-- The direction of the lane nearest to a point of the world. -/
abbrev LaneMap (α : Type) := Vec3 α → Except (LaneError α) (Vec3 α)

/-- The lane direction at a point, or another direction where the map has none. -/
def LaneMap.directionOr {α : Type} (lanes : Option (LaneMap α)) (heading point : Vec3 α) :
    Vec3 α :=
  match lanes with
  | none => heading
  | some lookup =>
    match lookup point with
    | .ok direction => direction
    | .error _ => heading

end ObstacleTracking
