import ObstacleTracking.Geometry.Pose
import ObstacleTracking.Tracker.Lane

/-!
# Frames

What comes with the detections of one sweep, and why a frame may be refused. A refused frame
leaves the tracker as it was.
-/

namespace ObstacleTracking

/-- What a tracker needs to know about a frame besides its detections. -/
structure FrameOptions (α : Type) where
  /-- Where the sensor stood in the world. -/
  pose : Option (Pose α)
  lanes : Option (LaneMap α)

/-- Why a frame is refused. -/
inductive FrameError (α : Type) where
  | missingPose (timestamp : α)
  /-- Some entry of the pose is not a finite number. -/
  | invalidPose (timestamp : α)
  /-- The timestamp is not a finite number. -/
  | invalidTimestamp (timestamp : α)

/-- The pose of a frame that is accepted. The timestamp is checked first, then whether there is
a pose, then the pose. -/
def FrameOptions.accept {α : Type} [Scalar α] (options : FrameOptions α) (timestamp : α) :
    Except (FrameError α) (Pose α) :=
  if Scalar.isFinite timestamp then
    match options.pose with
    | none => .error (.missingPose timestamp)
    | some pose => if pose.isFinite then .ok pose else .error (.invalidPose timestamp)
  else .error (.invalidTimestamp timestamp)

/-- A frame is accepted exactly when its time is finite and it has a pose that is finite. -/
theorem FrameOptions.accept_eq_ok_iff {α : Type} [Scalar α] {options : FrameOptions α}
    {timestamp : α} {pose : Pose α} :
    options.accept timestamp = .ok pose ↔
      Scalar.isFinite timestamp = true ∧ options.pose = some pose ∧ pose.isFinite = true := by
  unfold accept
  split
  case isTrue ht =>
    cases hp : options.pose with
    | none => simp
    | some p =>
      by_cases hf : p.isFinite = true
      · constructor
        · intro h
          cases (show p = pose by simpa [hf] using h)
          exact ⟨ht, rfl, hf⟩
        · rintro ⟨_, h, _⟩
          cases h
          simp [hf]
      · simp only [hf, if_false, reduceCtorEq, false_iff, not_and]
        rintro _ h
        cases h
        exact hf
  case isFalse ht => simp [ht]

/-! ### Texts -/

def FrameError.message : FrameError Float → String
  | .missingPose t => "sensor pose is missing for frame at " ++ DigitStyle.plain.text t
  | .invalidPose t => "sensor pose for frame at " ++ DigitStyle.plain.text t ++ " is not finite"
  | .invalidTimestamp t => "frame timestamp " ++ DigitStyle.plain.text t ++ " is not finite"

def bracketed (items : List String) : String := "[" ++ ", ".intercalate items ++ "]"

/-- A pose in words: its columns from first to last. -/
def Pose.describe (pose : Pose Float) : String :=
  bracketed (pose.transpose.rows.toList.map fun column =>
    bracketed (column.toList.map DigitStyle.marked.text))

def FrameOptions.describe (options : FrameOptions Float) : String :=
  let pose := match options.pose with
    | none => "None"
    | some pose => "Some(" ++ pose.describe ++ ")"
  let lanes := if options.lanes.isSome then "true" else "false"
  "TrackerOptions \x7b sensor_to_world: " ++ pose ++ ", lane_directions: " ++ lanes ++ " \x7d"

end ObstacleTracking
