import ObstacleTracking.Track.Set

/-!
# Reports

Live tracks as they are told to the world: in world coordinates, and only those that are old
enough and were not missed too often.
-/

namespace ObstacleTracking

/-- The current state of one track in world coordinates. -/
@[ext]
structure TrackedObject (α : Type) where
  id : Nat
  kind : ObstacleKind
  state : TrackState
  cloud : Cloud α
  outline : Cloud α
  center : Vec3 α
  anchor : Vec3 α
  direction : Vec3 α
  /-- The angle of the direction in the ground plane. -/
  heading : α
  size : Vec3 α
  velocity : Vec3 α
  velocityUncertainty : Mat 3 3 α
  /-- Seconds since the track was started. -/
  trackingTime : α
  age : UInt32
  visible : UInt32

namespace TrackedObject

variable {α : Type} [Scalar α]

/-- A track whose local coordinates are world coordinates displaced by `offset`. -/
def ofTrack (offset : Vec3 α) (t : Track α) : TrackedObject α :=
  let d := t.current.detection
  { id := t.id
    kind := d.kind
    state := t.state
    cloud := Cloud.shift (-offset) d.cloud
    outline := Cloud.shift (-offset) d.outline
    center := d.center - offset
    anchor := t.current.anchor - offset
    direction := d.direction
    heading := d.direction.heading
    size := d.size
    velocity := t.current.velocity
    velocityUncertainty := t.current.velocityUncertainty
    trackingTime := t.period
    age := t.age
    visible := t.visible }

end TrackedObject

/-- A track is reported if it was not missed too often in a row and is old enough. -/
def Track.isReported {α : Type} (c : LifecycleConfig α) (t : Track α) : Bool :=
  decide (t.invisible ≤ c.reportInvisibleMaximum) && decide (c.reportAgeMinimum ≤ t.age)

def TrackSet.report {α : Type} [Scalar α] (c : LifecycleConfig α) (offset : Vec3 α)
    (s : TrackSet α) : List (TrackedObject α) :=
  (s.tracks.toList.filter (Track.isReported c)).map (TrackedObject.ofTrack offset)

/-- The answer to an accepted frame. -/
structure FrameReport (α : Type) where
  objects : List (TrackedObject α)
  /-- The points of the world at which the lane map was asked, in order. -/
  laneQueries : List (Vec3 α)

end ObstacleTracking
