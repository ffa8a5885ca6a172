import ObstacleTracking.Association.Matching
import ObstacleTracking.Config.Validity
import ObstacleTracking.Tracker.Frame
import ObstacleTracking.Tracker.Report

/-!
# Trackers

A tracker follows the obstacles of one sensor from frame to frame. It works in a local frame
whose origin is where the sensor stood in the first accepted frame. In every later frame the
tracks are predicted and matched to the observations; a matched track is corrected by its
observation, a missed one coasts, expired ones are dropped, and every observation that is left
starts a track of its own.
-/

namespace ObstacleTracking

/-- What a tracker knows of the frames it has accepted. -/
structure Epoch (α : Type) where
  /-- What is added to world coordinates to make local ones. -/
  offset : Vec3 α
  timestamp : α
  frameCount : Nat

/-- The tracker of one sensor. Before the first accepted frame there is no epoch. -/
structure Tracker (α : Type) where
  config : Config α
  tracks : TrackSet α := {}
  epoch : Option (Epoch α) := none

namespace Tracker

variable {α : Type} [Scalar α]

/-- A tracker without tracks, unless its configuration has a fault. -/
def create (config : Config α) : Except (ConfigError α) (Tracker α) :=
  match config.error? with
  | some e => .error e
  | none => .ok { config }

def frameCount (tr : Tracker α) : Nat := (tr.epoch.map Epoch.frameCount).getD 0

def offset (tr : Tracker α) : Vec3 α := (tr.epoch.map Epoch.offset).getD 0

/-! ### Observation -/

/-- The observations of a frame from the pose of the sensor in the world. -/
def observe (c : MatchingConfig α) (offset : Vec3 α) (pose : Pose α) (lanes : Option (LaneMap α))
    (detections : List (Detection α)) : List (Observation α) :=
  let pose := pose.displace offset
  let heading := pose.turn Vec3.forward
  detections.map fun d =>
    let o := Observation.ofDetection pose c.bins? d
    { o with lane := LaneMap.directionOr lanes heading (o.anchor - offset) }

/-- The points of the world at which a lane map is asked for observations. -/
def laneQueries (offset : Vec3 α) (lanes : Option (LaneMap α))
    (observations : List (Observation α)) : List (Vec3 α) :=
  if lanes.isSome then observations.map fun o => o.anchor - offset else []

/-! ### Update -/

/-- A matched pair: the id of the track, the index of the observation, and its cost. -/
structure Pairing (α : Type) where
  track : Nat
  observation : Nat
  score : α

/-- Observations that are not taken yet, at the places where they came. -/
abbrev Slots (α : Type) := Array (Option (Observation α))

/-- A matched track takes its observation out of its slot. -/
def applyPairing (c : Config α) (dt : α) (state : TrackSet α × Slots α) (p : Pairing α) :
    TrackSet α × Slots α :=
  let (tracks, slots) := state
  let emptied := slots.setIfInBounds p.observation none
  match slots.getD p.observation none with
  | none => (tracks, emptied)
  | some o =>
    (tracks.modify p.track fun t => (t.hit c.filter c.lifecycle o p.score dt).1, emptied)

/-- The pairings of an assignment, with ids in place of the indices of tracks. -/
def pairings (tracks : Array (Track α)) (costs : CostMatrix α) (a : Assignment) :
    List (Pairing α) :=
  a.matched.filterMap fun (i, j) => tracks[i]?.map fun t => ⟨t.id, j, costs.entry i j⟩

/-- The tracks after a frame that is `dt` later than the one before. -/
def advance (solver : Solver α) (c : Config α) (tracks : TrackSet α) (dt : α)
    (observations : List (Observation α)) : TrackSet α :=
  let predicted := tracks.map fun t => t.predict c.filter dt
  let (assignment, costs) :=
    Matching.run solver c.matching predicted.tracks observations.toArray dt
  let missed := assignment.unmatchedTracks.filterMap fun i => predicted.tracks[i]?.map Track.id
  let slots : Slots α := (observations.map some).toArray
  let (updated, slots) :=
    (pairings predicted.tracks costs assignment).foldl (applyPairing c dt) (predicted, slots)
  let coasted := missed.foldl (fun s id => s.modify id fun t => t.miss c.filter dt) updated
  let (kept, _) := coasted.dropExpired c.lifecycle
  let left := assignment.unmatchedDetections.filterMap fun j => slots.getD j none
  (kept.create c.filter c.lifecycle.historyCapacity left).1

/-! ### Frames -/

/-- The epoch after an accepted frame; the first one fixes the local frame. -/
def nextEpoch (epoch : Option (Epoch α)) (pose : Pose α) (timestamp : α) : Epoch α :=
  match epoch with
  | none => ⟨-pose.origin, timestamp, 1⟩
  | some e => { e with timestamp, frameCount := e.frameCount + 1 }

/-- The tracker after a frame, and the objects it reports, unless the frame is refused. -/
def step (solver : Solver α) (tr : Tracker α) (detections : List (Detection α)) (timestamp : α)
    (options : FrameOptions α) : Except (FrameError α) (Tracker α × FrameReport α) :=
  (options.accept timestamp).map fun pose =>
    let epoch := nextEpoch tr.epoch pose timestamp
    let observations := observe tr.config.matching epoch.offset pose options.lanes detections
    let tracks := match tr.epoch with
      | none => (tr.tracks.create tr.config.filter tr.config.lifecycle.historyCapacity
          observations).1
      | some e => advance solver tr.config tr.tracks (timestamp - e.timestamp) observations
    ({ tr with tracks, epoch := some epoch },
      { objects := tracks.report tr.config.lifecycle epoch.offset
        laneQueries := laneQueries epoch.offset options.lanes observations })

end Tracker

end ObstacleTracking
