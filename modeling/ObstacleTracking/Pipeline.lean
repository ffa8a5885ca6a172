import ObstacleTracking.Tracker.Basic

/-!
# Pipelines

A tracker that is fed by a source of sweeps. The source is given by its answers: each pull uses
up one of them, a failure too, and after the last one it has ended. Refused frames are passed
over when a source is drained; a failure of the source ends the run.
-/

namespace ObstacleTracking

/-- The detections of one sweep, when it was made, and where the sensor stood. -/
structure Sweep (α : Type) where
  detections : List (Detection α)
  timestamp : α
  pose : Option (Pose α)

/-- What a source answers when it is asked for the next sweep. -/
inductive SourceAnswer (ε α : Type) where
  | sweep (s : Sweep α)
  | ended
  | failed (e : ε)

/-- Why one pull gave no report. -/
inductive PipelineError (ε α : Type) where
  | source (e : ε)
  | frame (e : FrameError α)

def PipelineError.message {ε : Type} (text : ε → String) : PipelineError ε Float → String
  | .source e => "detection source failed: " ++ text e
  | .frame e => e.message

/-- A tracker, the answers that its source has yet to give, and a lane map for every frame. -/
structure Pipeline (ε α : Type) where
  tracker : Tracker α
  source : List (SourceAnswer ε α)
  lanes : Option (LaneMap α) := none

namespace Pipeline

variable {ε α : Type} [Scalar α]

/-- A pipeline at the start of its source, unless the configuration has a fault. -/
def create (config : Config α) (source : List (SourceAnswer ε α)) :
    Except (ConfigError α) (Pipeline ε α) :=
  (Tracker.create config).map fun tracker => { tracker, source }

/-- The source will give more answers later. -/
def push (p : Pipeline ε α) (answers : List (SourceAnswer ε α)) : Pipeline ε α :=
  { p with source := p.source ++ answers }

/-- One sweep is tracked. -/
def track (solver : Solver α) (lanes : Option (LaneMap α)) (tracker : Tracker α) (s : Sweep α) :
    Except (FrameError α) (Tracker α × FrameReport α) :=
  tracker.step solver s.detections s.timestamp ⟨s.pose, lanes⟩

/-- One pull: the report of the next sweep, or none at the end of the source. -/
def next (solver : Solver α) (p : Pipeline ε α) :
    Except (PipelineError ε α) (Option (FrameReport α)) × Pipeline ε α :=
  match p.source with
  | [] => (.ok none, p)
  | .ended :: rest => (.ok none, { p with source := rest })
  | .failed e :: rest => (.error (.source e), { p with source := rest })
  | .sweep s :: rest =>
    match track solver p.lanes p.tracker s with
    | .error e => (.error (.frame e), { p with source := rest })
    | .ok (tracker, report) => (.ok (some report), { p with tracker, source := rest })

/-- What a run to the end of a source leaves behind. -/
structure Run (ε α : Type) where
  /-- The reports of the accepted frames in order. -/
  reports : List (FrameReport α)
  /-- The failure of the source that ended the run. -/
  failure : Option ε
  tracker : Tracker α
  /-- The answers that were not used up. -/
  left : List (SourceAnswer ε α)

/-- A tracker run over the answers of a source up to its first end or failure. -/
def drain (solver : Solver α) (lanes : Option (LaneMap α)) (tracker : Tracker α) :
    List (SourceAnswer ε α) → Run ε α
  | [] => ⟨[], none, tracker, []⟩
  | .ended :: rest => ⟨[], none, tracker, rest⟩
  | .failed e :: rest => ⟨[], some e, tracker, rest⟩
  | .sweep s :: rest =>
    match track solver lanes tracker s with
    | .error _ => drain solver lanes tracker rest
    | .ok (tracker, report) =>
      let run := drain solver lanes tracker rest
      { run with reports := report :: run.reports }

/-- The source is drained: the run, and the pipeline after it. -/
def runToEnd (solver : Solver α) (p : Pipeline ε α) : Run ε α × Pipeline ε α :=
  let run := drain solver p.lanes p.tracker p.source
  (run, { p with tracker := run.tracker, source := run.left })

end Pipeline

end ObstacleTracking
