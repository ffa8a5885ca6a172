import ObstacleTracking.Association.MachineCosts
import ObstacleTracking.Config.Bundle
import ObstacleTracking.Detection.Segment
import ObstacleTracking.Pipeline
import ObstacleTracking.Proofs.Association.Feasibility
import ObstacleTracking.Proofs.Scalar.ExactNumber
import ObstacleTracking.Scalar.Binary64
import ObstacleTracking.Proofs.Association.PaddedSolve
import ObstacleTracking.Proofs.Association.Choices
import ObstacleTracking.Proofs.Association.Canonical
import ObstacleTracking.Proofs.Association.Blockwise
import ObstacleTracking.Proofs.Association.Agreement
import ObstacleTracking.Proofs.Track.Lookup
import ObstacleTracking.Proofs.Tracker.Updates
import ObstacleTracking.Proofs.Tracker.Accounting
import ObstacleTracking.Proofs.Config.Standard
import ObstacleTracking.Proofs.Tracker.Reachable
import ObstacleTracking.Proofs.Linear.Elimination
import ObstacleTracking.Proofs.Filter.Axes
import ObstacleTracking.Proofs.Filter.Covariance
import ObstacleTracking.Proofs.Track.Run
import ObstacleTracking.Proofs.Track.Visibility
import ObstacleTracking.Proofs.Tracker.Frames
import ObstacleTracking.Proofs.Tracker.Survival
import ObstacleTracking.Proofs.Association.Parts
import ObstacleTracking.Proofs.Association.Places
import ObstacleTracking.Proofs.Tracker.Groups
import ObstacleTracking.Proofs.Tracker.Isolation
import ObstacleTracking.Proofs.Association.Diagonal
import ObstacleTracking.Proofs.Scalar.Field
import ObstacleTracking.Proofs.Association.Standing
import ObstacleTracking.Proofs.Filter.Mean
import ObstacleTracking.Proofs.Track.Standing
import ObstacleTracking.Proofs.Tracker.StaticScene
import ObstacleTracking.Proofs.Detection.Turned
import ObstacleTracking.Proofs.Filter.Turned
import ObstacleTracking.Proofs.Association.Turned
import ObstacleTracking.Proofs.Track.Turned
import ObstacleTracking.Proofs.Tracker.Turned
import ObstacleTracking.Proofs.Filter.Steps
import ObstacleTracking.Proofs.Track.Coasting
import ObstacleTracking.Proofs.Scalar.Shifts
import ObstacleTracking.Proofs.Tracker.Displaced
import ObstacleTracking.Proofs.Geometry.Enclosure
import ObstacleTracking.Proofs.Tracker.Sightings
import ObstacleTracking.Proofs.Tracker.Enclosure
import ObstacleTracking.Proofs.Track.Identity
import ObstacleTracking.Proofs.Scalar.Ratios
import ObstacleTracking.Proofs.Track.Bookkeeping
import ObstacleTracking.Proofs.Tracker.Bookkeeping
import ObstacleTracking.Proofs.Association.Signs
import ObstacleTracking.Proofs.Association.Embedding
import ObstacleTracking.Proofs.Association.Removal
import ObstacleTracking.Proofs.Tracker.Relocated
import ObstacleTracking.Proofs.Tracker.LeftOver
import ObstacleTracking.Proofs.Tracker.Reordered
import ObstacleTracking.Proofs.Linear.Length
import ObstacleTracking.Proofs.Track.Speed
import ObstacleTracking.Proofs.Detection.Histogram
import ObstacleTracking.Proofs.Association.Bounds
import ObstacleTracking.Proofs.Pipeline.Draining
import ObstacleTracking.Proofs.Tracker.Refusal
import ObstacleTracking.Proofs.Tracker.Live
import ObstacleTracking.Proofs.Tracker.Kinematics
import ObstacleTracking.Proofs.Tracker.TrackingTime
import ObstacleTracking.Proofs.Tracker.Corrections
import ObstacleTracking.Proofs.Tracker.Shapes
import ObstacleTracking.Proofs.Config.Records
import ObstacleTracking.Proofs.Config.Complete
import ObstacleTracking.Proofs.Filter.Reachable
import ObstacleTracking.Proofs.Filter.OnLine
import ObstacleTracking.Proofs.Filter.OneAxis
import ObstacleTracking.Proofs.Filter.Decoupled
import ObstacleTracking.Proofs.Filter.Overshoot
import ObstacleTracking.Proofs.Filter.Applied
import ObstacleTracking.Proofs.Association.Connectivity
import ObstacleTracking.Proofs.Association.Locality
import ObstacleTracking.Proofs.Track.History
import ObstacleTracking.Proofs.Geometry.Bounds
import ObstacleTracking.Proofs.Detection.Bins
import ObstacleTracking.Proofs.Geometry.Tight
import ObstacleTracking.Proofs.Tracker.Idle
import ObstacleTracking.Proofs.Association.Boxes
import ObstacleTracking.Proofs.Detection.Outline
import ObstacleTracking.Proofs.Detection.Moved
