import ObstacleTracking.Association.Assignment
import ObstacleTracking.Association.Dissimilarity
import ObstacleTracking.Track.Basic

/-!
# Matching tracks

The observations of a frame are matched to the tracks that they look like.
-/

namespace ObstacleTracking.Matching

variable {α : Type} [Scalar α]

/-- The dissimilarity of every track, as expected for the frame, and every observation. -/
def costs (w : Weights α) (tracks : Array (Track α)) (observations : Array (Observation α))
    (dt : α) : CostMatrix α :=
  { cols := observations.size
    table := tracks.map fun t =>
      let expected := t.expected
      observations.map fun o => Dissimilarity.total w t.current expected o dt }

/-- The cost of a track and an observation does not depend on any other. -/
theorem entry_costs {w : Weights α} {tracks : Array (Track α)}
    {observations : Array (Observation α)} {i j : Nat} {t : Track α} {o : Observation α}
    (ht : tracks[i]? = some t) (ho : observations[j]? = some o) (dt : α) :
    (costs w tracks observations dt).entry i j =
      Dissimilarity.total w t.current t.expected o dt := by
  unfold costs CostMatrix.entry
  simp [ht, ho]

def run (solver : Solver α) (c : MatchingConfig α) (tracks : Array (Track α))
    (observations : Array (Observation α)) (dt : α) : Assignment × CostMatrix α :=
  let costs := costs c.weights tracks observations dt
  (Assignment.blockwise solver costs c.gate, costs)

end ObstacleTracking.Matching
