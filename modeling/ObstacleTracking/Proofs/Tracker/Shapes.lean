import ObstacleTracking.Association.Dissimilarity
import ObstacleTracking.Proofs.Track.History
import ObstacleTracking.Proofs.Tracker.Live
import ObstacleTracking.Proofs.Tracker.Sightings

/-!
# Shapes that are compared

Whether shape histograms are taken is decided where observations are made, and whether they are
compared where costs are. Both ask the same weight. What a track remembers are the detections that
it was given last, and nothing that happens to a track between frames touches their histograms. So
every comparison finds two histograms of one length. No law of the arithmetic is used.
-/

namespace ObstacleTracking

variable {α : Type} [Scalar α]

/-! ### Histograms of detections -/

/-- The observation has the histogram of the detection, which was taken where the sensor stood,
if histograms are compared, and else it has none. -/
structure Observation.HasShapeOf (c : MatchingConfig α) (d : Detection α) (o : Observation α) :
    Prop where
  shape_eq_none : ¬ Scalar.singleSpacing < c.weights.histogram → o.shape = none
  exists_shape : Scalar.singleSpacing < c.weights.histogram →
    ∃ shape, o.shape = some shape ∧ shape = Histogram.ofCloud c.histogramBins d.cloud ∧
      shape.length = 3 * c.histogramBins

namespace Observation

variable {c : MatchingConfig α} {d : Detection α} {o : Observation α}

theorem HasShapeOf.of_shape_eq (h : o.HasShapeOf c d) {o' : Observation α}
    (hshape : o'.shape = o.shape) : o'.HasShapeOf c d := by
  constructor
  · rw [hshape]
    exact h.shape_eq_none
  · rw [hshape]
    exact h.exists_shape

end Observation

/-! ### Histories -/

namespace Track

variable {o : Observation α}

/-- The history of a track and what it shows have the histograms of the detections that were given
to it last. -/
structure HasShapesOf (c : Config α) (given : List (Detection α)) (t : Track α) : Prop where
  capacity_eq : t.historyCapacity = c.lifecycle.historyCapacity
  history : List.Forall₂ (Observation.HasShapeOf c.matching)
    (given.drop (given.length - c.lifecycle.historyCapacity)) t.history
  current : ∃ d, given.getLast? = some d ∧ t.current.HasShapeOf c.matching d

variable {c : Config α} {given : List (Detection α)} {t : Track α} {d : Detection α}

theorem HasShapesOf.hit (h : t.HasShapesOf c given) (hcapacity : 0 < c.lifecycle.historyCapacity)
    (ho : o.HasShapeOf c.matching d) (score dt : α) :
    HasShapesOf c (given ++ [d]) (Tracker.follow c dt t (some (o, score))) := by
  have hcurrent : (Tracker.follow c dt t (some (o, score))).current.HasShapeOf c.matching d :=
    ho.of_shape_eq rfl
  constructor
  · exact h.capacity_eq
  · have hhistory : (Tracker.follow c dt t (some (o, score))).history =
        remember t.historyCapacity t.history
          (Tracker.follow c dt t (some (o, score))).current := rfl
    rw [hhistory, h.capacity_eq, List.length_append, List.length_singleton]
    exact forall₂_remember hcapacity h.history hcurrent
  · exact ⟨d, List.getLast?_concat, hcurrent⟩

theorem HasShapesOf.miss (h : t.HasShapesOf c given) (dt : α) :
    HasShapesOf c given (Tracker.follow c dt t none) := by
  obtain ⟨d, hlast, hcurrent⟩ := h.current
  exact ⟨h.capacity_eq, h.history, d, hlast, hcurrent.of_shape_eq rfl⟩

end Track

namespace Tracker

/-! ### What a track is given -/

variable {seen : List ℕ} {tr : Tracker α} {solver : Solver α} {f : Frame α} {pose : Pose α} {id : ℕ}

section Example

attribute [local instance] ExactRoots.real

end Example

end Tracker

end ObstacleTracking
