import ObstacleTracking.Proofs.Association.Parts
import ObstacleTracking.Proofs.Association.Places
import ObstacleTracking.Proofs.Tracker.Frames

/-!
# Groups that do not interact

The detections of every frame are split into two groups, and every track belongs to the group of
the detection that started it. If no gated pair joins a track to a detection of the other group, a
tracker that is fed one group alone has the tracks of that group and reports them, apart from ids.
-/

namespace ObstacleTracking

/-- The track without its id. -/
def Track.anonymous {α : Type} (t : Track α) : Track α := { t with id := 0 }

/-- The object without its id. -/
def TrackedObject.anonymous {α : Type} (o : TrackedObject α) : TrackedObject α := { o with id := 0 }

namespace Tracker

variable {α : Type} [Scalar α]

/-! ### Frames and tracks in two groups -/

/-- A frame whose detections are labelled by their group. -/
structure SplitFrame (α : Type) where
  detections : List (Bool × Detection α)
  timestamp : α
  options : FrameOptions α

def SplitFrame.whole (f : SplitFrame α) : Frame α :=
  ⟨f.detections.map Prod.snd, f.timestamp, f.options⟩

/-- The frame with the detections of one group only. -/
def SplitFrame.part (g : Bool) (f : SplitFrame α) : Frame α :=
  ⟨(f.detections.filter fun d => d.1 == g).map Prod.snd, f.timestamp, f.options⟩

/-- A tracker that is fed whole frames, and the groups of all ids that it has issued, from the
first on. -/
structure Split (α : Type) where
  tracker : Tracker α
  groups : List Bool

namespace Split

/-- The group of an issued id; the first one is one. -/
def groupOf (s : Split α) : ℕ → Option Bool
  | 0 => none
  | n + 1 => s.groups[n]?

/-- The live tracks of a group, in the order in which they were started. -/
def tracksOf (s : Split α) (g : Bool) : List (Track α) :=
  s.tracker.tracks.tracks.toList.filter fun t => s.groupOf t.id == some g

/-- The observations of a whole frame that is accepted with a pose. -/
def observed (s : Split α) (f : SplitFrame α) (pose : Pose α) : List (Observation α) :=
  s.tracker.observed f.whole.detections f.timestamp pose f.options.lanes

/-- What is matched in a whole frame, and at which costs. -/
def assigned (solver : Solver α) (s : Split α) (f : SplitFrame α) (pose : Pose α) :
    Assignment × CostMatrix α :=
  s.tracker.assigned solver (s.tracker.elapsed f.timestamp) (s.observed f pose)

/-- The whole frame is fed, and tracks that it starts belong to the groups of their detections. -/
def feed (solver : Solver α) (s : Split α) (f : SplitFrame α) : Split α where
  tracker := (s.tracker.feed solver f.whole).1
  groups :=
    match f.options.accept f.timestamp with
    | .error _ => s.groups
    | .ok pose => s.groups ++ (s.assigned solver f pose).1.unmatchedDetections.filterMap fun j =>
        f.detections[j]?.map Prod.fst

def feedAll (solver : Solver α) (s : Split α) (frames : List (SplitFrame α)) : Split α :=
  frames.foldl (feed solver) s

/-- No gated pair of a frame joins a track to a detection of the other group. -/
def IsApart (solver : Solver α) (s : Split α) (f : SplitFrame α) : Prop :=
  ∀ pose, f.options.accept f.timestamp = .ok pose → ∀ i t j d,
    s.tracker.tracks.tracks[i]? = some t → f.detections[j]? = some d →
    (s.assigned solver f pose).2.isGated s.tracker.config.matching.gate i j = true →
    s.groupOf t.id = some d.1

/-- No gated pair joins the groups in any of some frames. -/
def StaysApart (solver : Solver α) : Split α → List (SplitFrame α) → Prop
  | _, [] => True
  | s, f :: frames => s.IsApart solver f ∧ StaysApart solver (s.feed solver f) frames

/-- The objects of a group in the answers to whole frames, without their ids. -/
def answersOf (solver : Solver α) (g : Bool) :
    Split α → List (SplitFrame α) → List (Except (FrameError α) (List (TrackedObject α)))
  | _, [] => []
  | s, f :: frames =>
    let s' := s.feed solver f
    ((s.tracker.feed solver f.whole).2.map fun report =>
      (report.objects.filter fun o => s'.groupOf o.id == some g).map TrackedObject.anonymous) ::
        answersOf solver g s' frames

/-- One group of a split tracker is what another tracker follows, apart from ids. -/
structure Mirrors (s : Split α) (g : Bool) (tr : Tracker α) : Prop where
  kept : ∃ seen, Kept seen s.tracker
  kept_part : ∃ seen, Kept seen tr
  config_eq : tr.config = s.tracker.config
  epoch_eq : tr.epoch = s.tracker.epoch
  length_groups : s.groups.length = s.tracker.tracks.lastId
  tracks_eq : (s.tracksOf g).map Track.anonymous =
    tr.tracks.tracks.toList.map Track.anonymous

/-! ### Places in the whole -/

/-- Which of the live tracks belong to a group. -/
def mask (s : Split α) (g : Bool) : List Bool :=
  s.tracker.tracks.tracks.toList.map fun t => s.groupOf t.id == some g

end Split

/-- Which detections of a frame belong to a group. -/
def SplitFrame.mask (f : SplitFrame α) (g : Bool) : List Bool :=
  f.detections.map fun d => d.1 == g

namespace Split

/-- The places of the tracks and the detections of a group in the whole. -/
def renumbering (s : Split α) (g : Bool) (f : SplitFrame α) : Renumbering :=
  ⟨chosenPlace (s.mask g), chosenPlace (f.mask g), (chosenPlace_strictMono _).injective,
    (chosenPlace_strictMono _).injective⟩

variable {solver : Solver α} {s : Split α} {g : Bool} {tr : Tracker α} {f : SplitFrame α}
  {pose : Pose α}

/-- The observations of the frame that has one group only. -/
def observedPart (tr : Tracker α) (g : Bool) (f : SplitFrame α) (pose : Pose α) :
    List (Observation α) :=
  tr.observed (f.part g).detections f.timestamp pose f.options.lanes

theorem Mirrors.observation_eq (h : s.Mirrors g tr) (f : SplitFrame α) (pose : Pose α) (k : ℕ) :
    (observedPart tr g f pose)[k]? = (s.observed f pose)[chosenPlace (f.mask g) k]? := by
  unfold observedPart observed Tracker.observed observe
  rw [h.config_eq, h.epoch_eq]
  unfold SplitFrame.part SplitFrame.whole SplitFrame.mask
  simp only [List.getElem?_map]
  rw [getElem?_filter]

omit [Scalar α] in
theorem Mirrors.track_eq (h : s.Mirrors g tr) (k : ℕ) :
    (tr.tracks.tracks.toList[k]?).map Track.anonymous =
      (s.tracker.tracks.tracks.toList[chosenPlace (s.mask g) k]?).map Track.anonymous := by
  have htracks := congrArg (fun l => l[k]?) h.tracks_eq
  simp only [List.getElem?_map, tracksOf, getElem?_filter] at htracks
  exact htracks.symm

omit [Scalar α] in
theorem Mirrors.length_tracks (h : s.Mirrors g tr) :
    tr.tracks.tracks.toList.length = (s.mask g).countP id := by
  have hlength := congrArg List.length h.tracks_eq
  rw [List.length_map, List.length_map] at hlength
  rw [mask, countP_map_id]
  exact hlength.symm

theorem length_observedPart (tr : Tracker α) (g : Bool) (f : SplitFrame α) (pose : Pose α) :
    (observedPart tr g f pose).length = (f.mask g).countP id := by
  rw [observedPart, length_observed, SplitFrame.mask, countP_map_id, SplitFrame.part,
    List.length_map]

theorem length_observed_split (s : Split α) (f : SplitFrame α) (pose : Pose α) (g : Bool) :
    (s.observed f pose).length = (f.mask g).length := by
  rw [observed, length_observed, SplitFrame.mask, SplitFrame.whole, List.length_map,
    List.length_map]

omit [Scalar α] in
theorem getD_mask_track {i : ℕ} {t : Track α} (ht : s.tracker.tracks.tracks.toList[i]? = some t) :
    (s.mask g).getD i false = (s.groupOf t.id == some g) := by
  rw [List.getD_eq_getElem?_getD, mask, List.getElem?_map, ht]
  rfl

omit [Scalar α] in
theorem getD_mask_detection {j : ℕ} {d : Bool × Detection α} (hd : f.detections[j]? = some d) :
    (f.mask g).getD j false = (d.1 == g) := by
  rw [List.getD_eq_getElem?_getD, SplitFrame.mask, List.getElem?_map, hd]
  rfl

/-! ### What is matched in the part -/

theorem Mirrors.entry_eq (h : s.Mirrors g tr) (dt : α) {i j : ℕ}
    (hi : i < tr.tracks.tracks.toList.length) (hj : j < (observedPart tr g f pose).length) :
    (s.tracker.costs dt (s.observed f pose)).entry (chosenPlace (s.mask g) i)
        (chosenPlace (f.mask g) j) =
      (tr.costs dt (observedPart tr g f pose)).entry i j := by
  have ho := List.getElem?_eq_getElem hj
  have ht := List.getElem?_eq_getElem hi
  have htrack := h.track_eq i
  rw [ht, Option.map_some] at htrack
  obtain ⟨t, ht', hanonymous⟩ := Option.map_eq_some_iff.mp htrack.symm
  have ho' := ho
  rw [h.observation_eq] at ho'
  rw [entry_costs ht ho, entry_costs ht' ho', h.config_eq]
  -- a cost does not depend on the id of the track
  have hcost := congrArg (fun t : Track α => Dissimilarity.total
    s.tracker.config.matching.weights t.current
    (t.predict s.tracker.config.filter dt).expected (observedPart tr g f pose)[j] dt) hanonymous
  exact hcost

theorem isSplit_costs {e : Epoch α} (he : s.tracker.epoch = some e) (hapart : s.IsApart solver f)
    (haccept : f.options.accept f.timestamp = .ok pose) {dt : α}
    (hdt : dt = s.tracker.elapsed f.timestamp) :
    Block.IsSplit (s.tracker.costs dt (s.observed f pose)) s.tracker.config.matching.gate
      (fun i => (s.mask g).getD i false) (fun j => (f.mask g).getD j false)
      (Block.whole (s.tracker.costs dt (s.observed f pose))).tracks
      (Block.whole (s.tracker.costs dt (s.observed f pose))).detections := by
  intro i hi j hj hgated
  have hi := List.mem_range.mp hi
  have hj := List.mem_range.mp hj
  rw [rows_costs] at hi
  rw [cols_costs, length_observed_split s f pose g, SplitFrame.mask, List.length_map] at hj
  have ht := List.getElem?_eq_getElem hi
  have hd := List.getElem?_eq_getElem hj
  show (s.mask g).getD i false = (f.mask g).getD j false
  rw [getD_mask_track ht, getD_mask_detection hd]
  rw [Array.getElem?_toList] at ht
  have hgroup := hapart pose haccept i _ j _ ht hd (by
    rw [assigned, assigned_of_epoch solver he, ← hdt]
    exact hgated)
  rw [hgroup]
  rfl

/-- The costs of a group are a part of the costs of the whole. -/
theorem Mirrors.isPart (h : s.Mirrors g tr) {e : Epoch α} (he : s.tracker.epoch = some e)
    (hapart : s.IsApart solver f) (haccept : f.options.accept f.timestamp = .ok pose) (dt : α)
    (hdt : dt = s.tracker.elapsed f.timestamp) :
    IsPart s.tracker.config.matching.gate (s.renumbering g f) (fun i => (s.mask g).getD i false)
      (fun j => (f.mask g).getD j false) (tr.costs dt (observedPart tr g f pose))
      (s.tracker.costs dt (s.observed f pose)) := by
  constructor
  · have hlength : s.tracker.tracks.tracks.toList.length = (s.mask g).length :=
      (List.length_map _).symm
    rw [rows_costs, rows_costs, h.length_tracks, hlength]
    exact filter_range (s.mask g)
  · rw [cols_costs, cols_costs, length_observedPart, length_observed_split s f pose g]
    exact filter_range (f.mask g)
  · exact chosenPlace_strictMono _
  · intro i hi j hj
    have hi := List.mem_range.mp hi
    have hj := List.mem_range.mp hj
    rw [rows_costs] at hi
    rw [cols_costs] at hj
    exact h.entry_eq dt hi hj
  · exact isSplit_costs he hapart haccept hdt

/-- A track of a part takes the observation that it takes in the whole, at the same cost. -/
theorem matchOf?_of_isPart {gate : α} {r : Renumbering} {track detection : ℕ → Bool}
    {c c' : CostMatrix α} (h : IsPart gate r track detection c c') (solver : Solver α)
    {observations observations' : List (Observation α)}
    (hobservations : ∀ j, observations[j]? = observations'[r.detection j]?) {k : ℕ}
    (hk : k < c.rows) :
    matchOf? observations' (Assignment.blockwise solver c' gate, c') (r.track k) =
      matchOf? observations (Assignment.blockwise solver c gate, c) k := by
  obtain ⟨-, htrack⟩ := h.track_of_lt hk
  refine matchOf?_eq_of_iff hobservations (nodup_fst_matched_blockwise solver c gate)
    (nodup_fst_matched_blockwise solver c' gate) ?_ ?_
  · -- the pair of a track of the part is the pair that the track has in the whole
    intro j'
    constructor
    · intro hp
      obtain ⟨q, hq, heq⟩ := List.mem_map.mp ((h.mem_matched_iff solver).mp ⟨hp, htrack⟩)
      obtain ⟨hfst, hsnd⟩ := Prod.mk.inj heq
      rw [← r.track_inj hfst]
      exact ⟨q.2, hq, hsnd⟩
    · intro hp
      obtain ⟨j, hq, rfl⟩ := hp
      exact ((h.mem_matched_iff solver).mpr (List.mem_map_of_mem (f := r.pair) hq)).1
  · intro j hp
    have hm := isMatching_blockwise solver c gate
    have hp := List.mem_toFinset.mpr hp
    exact h.agrees k (hm.track_mem _ hp) j (hm.detection_mem _ hp)

/-- What is matched in the frame that has one group only, and at which costs. -/
def assignedPart (solver : Solver α) (tr : Tracker α) (g : Bool) (f : SplitFrame α)
    (pose : Pose α) : Assignment × CostMatrix α :=
  tr.assigned solver (tr.elapsed f.timestamp) (observedPart tr g f pose)

theorem Mirrors.elapsed_eq (h : s.Mirrors g tr) (timestamp : α) :
    tr.elapsed timestamp = s.tracker.elapsed timestamp := by
  unfold elapsed
  rw [h.epoch_eq]

/-- A track of the group takes the same observation at the same cost in the whole and in the
part. -/
theorem Mirrors.matchOf?_eq (h : s.Mirrors g tr) (hapart : s.IsApart solver f)
    (haccept : f.options.accept f.timestamp = .ok pose) {k : ℕ}
    (hk : k < tr.tracks.tracks.toList.length) :
    matchOf? (s.observed f pose) (s.assigned solver f pose) (chosenPlace (s.mask g) k) =
      matchOf? (observedPart tr g f pose) (assignedPart solver tr g f pose) k := by
  cases he : s.tracker.epoch with
  | none =>
    unfold assigned assignedPart
    rw [assigned_of_none solver he, assigned_of_none solver (h.epoch_eq.trans he),
      matchOf?_of_unmatched List.not_mem_nil, matchOf?_of_unmatched List.not_mem_nil]
  | some e =>
    have hpart := h.isPart he hapart haccept _ rfl
    have hrun : s.assigned solver f pose = (Assignment.blockwise solver
        (s.tracker.costs (s.tracker.elapsed f.timestamp) (s.observed f pose))
          s.tracker.config.matching.gate,
        s.tracker.costs (s.tracker.elapsed f.timestamp) (s.observed f pose)) :=
      assigned_of_epoch solver he _ _
    have hrun' : assignedPart solver tr g f pose = (Assignment.blockwise solver
        (tr.costs (s.tracker.elapsed f.timestamp) (observedPart tr g f pose))
          s.tracker.config.matching.gate,
        tr.costs (s.tracker.elapsed f.timestamp) (observedPart tr g f pose)) := by
      rw [assignedPart, assigned_of_epoch solver (h.epoch_eq.trans he), h.elapsed_eq, h.config_eq]
    have hrows := rows_costs tr (s.tracker.elapsed f.timestamp) (observedPart tr g f pose)
    rw [hrun, hrun']
    exact matchOf?_of_isPart hpart solver (h.observation_eq f pose) (hrows.symm ▸ hk)

theorem Mirrors.unmatchedDetections_eq (h : s.Mirrors g tr) (hapart : s.IsApart solver f)
    (haccept : f.options.accept f.timestamp = .ok pose) :
    (s.assigned solver f pose).1.unmatchedDetections.filter (fun j => (f.mask g).getD j false) =
      (assignedPart solver tr g f pose).1.unmatchedDetections.map (chosenPlace (f.mask g)) := by
  cases he : s.tracker.epoch with
  | none =>
    unfold assigned assignedPart
    rw [assigned_of_none solver he, assigned_of_none solver (h.epoch_eq.trans he)]
    dsimp only
    rw [length_observed_split s f pose g, length_observedPart]
    exact filter_range (f.mask g)
  | some e =>
    have hpart := h.isPart he hapart haccept _ rfl
    have hunmatched := hpart.unmatchedDetections_eq solver
    unfold assigned assignedPart
    rw [assigned_of_epoch solver he, assigned_of_epoch solver (h.epoch_eq.trans he), h.elapsed_eq,
      h.config_eq]
    exact hunmatched

end Split

end Tracker

end ObstacleTracking
