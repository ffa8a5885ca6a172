import ObstacleTracking.Proofs.Scalar.Field
import ObstacleTracking.Proofs.Association.Turned
import ObstacleTracking.Proofs.Config.Settings
import ObstacleTracking.Proofs.Track.Turned
import ObstacleTracking.Proofs.Tracker.Live

/-!
# Runs and turns

A tracker whose frames come from turned poses is the turned tracker after every frame: its
observations are turned, the costs and so the assignments are the same, and what is followed,
missed and started is turned. So it answers every frame with the turned objects.
-/

namespace ObstacleTracking

variable {K : Type} [Field K] [LinearOrder K] [ExactRoots K]

/-- The object as it is reported when the world is turned. Its heading is left out. -/
structure TrackedObject.IsTurned (r : Yaw K) (o o' : TrackedObject K) : Prop where
  id_eq : o'.id = o.id
  kind_eq : o'.kind = o.kind
  state_eq : o'.state = o.state
  cloud_eq : o'.cloud = o.cloud.map r.turn
  outline_eq : o'.outline = o.outline.map r.turn
  center_eq : o'.center = r.turn o.center
  anchor_eq : o'.anchor = r.turn o.anchor
  direction_eq : o'.direction = r.turn o.direction
  size_eq : o'.size = o.size
  velocity_eq : o'.velocity = r.turn o.velocity
  velocityUncertainty_eq : o'.velocityUncertainty = o.velocityUncertainty
  trackingTime_eq : o'.trackingTime = o.trackingTime
  age_eq : o'.age = o.age
  visible_eq : o'.visible = o.visible

def Epoch.turned (r : Yaw K) (e : Epoch K) : Epoch K := { e with offset := r.turn e.offset }

def TrackSet.turned (r : Yaw K) (s : TrackSet K) : TrackSet K := s.map (Track.turned r)

namespace Tracker

/-- Both answers are the same refusal, or report the same objects apart from the turn. -/
def Answer.IsTurned (r : Yaw K) : Answer K → Answer K → Prop
  | .error e, .error e' => e' = e
  | .ok report, .ok report' =>
    List.Forall₂ (TrackedObject.IsTurned r) report.objects report'.objects
  | _, _ => False

/-- The frame with its pose turned. -/
def Frame.turned (r : Yaw K) (f : Frame K) : Frame K :=
  { f with options := { f.options with pose := f.options.pose.map fun pose => r.pose * pose } }

def turned (r : Yaw K) (tr : Tracker K) : Tracker K :=
  { tr with
    tracks := tr.tracks.turned r
    epoch := tr.epoch.map (Epoch.turned r) }

variable (r : Yaw K) {tr : Tracker K} {pose : Pose K} {timestamp : K}

/-! ### Observations and costs -/

theorem nextEpoch_turned (tr : Tracker K) (pose : Pose K) (timestamp : K) :
    nextEpoch (tr.turned r).epoch (r.pose * pose) timestamp =
      (nextEpoch tr.epoch pose timestamp).turned r := by
  unfold turned
  cases tr.epoch with
  | none =>
    unfold nextEpoch Epoch.turned
    dsimp only [Option.map_none]
    rw [r.origin_pose_mul, r.turn_neg]
  | some e => rfl

theorem observed_turned (tr : Tracker K) (detections : List (Detection K)) (timestamp : K)
    (pose : Pose K) :
    (tr.turned r).observed detections timestamp (r.pose * pose) none =
      (tr.observed detections timestamp pose none).map (Observation.turned r) := by
  have hconfig : (tr.turned r).config = tr.config := rfl
  have hoffset : (nextEpoch (tr.turned r).epoch (r.pose * pose) timestamp).offset =
      r.turn (nextEpoch tr.epoch pose timestamp).offset :=
    congrArg Epoch.offset (nextEpoch_turned r tr pose timestamp)
  unfold observed observe
  rw [hoffset, hconfig, List.map_map]
  refine List.map_congr_left ?_
  intro d _
  dsimp only [Function.comp_apply, LaneMap.directionOr]
  rw [Observation.ofDetection_pose_mul, Pose.turn_displace, Pose.turn_displace, r.turn_pose_mul]
  rfl

theorem elapsed_turned (tr : Tracker K) (timestamp : K) :
    (tr.turned r).elapsed timestamp = tr.elapsed timestamp := by
  unfold elapsed turned
  cases tr.epoch with
  | none => rfl
  | some e => rfl

theorem costs_turned (tr : Tracker K) (dt : K) (observations : List (Observation K)) :
    (tr.turned r).costs dt (observations.map (Observation.turned r)) =
      tr.costs dt observations := by
  -- the costs of one track
  have hrow : ∀ t : Track K,
      ((observations.map (Observation.turned r)).toArray.map fun o =>
        Dissimilarity.total tr.config.matching.weights
          ((t.turned r).predict tr.config.filter dt).current
          ((t.turned r).predict tr.config.filter dt).expected o dt) =
      observations.toArray.map fun o => Dissimilarity.total tr.config.matching.weights
        (t.predict tr.config.filter dt).current (t.predict tr.config.filter dt).expected o dt := by
    intro t
    rw [Track.predict_turned, Track.expected_turned, ← List.map_toArray, Array.map_map]
    refine Array.map_congr_left ?_
    intro o _
    exact Dissimilarity.total_turned r _ _ o _ dt
  have hcols : (observations.map (Observation.turned r)).toArray.size =
      observations.toArray.size := by simp
  unfold costs Matching.costs predicted turned TrackSet.turned TrackSet.map
  dsimp only
  rw [hcols, Array.map_map, Array.map_map, Array.map_map]
  congr 1
  refine Array.map_congr_left ?_
  intro t _
  exact hrow t

theorem assigned_turned (solver : Solver K) (tr : Tracker K) (dt : K)
    (observations : List (Observation K)) :
    (tr.turned r).assigned solver dt (observations.map (Observation.turned r)) =
      tr.assigned solver dt observations := by
  cases he : tr.epoch with
  | none =>
    have he' : (tr.turned r).epoch = none := by
      unfold turned
      rw [he]
      rfl
    rw [assigned_of_none solver he, assigned_of_none solver he', List.length_map]
  | some e =>
    have he' : (tr.turned r).epoch = some (e.turned r) := by
      unfold turned
      rw [he]
      rfl
    rw [assigned_of_epoch solver he, assigned_of_epoch solver he', costs_turned]
    rfl

/-! ### What a frame makes of turned tracks -/

variable {c : Config K} {dt : K} {observations : List (Observation K)}
  {run : Assignment × CostMatrix K}

theorem matchOf?_turned (observations : List (Observation K)) (run : Assignment × CostMatrix K)
    (i : ℕ) :
    matchOf? (observations.map (Observation.turned r)) run i =
      (matchOf? observations run i).map fun m => (m.1.turned r, m.2) := by
  unfold matchOf?
  cases run.1.matched.find? fun p => p.1 == i with
  | none => rfl
  | some p =>
    rw [Option.bind_some, Option.bind_some, List.getElem?_map, Option.map_map, Option.map_map]
    rfl

theorem leftOver_turned (observations : List (Observation K)) (run : Assignment × CostMatrix K) :
    leftOver (observations.map (Observation.turned r)) run =
      (leftOver observations run).map (Observation.turned r) := by
  unfold leftOver
  rw [List.map_filterMap]
  refine List.filterMap_congr ?_
  intro j _
  rw [List.getElem?_map]

theorem startAll_turned (c : Config K) (lastId : ℕ) (os : List (Observation K)) :
    startAll c lastId (os.map (Observation.turned r)) =
      (startAll c lastId os).map (Track.turned r) := by
  unfold startAll
  rw [List.length_map, List.zip_map_right, List.map_map, List.map_map]
  refine List.map_congr_left ?_
  intro p _
  exact Track.start_turned r c.filter c.lifecycle.historyCapacity p.1 p.2

/-! ### Answers -/

theorem isTurned_report (c : LifecycleConfig K) (offset : Vec3 K) (s : TrackSet K) :
    List.Forall₂ (TrackedObject.IsTurned r) (s.report c offset)
      ((s.turned r).report c (r.turn offset)) := by
  have htracks : (s.turned r).tracks.toList = s.tracks.toList.map (Track.turned r) :=
    Array.toList_map
  unfold TrackSet.report
  rw [htracks, List.filter_map, List.map_map, List.forall₂_map_left_iff,
    List.forall₂_map_right_iff]
  refine List.forall₂_same.mpr ?_
  intro t _
  have hcloud : ∀ cloud : Cloud K, Cloud.shift (-r.turn offset) (cloud.map r.turn) =
      (Cloud.shift (-offset) cloud).map r.turn := by
    intro cloud
    rw [← r.turn_neg, r.shift_map_turn]
  constructor
  · rfl
  · rfl
  · rfl
  · exact hcloud t.current.detection.cloud
  · exact hcloud t.current.detection.outline
  · exact (r.turn_sub t.current.detection.center offset).symm
  · exact (r.turn_sub t.current.anchor offset).symm
  · rfl
  · rfl
  · rfl
  · rfl
  · rfl
  · rfl
  · rfl

theorem accept_turned (f : Frame K) :
    (f.turned r).options.accept f.timestamp =
      (f.options.accept f.timestamp).map fun pose => r.pose * pose := by
  have hfinite : Scalar.isFinite f.timestamp = true := rfl
  have hoptions : (f.turned r).options.pose = f.options.pose.map fun pose => r.pose * pose := rfl
  unfold FrameOptions.accept
  rw [if_pos hfinite, if_pos hfinite, hoptions]
  cases f.options.pose with
  | none => rfl
  | some pose =>
    dsimp only [Option.map_some]
    rw [ExactRoots.isFinite_mat, ExactRoots.isFinite_mat]
    rfl

theorem Kept.turned {seen : List ℕ} (h : Kept seen tr) : Kept seen (tr.turned r) := by
  have htracks : (tr.turned r).tracks.tracks.toList =
      tr.tracks.tracks.toList.map (Track.turned r) := Array.toList_map
  have hcount : (tr.turned r).frameCount = tr.frameCount := by
    unfold frameCount Tracker.turned
    cases tr.epoch with
    | none => rfl
    | some e => rfl
  constructor
  · exact h.ordered.map fun _ => rfl
  · rw [htracks]
    intro t' ht'
    obtain ⟨t, ht, rfl⟩ := List.mem_map.mp ht'
    exact h.id_le t ht
  · rw [htracks]
    intro t' ht'
    obtain ⟨t, ht, rfl⟩ := List.mem_map.mp ht'
    exact Option.map_eq_none_iff.mpr (h.predicted_eq t ht)
  · rw [htracks, hcount]
    intro t' ht'
    obtain ⟨t, ht, rfl⟩ := List.mem_map.mp ht'
    exact h.age_lt t ht
  · exact h.seen_le
  · exact h.lastId_seen

/-! ### Corrections -/

variable [IsStrictOrderedRing K]

theorem follow_turned (hc : c.error? = none) {t : Track K} (ht : t.HasSoundCovariances)
    (m : Option (Observation K × K)) :
    follow c dt (t.turned r) (m.map fun m => (m.1.turned r, m.2)) =
      (follow c dt t m).turned r := by
  have hpredict := Track.predict_turned r c.filter t dt
  -- only a hit inverts a covariance, so only there its soundness is asked
  cases m with
  | none =>
    show ((t.turned r).predict c.filter dt).miss c.filter dt = _
    rw [hpredict, Track.miss_turned]
    rfl
  | some m =>
    show (((t.turned r).predict c.filter dt).hit c.filter c.lifecycle (m.1.turned r) m.2 dt).1 = _
    rw [hpredict]
    exact Track.hit_turned r (Config.bounds hc).filter c.lifecycle ht.estimate m.1 m.2 dt

theorem followAll_turned (hc : c.error? = none) {tracks : List (Track K)}
    (htracks : ∀ t ∈ tracks, t.HasSoundCovariances) :
    followAll c dt (observations.map (Observation.turned r)) run (tracks.map (Track.turned r)) =
      (followAll c dt observations run tracks).map (Track.turned r) := by
  refine List.ext_getElem? ?_
  intro i
  unfold followAll
  rw [List.getElem?_mapIdx, List.getElem?_map, List.getElem?_map, List.getElem?_mapIdx]
  cases ht : tracks[i]? with
  | none => rfl
  | some t =>
    simp only [Option.map_some, Option.some_inj]
    rw [matchOf?_turned, follow_turned r hc (htracks t (List.mem_of_getElem? ht))]

theorem advanced_turned (hc : c.error? = none) {s : TrackSet K}
    (hs : ∀ t ∈ s.tracks.toList, t.HasSoundCovariances) :
    advanced c dt (observations.map (Observation.turned r)) run (s.turned r) =
      (advanced c dt observations run s).turned r := by
  have htracks : (s.turned r).tracks.toList = s.tracks.toList.map (Track.turned r) :=
    Array.toList_map
  have hlast : (s.turned r).lastId = s.lastId := rfl
  unfold advanced
  rw [htracks, followAll_turned r hc hs, leftOver_turned, hlast, startAll_turned, List.length_map,
    List.filter_map]
  unfold TrackSet.turned TrackSet.map
  rw [List.map_toArray, List.map_append]
  rfl

/-! ### Covariances -/

theorem hasSoundCovariances_advanced (hc : c.error? = none) {s : TrackSet K}
    (hs : ∀ t ∈ s.tracks.toList, t.HasSoundCovariances) :
    ∀ t ∈ (advanced c dt observations run s).tracks.toList, t.HasSoundCovariances := by
  have hfilter := (Config.bounds hc).filter
  refine forall_advanced hs ?_ ?_ ?_
  · intro t ht o _ score
    exact hasSoundCovariances_follow hfilter ht (some (o, score))
  · intro t ht
    exact hasSoundCovariances_follow hfilter ht none
  · intro id o _
    exact Track.hasSoundCovariances_start hfilter _ _ _

/-! ### Frames -/

/-- What a turned run needs to know of a tracker between frames. -/
structure HasSoundTracks (tr : Tracker K) : Prop where
  kept : ∃ seen, Kept seen tr
  valid : tr.config.error? = none
  sound : ∀ t ∈ tr.tracks.tracks.toList, t.HasSoundCovariances

theorem accepted_turned (h : HasSoundTracks tr) (solver : Solver K)
    (detections : List (Detection K)) (timestamp : K) (pose : Pose K) :
    (tr.turned r).accepted solver detections timestamp (r.pose * pose) none =
      (tr.accepted solver detections timestamp pose none).turned r := by
  have hconfig : (tr.turned r).config = tr.config := rfl
  have htracks : (tr.turned r).tracks = tr.tracks.turned r := rfl
  unfold accepted
  dsimp only
  rw [elapsed_turned, observed_turned, assigned_turned, hconfig, htracks,
    advanced_turned r h.valid h.sound, nextEpoch_turned]
  rfl

/-- A frame from a turned pose leaves the turned tracker, and is answered with turned objects. -/
theorem feed_turned (h : HasSoundTracks tr) (solver : Solver K) {f : Frame K}
    (hlanes : f.options.lanes = none) :
    HasSoundTracks (tr.feed solver f).1 ∧
      ((tr.turned r).feed solver (f.turned r)).1 = (tr.feed solver f).1.turned r ∧
      Answer.IsTurned r (tr.feed solver f).2 ((tr.turned r).feed solver (f.turned r)).2 := by
  obtain ⟨seen, hkept⟩ := h.kept
  have hturned := accept_turned r f
  cases haccept : f.options.accept f.timestamp with
  | error e =>
    rw [haccept] at hturned
    rw [feed_of_refuse solver tr haccept, feed_of_refuse solver (f := f.turned r) _ hturned]
    exact ⟨h, rfl, rfl⟩
  | ok pose =>
    rw [haccept] at hturned
    have haccepted := accepted_turned r h solver f.detections f.timestamp pose
    have hfeed := hkept.feed_of_accept solver haccept
    have hfeed' := (hkept.turned r).feed_of_accept solver (f := f.turned r) hturned
    have hlanes' : (f.turned r).options.lanes = none := hlanes
    dsimp only at hfeed hfeed'
    rw [hlanes] at hfeed
    have htracker : (tr.turned r).accepted solver (f.turned r).detections (f.turned r).timestamp
        (r.pose * pose) (f.turned r).options.lanes =
        (tr.accepted solver f.detections f.timestamp pose none).turned r := by
      rw [hlanes']
      exact haccepted
    rw [htracker] at hfeed'
    rw [hfeed, hfeed']
    refine ⟨⟨?_, h.valid, ?_⟩, rfl, ?_⟩
    · obtain ⟨seen', hkept'⟩ := hkept.feed solver f
      rw [hfeed] at hkept'
      exact ⟨seen', hkept'⟩
    · exact hasSoundCovariances_advanced h.valid h.sound
    · exact isTurned_report r tr.config.lifecycle _ _

/-! ### Runs -/

theorem HasSoundTracks.answers_turned (h : HasSoundTracks tr) (solver : Solver K)
    {frames : List (Frame K)} (hlanes : ∀ f ∈ frames, f.options.lanes = none) :
    List.Forall₂ (Answer.IsTurned r) (answers solver tr frames)
      (answers solver (tr.turned r) (frames.map (Frame.turned r))) := by
  induction frames generalizing tr with
  | nil => exact List.Forall₂.nil
  | cons f frames ih =>
    obtain ⟨hnext, htracker, hanswer⟩ := feed_turned r h solver (hlanes f List.mem_cons_self)
    have hrest := ih hnext fun f' hf' => hlanes f' (List.mem_cons_of_mem f hf')
    rw [← htracker] at hrest
    exact List.Forall₂.cons hanswer hrest

/-- If the poses of all frames are turned about the vertical axis and no lane map is asked, each
frame is refused as before or reports the same objects, turned. -/
theorem answers_isTurned {config : Config K} (h : create config = .ok tr) (solver : Solver K)
    {frames : List (Frame K)} (hlanes : ∀ f ∈ frames, f.options.lanes = none) :
    List.Forall₂ (Answer.IsTurned r) (answers solver tr frames)
      (answers solver tr (frames.map (Frame.turned r))) := by
  obtain ⟨htr, hvalid⟩ := eq_of_create h
  have hsound : HasSoundTracks tr := by
    refine ⟨⟨[], kept_create h⟩, ?_, ?_⟩
    · rw [htr]
      exact hvalid
    · intro t ht
      rw [htr] at ht
      exact absurd ht List.not_mem_nil
  have hsame : tr.turned r = tr := by
    rw [htr]
    unfold turned TrackSet.turned TrackSet.map
    rw [Array.map_empty, Option.map_none]
  have hanswers := hsound.answers_turned r solver hlanes
  rw [hsame] at hanswers
  exact hanswers

section Example

attribute [local instance] ExactRoots.real

/-- An obstacle of two points that moves between two frames, seen again after a quarter turn. -/
theorem answers_isTurned_quarter :
    let quarter : Yaw ℝ := ⟨0, 1, by norm_num⟩
    let tr : Tracker ℝ := ⟨.standard, {}, none⟩
    let f : ℝ → Frame ℝ := fun t =>
      ⟨[⟨[⟨1 + t, 0, 0⟩, ⟨2 + t, 1, 0⟩], [], 0, Vec3.forward, 0, .vehicle⟩], t,
        ⟨some Mat.identity, none⟩⟩
    List.Forall₂ (Answer.IsTurned quarter) (answers (Solver.cheapest ℝ) tr [f 0, f 1])
      (answers (Solver.cheapest ℝ) tr [(f 0).turned quarter, (f 1).turned quarter]) := by
  intro quarter tr f
  have hcreate : create .standard = .ok tr := create_standard ℝ
  have hlanes : ∀ f' ∈ [f 0, f 1], f'.options.lanes = none := by
    intro f' hf'
    simp only [List.mem_cons, List.not_mem_nil, or_false] at hf'
    rcases hf' with rfl | rfl
    · rfl
    · rfl
  exact answers_isTurned quarter hcreate (Solver.cheapest ℝ) hlanes

end Example

end Tracker

end ObstacleTracking
