import ObstacleTracking.Proofs.Association.Permutations
import ObstacleTracking.Proofs.Config.Standard
import ObstacleTracking.Proofs.Scalar.Shifts
import ObstacleTracking.Proofs.Tracker.Frames

/-!
# Runs and displaced worlds

The origin of the world and the zero of the clock are not seen by a tracker. It works in the
local frame of its first accepted pose and with the time between frames, so if both are moved
its tracks stay as they are; only its epoch moves, and with the epoch what is reported.
-/

namespace ObstacleTracking

variable {α : Type} [Scalar α]

/-- The object as it is reported when the world is displaced. -/
def TrackedObject.displaced (s : Vec3 α) (o : TrackedObject α) : TrackedObject α :=
  { o with
    cloud := Cloud.shift s o.cloud
    outline := Cloud.shift s o.outline
    center := o.center + s
    anchor := o.anchor + s }

def FrameReport.displaced (s : Vec3 α) (r : FrameReport α) : FrameReport α where
  objects := r.objects.map (TrackedObject.displaced s)
  laneQueries := r.laneQueries.map (· + s)

/-- The lane map of the displaced world: the lanes at `x` are those that were at `x - s`. -/
def LaneMap.displaced (s : Vec3 α) (lanes : LaneMap α) : LaneMap α := fun x => lanes (x - s)

/-- The refusal of the same frame at a later time. -/
def FrameError.delayed (d : α) : FrameError α → FrameError α
  | .missingPose t => .missingPose (t + d)
  | .invalidPose t => .invalidPose (t + d)
  | .invalidTimestamp t => .invalidTimestamp (t + d)

def Epoch.displaced (s : Vec3 α) (d : α) (e : Epoch α) : Epoch α :=
  { e with
    offset := e.offset - s
    timestamp := e.timestamp + d }

def FrameOptions.displaced (s : Vec3 α) (options : FrameOptions α) : FrameOptions α where
  pose := options.pose.map fun pose => pose.displace s
  lanes := options.lanes.map (LaneMap.displaced s)

namespace Tracker

def Answer.displaced (s : Vec3 α) (d : α) (a : Answer α) : Answer α :=
  (a.map (FrameReport.displaced s)).mapError (FrameError.delayed d)

/-- The frame in a world displaced by `s`, by a clock that is ahead by `d`. -/
def Frame.displaced (s : Vec3 α) (d : α) (f : Frame α) : Frame α :=
  { f with
    timestamp := f.timestamp + d
    options := f.options.displaced s }

def displaced (s : Vec3 α) (d : α) (tr : Tracker α) : Tracker α :=
  { tr with epoch := tr.epoch.map (Epoch.displaced s d) }

@[simp] theorem Frame.detections_displaced (s : Vec3 α) (d : α) (f : Frame α) :
    (f.displaced s d).detections = f.detections := rfl

@[simp] theorem Frame.timestamp_displaced (s : Vec3 α) (d : α) (f : Frame α) :
    (f.displaced s d).timestamp = f.timestamp + d := rfl

@[simp] theorem Frame.lanes_displaced (s : Vec3 α) (d : α) (f : Frame α) :
    (f.displaced s d).options.lanes = f.options.lanes.map (LaneMap.displaced s) := rfl

variable {tr : Tracker α}

theorem assigned_displaced (s : Vec3 α) (d : α) (tr : Tracker α) (solver : Solver α) (dt : α)
    (observations : List (Observation α)) :
    (tr.displaced s d).assigned solver dt observations = tr.assigned solver dt observations := by
  unfold assigned displaced
  cases tr.epoch with
  | none => rfl
  | some e => rfl

theorem Kept.displaced {seen : List ℕ} (h : Kept seen tr) (s : Vec3 α) (d : α) :
    Kept seen (tr.displaced s d) := by
  have hcount : (tr.displaced s d).frameCount = tr.frameCount := by
    unfold frameCount Tracker.displaced
    rw [Option.map_map]
    rfl
  exact ⟨h.ordered, h.id_le, h.predicted_eq, by rw [hcount]; exact h.age_lt, h.seen_le,
    h.lastId_seen⟩

/-! ### Epochs -/

open ExactScalar ExactShifts

variable {K : Type} [Field K] [LinearOrder K] [ExactScalar K α] {pose : Pose α} {timestamp : α}

/-- What a displaced run needs to know of a tracker between frames. -/
structure HasFiniteEpoch (tr : Tracker α) : Prop where
  kept : ∃ seen, Kept seen tr
  finite : ∀ e, tr.epoch = some e →
    ∃ (o : Vec3 K) (t : K), e.offset = Vec3.ofField o ∧ e.timestamp = ExactScalar.ofField t

variable (s : Vec3 K) (d : K)

theorem nextEpoch_displaced (tr : Tracker α) (hpose : pose.isFinite = true) (timestamp : α) :
    nextEpoch (tr.displaced (Vec3.ofField s) (ofField d)).epoch (pose.displace (Vec3.ofField s))
        (timestamp + ofField d) =
      (nextEpoch tr.epoch pose timestamp).displaced (Vec3.ofField s) (ofField d) := by
  unfold displaced
  cases tr.epoch with
  | none =>
    obtain ⟨o, ho⟩ := Pose.exists_origin_ofField hpose
    unfold nextEpoch Epoch.displaced
    dsimp only [Option.map_none]
    rw [Pose.origin_displace, ho, Vec3.neg_add_ofField]
  | some e => rfl

/-- The first accepted frame starts a finite epoch, and every later one keeps its offset. -/
theorem HasFiniteEpoch.exists_nextEpoch (h : tr.HasFiniteEpoch) (hpose : pose.isFinite = true)
    (htime : Scalar.isFinite timestamp = true) :
    ∃ (o : Vec3 K) (t : K), (nextEpoch tr.epoch pose timestamp).offset = Vec3.ofField o ∧
      (nextEpoch tr.epoch pose timestamp).timestamp = ofField t := by
  obtain ⟨t, ht⟩ := exists_of_isFinite htime
  cases he : tr.epoch with
  | none =>
    obtain ⟨o, ho⟩ := Pose.exists_origin_ofField hpose
    refine ⟨o.map (-·), t, ?_, ht⟩
    rw [← Vec3.neg_ofField, ← ho]
    rfl
  | some e =>
    obtain ⟨o, -, ho, -⟩ := h.finite e he
    exact ⟨o, t, ho, ht⟩

/-- The time since the last frame does not depend on the clock. -/
theorem HasFiniteEpoch.elapsed_displaced (h : tr.HasFiniteEpoch)
    (htime : Scalar.isFinite timestamp = true) :
    (tr.displaced (Vec3.ofField s) (ofField d)).elapsed (timestamp + ofField d) =
      tr.elapsed timestamp := by
  unfold elapsed displaced
  cases he : tr.epoch with
  | none => rfl
  | some e =>
    obtain ⟨x, rfl⟩ := exists_of_isFinite htime
    obtain ⟨-, y, -, hy⟩ := h.finite e he
    simp [Epoch.displaced, hy]

theorem HasFiniteEpoch.feed (h : tr.HasFiniteEpoch) (solver : Solver α) (f : Frame α) :
    (tr.feed solver f).1.HasFiniteEpoch := by
  obtain ⟨seen, hkept⟩ := h.kept
  refine ⟨hkept.feed solver f, ?_⟩
  cases haccept : f.options.accept f.timestamp with
  | error e =>
    rw [feed_of_refuse solver tr haccept]
    exact h.finite
  | ok pose =>
    obtain ⟨htime, -, hpose⟩ := FrameOptions.accept_eq_ok_iff.mp haccept
    rw [hkept.feed_of_accept solver haccept]
    intro e he
    cases he
    exact h.exists_nextEpoch hpose htime

variable [ExactShifts K α]

/-! ### Observations and reports -/

/-- An observation is made in the local frame, and its lane is looked up where it was. -/
theorem observe_displaced (c : MatchingConfig α) (o : Vec3 K) (pose : Pose α)
    (lanes : Option (LaneMap α)) (detections : List (Detection α)) :
    observe c (Vec3.ofField o - Vec3.ofField s) (pose.displace (Vec3.ofField s))
        (lanes.map (LaneMap.displaced (Vec3.ofField s))) detections =
      observe c (Vec3.ofField o) pose lanes detections := by
  have hlane : ∀ heading anchor : Vec3 α,
      LaneMap.directionOr (lanes.map (LaneMap.displaced (Vec3.ofField s))) heading
          (anchor - (Vec3.ofField o - Vec3.ofField s)) =
        LaneMap.directionOr lanes heading (anchor - Vec3.ofField o) := by
    intro heading anchor
    cases lanes with
    | none => rfl
    | some lookup =>
      unfold LaneMap.directionOr LaneMap.displaced
      dsimp only [Option.map_some]
      rw [Vec3.sub_sub_ofField, Vec3.sub_add_sub_ofField]
  unfold observe
  dsimp only
  rw [Pose.displace_displace]
  simp only [hlane]

theorem laneQueries_displaced (o : Vec3 K) (lanes : Option (LaneMap α))
    (observations : List (Observation α)) :
    laneQueries (Vec3.ofField o - Vec3.ofField s)
        (lanes.map (LaneMap.displaced (Vec3.ofField s))) observations =
      (laneQueries (Vec3.ofField o) lanes observations).map (· + Vec3.ofField s) := by
  cases lanes with
  | none => rfl
  | some lookup => simp [laneQueries, Vec3.sub_sub_ofField]

theorem report_displaced (c : LifecycleConfig α) (o : Vec3 K) (tracks : TrackSet α) :
    tracks.report c (Vec3.ofField o - Vec3.ofField s) =
      (tracks.report c (Vec3.ofField o)).map (TrackedObject.displaced (Vec3.ofField s)) := by
  have hcloud : ∀ cloud : Cloud α, Cloud.shift (-(Vec3.ofField o - Vec3.ofField s)) cloud =
      Cloud.shift (Vec3.ofField s) (Cloud.shift (-Vec3.ofField o) cloud) := by
    intro cloud
    simp [Cloud.shift, Vec3.add_neg_sub_ofField]
  unfold TrackSet.report
  rw [List.map_map]
  refine List.map_congr_left ?_
  intro t _
  unfold TrackedObject.ofTrack TrackedObject.displaced
  dsimp only [Function.comp_apply]
  rw [hcloud, hcloud, Vec3.sub_sub_ofField, Vec3.sub_sub_ofField]

/-! ### What is accepted -/

theorem accept_displaced (options : FrameOptions α) (timestamp : α) :
    (options.displaced (Vec3.ofField s)).accept (timestamp + ofField d) =
      ((options.accept timestamp).map fun pose => pose.displace (Vec3.ofField s)).mapError
        (FrameError.delayed (ofField d)) := by
  have hoptions : (options.displaced (Vec3.ofField s)).pose =
      options.pose.map fun pose => pose.displace (Vec3.ofField s) := rfl
  unfold FrameOptions.accept
  rw [isFinite_add_ofField, hoptions]
  by_cases htime : Scalar.isFinite timestamp = true
  · rw [if_pos htime, if_pos htime]
    cases options.pose with
    | none => rfl
    | some pose =>
      dsimp only [Option.map_some]
      rw [pose.isFinite_displace s]
      by_cases hpose : pose.isFinite = true
      · rw [if_pos hpose, if_pos hpose]
        rfl
      · rw [if_neg hpose, if_neg hpose]
        rfl
  · rw [if_neg htime, if_neg htime]
    rfl

theorem HasFiniteEpoch.observed_displaced (h : tr.HasFiniteEpoch) (hpose : pose.isFinite = true)
    (htime : Scalar.isFinite timestamp = true) (detections : List (Detection α))
    (lanes : Option (LaneMap α)) :
    (tr.displaced (Vec3.ofField s) (ofField d)).observed detections (timestamp + ofField d)
        (pose.displace (Vec3.ofField s)) (lanes.map (LaneMap.displaced (Vec3.ofField s))) =
      tr.observed detections timestamp pose lanes := by
  obtain ⟨o, -, ho, -⟩ := h.exists_nextEpoch hpose htime
  unfold observed
  rw [nextEpoch_displaced s d tr hpose, ho]
  unfold Epoch.displaced
  rw [ho]
  exact observe_displaced s tr.config.matching o pose lanes detections

/-! ### Frames -/

theorem reported_displaced {e : Epoch α} (he : tr.epoch = some e) {o : Vec3 K}
    (ho : e.offset = Vec3.ofField o) (lanes : Option (LaneMap α))
    (observations : List (Observation α)) :
    (tr.displaced (Vec3.ofField s) (ofField d)).reported
        (lanes.map (LaneMap.displaced (Vec3.ofField s))) observations =
      (tr.reported lanes observations).displaced (Vec3.ofField s) := by
  have hoffset : tr.offset = Vec3.ofField o := by
    unfold offset
    rw [he, ← ho]
    rfl
  have hoffset' : (tr.displaced (Vec3.ofField s) (ofField d)).offset =
      Vec3.ofField o - Vec3.ofField s := by
    unfold offset displaced
    rw [he, ← ho]
    rfl
  unfold reported FrameReport.displaced
  dsimp only
  rw [hoffset, hoffset', laneQueries_displaced, ← report_displaced]
  rfl

theorem HasFiniteEpoch.accepted_displaced (h : tr.HasFiniteEpoch) (hpose : pose.isFinite = true)
    (htime : Scalar.isFinite timestamp = true) (solver : Solver α)
    (detections : List (Detection α)) (lanes : Option (LaneMap α)) :
    (tr.displaced (Vec3.ofField s) (ofField d)).accepted solver detections (timestamp + ofField d)
        (pose.displace (Vec3.ofField s)) (lanes.map (LaneMap.displaced (Vec3.ofField s))) =
      (tr.accepted solver detections timestamp pose lanes).displaced (Vec3.ofField s)
        (ofField d) := by
  unfold accepted
  dsimp only
  rw [h.observed_displaced s d hpose htime, h.elapsed_displaced s d htime, assigned_displaced,
    nextEpoch_displaced s d tr hpose]
  rfl

/-- A frame in the displaced world leaves the displaced tracker, with the same tracks, and is
answered with the displaced report. -/
theorem HasFiniteEpoch.feed_displaced (h : tr.HasFiniteEpoch) (solver : Solver α) (f : Frame α) :
    (tr.displaced (Vec3.ofField s) (ofField d)).feed solver
        (f.displaced (Vec3.ofField s) (ofField d)) =
      ((tr.feed solver f).1.displaced (Vec3.ofField s) (ofField d),
        (tr.feed solver f).2.displaced (Vec3.ofField s) (ofField d)) := by
  obtain ⟨seen, hkept⟩ := h.kept
  have hdisplaced := accept_displaced s d f.options f.timestamp
  cases haccept : f.options.accept f.timestamp with
  | error e =>
    rw [haccept] at hdisplaced
    rw [feed_of_refuse solver tr haccept,
      feed_of_refuse solver (f := f.displaced (Vec3.ofField s) (ofField d)) _ hdisplaced]
    rfl
  | ok pose =>
    rw [haccept] at hdisplaced
    obtain ⟨htime, -, hpose⟩ := FrameOptions.accept_eq_ok_iff.mp haccept
    obtain ⟨o, -, ho, -⟩ := h.exists_nextEpoch hpose htime
    have hfeed := hkept.feed_of_accept solver haccept
    have hfeed' := (hkept.displaced (Vec3.ofField s) (ofField d)).feed_of_accept solver
      (f := f.displaced (Vec3.ofField s) (ofField d)) hdisplaced
    have hepoch : (tr.accepted solver f.detections f.timestamp pose f.options.lanes).epoch =
        some (nextEpoch tr.epoch pose f.timestamp) := rfl
    have hreported := reported_displaced s d hepoch ho f.options.lanes
      (tr.observed f.detections f.timestamp pose f.options.lanes)
    simp only [Frame.detections_displaced, Frame.timestamp_displaced, Frame.lanes_displaced]
      at hfeed'
    rw [h.accepted_displaced s d hpose htime, h.observed_displaced s d hpose htime, hreported]
      at hfeed'
    rw [hfeed, hfeed']
    rfl

/-! ### Runs -/

theorem HasFiniteEpoch.answers_displaced (h : tr.HasFiniteEpoch) (solver : Solver α)
    (frames : List (Frame α)) :
    answers solver (tr.displaced (Vec3.ofField s) (ofField d))
        (frames.map (Frame.displaced (Vec3.ofField s) (ofField d))) =
      (answers solver tr frames).map (Answer.displaced (Vec3.ofField s) (ofField d)) := by
  induction frames generalizing tr with
  | nil => rfl
  | cons f frames ih =>
    rw [List.map_cons, answers, answers, h.feed_displaced s d solver f, ih (h.feed solver f),
      List.map_cons]

theorem HasFiniteEpoch.feedAll_displaced (h : tr.HasFiniteEpoch) (solver : Solver α)
    (frames : List (Frame α)) :
    (tr.displaced (Vec3.ofField s) (ofField d)).feedAll solver
        (frames.map (Frame.displaced (Vec3.ofField s) (ofField d))) =
      (tr.feedAll solver frames).displaced (Vec3.ofField s) (ofField d) := by
  induction frames generalizing tr with
  | nil => rfl
  | cons f frames ih =>
    rw [List.map_cons, feedAll_cons, feedAll_cons, h.feed_displaced s d solver f,
      ih (h.feed solver f)]

/-- If the world is displaced and the clock is ahead, every frame is refused as before or reports
the same objects, displaced, and the tracks stay as they are. -/
theorem run_displaced {config : Config α} (h : create config = .ok tr) (solver : Solver α)
    (frames : List (Frame α)) :
    let frames' := frames.map (Frame.displaced (Vec3.ofField s) (ofField d))
    answers solver tr frames' =
        (answers solver tr frames).map (Answer.displaced (Vec3.ofField s) (ofField d)) ∧
      (tr.feedAll solver frames').tracks = (tr.feedAll solver frames).tracks := by
  intro frames'
  have hepoch : tr.epoch = none := by rw [(eq_of_create h).1]
  have hfinite : tr.HasFiniteEpoch := by
    refine ⟨⟨[], kept_create h⟩, ?_⟩
    rw [hepoch]
    exact fun e he => nomatch he
  have hsame : tr.displaced (Vec3.ofField s) (ofField d) = tr := by
    rw [(eq_of_create h).1]
    rfl
  have hanswers := hfinite.answers_displaced s d solver frames
  have htracker := hfinite.feedAll_displaced s d solver frames
  rw [hsame] at hanswers htracker
  refine ⟨hanswers, ?_⟩
  rw [htracker]
  rfl

/-- A sensor that drives along lanes which run away from the origin. Between its two frames there
is one without a pose and without a time. -/
theorem run_displaced_lanes :
    let tr : Tracker ExactNumber := ⟨.standard, {}, none⟩
    let f : ℝ → Frame ExactNumber := fun t =>
      ⟨[⟨[⟨.real (2 * t), 1, 0⟩, ⟨.real (2 * t + 1), 1, 0⟩], [], 0, Vec3.forward, 0, .vehicle⟩],
        .real t, ⟨some (Pose.ofOrigin ⟨.real t, 0, 0⟩), some fun p => .ok p⟩⟩
    let frames := [f 0, ⟨[], .notNumber, ⟨none, none⟩⟩, f 1]
    let frames' := frames.map (Frame.displaced (Vec3.ofField ⟨100, -20, 3⟩) (ofField 60))
    answers (Solver.cheapest ExactNumber) tr frames' =
        (answers (Solver.cheapest ExactNumber) tr frames).map
          (Answer.displaced (Vec3.ofField ⟨100, -20, 3⟩) (ofField 60)) ∧
      (tr.feedAll (Solver.cheapest ExactNumber) frames').tracks =
        (tr.feedAll (Solver.cheapest ExactNumber) frames).tracks := by
  intro tr f frames
  exact run_displaced _ _ (create_standard ℝ) (Solver.cheapest ExactNumber) frames

end Tracker

end ObstacleTracking
