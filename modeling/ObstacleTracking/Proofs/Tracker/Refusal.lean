import ObstacleTracking.Proofs.Scalar.Shifts
import ObstacleTracking.Proofs.Tracker.Frames

/-!
# Refused frames

A frame is refused for the first fault of its timestamp and its pose, and for nothing else. All
checks come before the first change of the tracker, so a run without its refused frames gives the
same reports and ends with the same tracker. No law of the arithmetic is used, and the tracker may
be in any state.
-/

namespace ObstacleTracking.Tracker

variable {α : Type} [Scalar α]

/-! ### Faults -/

/-- What is wrong with a frame. A fault counts if those that are looked for before are absent. -/
inductive Frame.Faulty (f : Frame α) : FrameError α → Prop
  | timestamp (htimestamp : Scalar.isFinite f.timestamp = false) :
      f.Faulty (.invalidTimestamp f.timestamp)
  | noPose (htimestamp : Scalar.isFinite f.timestamp = true) (hpose : f.options.pose = none) :
      f.Faulty (.missingPose f.timestamp)
  | entry (htimestamp : Scalar.isFinite f.timestamp = true) {pose : Pose α}
      (hpose : f.options.pose = some pose) (i j : Fin 4)
      (hentry : Scalar.isFinite (pose.get i j) = false) :
      f.Faulty (.invalidPose f.timestamp)

/-- The timestamp is finite, and there is a pose of finite entries. -/
def Frame.isSound (f : Frame α) : Bool :=
  Scalar.isFinite f.timestamp && f.options.pose.any Mat.isFinite

namespace Frame

variable {f : Frame α} {e : FrameError α}

theorem isSound_iff : f.isSound = true ↔ ∃ pose, f.options.accept f.timestamp = .ok pose := by
  unfold isSound
  rw [Bool.and_eq_true, Option.any_eq_true]
  simp only [FrameOptions.accept_eq_ok_iff, exists_and_left]

theorem exists_entry_of_not_isFinite {pose : Pose α} (h : pose.isFinite ≠ true) :
    ∃ i j, Scalar.isFinite (pose.get i j) = false := by
  rw [ne_eq, Mat.isFinite_iff] at h
  simpa using h

/-- The checks report a fault exactly if the frame has it. -/
theorem accept_eq_error_iff : f.options.accept f.timestamp = .error e ↔ f.Faulty e := by
  constructor
  · intro h
    unfold FrameOptions.accept at h
    split at h
    case isFalse htimestamp =>
      cases h
      exact .timestamp (Bool.eq_false_iff.mpr htimestamp)
    case isTrue htimestamp =>
      split at h
      case h_1 hpose =>
        cases h
        exact .noPose htimestamp hpose
      case h_2 pose hpose =>
        split at h
        case isTrue => cases h
        case isFalse hfinite =>
          cases h
          obtain ⟨i, j, hentry⟩ := exists_entry_of_not_isFinite hfinite
          exact .entry htimestamp hpose i j hentry
  · intro h
    unfold FrameOptions.accept
    cases h with
    | timestamp htimestamp => rw [if_neg (Bool.eq_false_iff.mp htimestamp)]
    | noPose htimestamp hpose => rw [if_pos htimestamp, hpose]
    | @entry htimestamp pose hpose i j hentry =>
      have hfinite : ¬ pose.isFinite = true := by
        intro hall
        rw [Mat.isFinite_iff.mp hall i j] at hentry
        cases hentry
      rw [if_pos htimestamp, hpose]
      exact if_neg hfinite

theorem isSound_eq_false_iff : f.isSound = false ↔ ∃ e, f.Faulty e := by
  simp only [← accept_eq_error_iff]
  rw [← Bool.not_eq_true, isSound_iff]
  cases f.options.accept f.timestamp <;> simp

theorem not_isSound_of_refuse (h : f.options.accept f.timestamp = .error e) : f.isSound = false :=
  isSound_eq_false_iff.mpr ⟨e, accept_eq_error_iff.mp h⟩

end Frame

/-! ### One frame -/

variable (solver : Solver α) (tr : Tracker α) {f : Frame α}

theorem feed_of_faulty {e : FrameError α} (h : f.Faulty e) : tr.feed solver f = (tr, .error e) :=
  feed_of_refuse solver tr (Frame.accept_eq_error_iff.mpr h)

theorem exists_report_of_isSound (h : f.isSound = true) :
    ∃ report, (tr.feed solver f).2 = .ok report := by
  obtain ⟨pose, hpose⟩ := Frame.isSound_iff.mp h
  unfold feed step
  rw [hpose]
  exact ⟨_, rfl⟩

/-- A frame is refused exactly for its fault. -/
theorem feed_eq_error_iff {e : FrameError α} : (tr.feed solver f).2 = .error e ↔ f.Faulty e := by
  constructor
  · intro h
    cases hsound : f.isSound with
    | true =>
      obtain ⟨report, hreport⟩ := exists_report_of_isSound solver tr hsound
      rw [hreport] at h
      cases h
    | false =>
      obtain ⟨e', he'⟩ := Frame.isSound_eq_false_iff.mp hsound
      rw [feed_of_faulty solver tr he'] at h
      cases h
      exact he'
  · intro h
    rw [feed_of_faulty solver tr h]

/-! ### In place -/

/-- The tracks after an accepted frame. The first one starts them all. -/
def nextTracks (solver : Solver α) (tr : Tracker α) (timestamp : α)
    (observations : List (Observation α)) : TrackSet α :=
  match tr.epoch with
  | none =>
    (tr.tracks.create tr.config.filter tr.config.lifecycle.historyCapacity observations).1
  | some e => advance solver tr.config tr.tracks (timestamp - e.timestamp) observations

/-- A frame processed in place. A failure does not undo what was written before it. -/
def process (solver : Solver α) (f : Frame α) :
    ExceptT (FrameError α) (StateM (Tracker α)) (FrameReport α) := do
  unless Scalar.isFinite f.timestamp do throw (.invalidTimestamp f.timestamp)
  let some pose := f.options.pose | throw (.missingPose f.timestamp)
  unless pose.isFinite do throw (.invalidPose f.timestamp)
  let before ← get
  modify fun tr => { tr with epoch := some (nextEpoch tr.epoch pose f.timestamp) }
  let observations := observe before.config.matching (← get).offset pose f.options.lanes
    f.detections
  modify fun tr => { tr with tracks := before.nextTracks solver f.timestamp observations }
  return (← get).reported f.options.lanes observations

theorem process_eq (f : Frame α) : (process solver f).run.run tr =
    ((tr.feed solver f).2, (tr.feed solver f).1) := by
  unfold process feed step FrameOptions.accept
  by_cases htimestamp : Scalar.isFinite f.timestamp = true
  · rw [if_pos htimestamp, if_pos htimestamp]
    cases hpose : f.options.pose with
    | none => rfl
    | some pose =>
      by_cases hfinite : pose.isFinite = true
      · dsimp only
        rw [if_pos hfinite, if_pos hfinite]
        rfl
      · dsimp only
        rw [if_neg hfinite, if_neg hfinite]
        rfl
  · rw [if_neg htimestamp, if_neg htimestamp]
    rfl

/-! ### Runs -/

/-- Frames processed in place one after the other, each with its answer. -/
def processAll (solver : Solver α) : List (Frame α) → StateM (Tracker α) (List (Answer α))
  | [] => return []
  | f :: frames => do
    let answer ← (process solver f).run
    let answers ← processAll solver frames
    return answer :: answers

theorem processAll_eq (frames : List (Frame α)) :
    (processAll solver frames).run tr = (answers solver tr frames, tr.feedAll solver frames) := by
  induction frames generalizing tr with
  | nil => rfl
  | cons f frames ih =>
    have hcons : (processAll solver (f :: frames)).run tr =
        let first := (process solver f).run.run tr
        let rest := (processAll solver frames).run first.2
        (first.1 :: rest.1, rest.2) := rfl
    rw [hcons, process_eq]
    dsimp only
    rw [ih, answers, feedAll_cons]

theorem feedAll_filter_isSound (frames : List (Frame α)) :
    tr.feedAll solver (frames.filter Frame.isSound) = tr.feedAll solver frames := by
  induction frames generalizing tr with
  | nil => rfl
  | cons f frames ih =>
    cases hsound : f.isSound with
    | true =>
      rw [List.filter_cons_of_pos hsound, feedAll_cons, feedAll_cons]
      exact ih _
    | false =>
      obtain ⟨e, he⟩ := Frame.isSound_eq_false_iff.mp hsound
      rw [List.filter_cons_of_neg (Bool.eq_false_iff.mp hsound), feedAll_cons,
        feed_of_faulty solver tr he]
      exact ih tr

theorem answers_filter_isSound (frames : List (Frame α)) :
    answers solver tr (frames.filter Frame.isSound) =
      (answers solver tr frames).filter Except.isOk := by
  induction frames generalizing tr with
  | nil => rfl
  | cons f frames ih =>
    cases hsound : f.isSound with
    | true =>
      obtain ⟨report, hreport⟩ := exists_report_of_isSound solver tr hsound
      rw [List.filter_cons_of_pos hsound, answers, answers, hreport,
        List.filter_cons_of_pos rfl, ih]
    | false =>
      obtain ⟨e, he⟩ := Frame.isSound_eq_false_iff.mp hsound
      rw [List.filter_cons_of_neg (Bool.eq_false_iff.mp hsound), answers,
        feed_of_faulty solver tr he, List.filter_cons_of_neg Bool.false_ne_true]
      exact ih tr

/-- Refused frames leave no trace. They are those with a fault, and without them the other frames
have the same answers and leave the same tracker, also if the tracker is written in place. -/
theorem run_without_refused (frames : List (Frame α)) :
    (∀ f e, (tr.feed solver f).2 = .error e ↔ f.Faulty e) ∧
      (∀ f : Frame α, f.isSound = false ↔ ∃ e, f.Faulty e) ∧
      answers solver tr (frames.filter Frame.isSound) =
        (answers solver tr frames).filter Except.isOk ∧
      tr.feedAll solver (frames.filter Frame.isSound) = tr.feedAll solver frames ∧
      (processAll solver frames).run tr = (answers solver tr frames, tr.feedAll solver frames) := by
  refine ⟨?_, ?_, answers_filter_isSound solver tr frames, feedAll_filter_isSound solver tr frames,
    processAll_eq solver tr frames⟩
  · intro f e
    exact feed_eq_error_iff solver tr
  · intro f
    exact Frame.isSound_eq_false_iff

end ObstacleTracking.Tracker
