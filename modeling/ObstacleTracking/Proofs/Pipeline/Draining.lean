import ObstacleTracking.Pipeline
import ObstacleTracking.Proofs.Tracker.Frames

/-!
# Draining a source

A run pulls sweeps one by one until the source ends or fails. It leaves the tracker that the frames
of those sweeps leave when they are fed one after the other, and it reports what the accepted ones
report. So an end between sweeps only divides the reports between two runs. No law of the arithmetic
is used, and the tracker may be in any state.
-/

namespace ObstacleTracking

variable {ε α : Type}

/-! ### Reports of frames -/

/-- A sweep as the frame that a pipeline feeds to its tracker. -/
def Sweep.frame (lanes : Option (LaneMap α)) (s : Sweep α) : Tracker.Frame α :=
  ⟨s.detections, s.timestamp, ⟨s.pose, lanes⟩⟩

namespace Tracker

variable [Scalar α]

/-- The reports of the accepted frames in order. -/
def reports (solver : Solver α) (tr : Tracker α) (frames : List (Frame α)) :
    List (FrameReport α) :=
  (tr.answers solver frames).filterMap Except.toOption

theorem reports_cons (solver : Solver α) (tr : Tracker α) (f : Frame α) (frames : List (Frame α)) :
    tr.reports solver (f :: frames) =
      (tr.feed solver f).2.toOption.toList ++ (tr.feed solver f).1.reports solver frames := by
  unfold reports
  rw [answers, List.filterMap_cons]
  cases (tr.feed solver f).2 <;> rfl

theorem reports_append (solver : Solver α) (tr : Tracker α) (frames frames' : List (Frame α)) :
    tr.reports solver (frames ++ frames') =
      tr.reports solver frames ++ (tr.feedAll solver frames).reports solver frames' := by
  induction frames generalizing tr with
  | nil => rfl
  | cons f frames ih =>
    rw [List.cons_append, reports_cons, reports_cons, ih, List.append_assoc, feedAll_cons]

theorem feedAll_append (solver : Solver α) (tr : Tracker α) (frames frames' : List (Frame α)) :
    tr.feedAll solver (frames ++ frames') = (tr.feedAll solver frames).feedAll solver frames' :=
  List.foldl_append

end Tracker

namespace Pipeline

/-! ### Runs and where they stop -/

/-- What a run answers: all reports, or the failure of the source alone. -/
def Run.outcome (run : Run ε α) : Except ε (List (FrameReport α)) :=
  run.failure.elim (.ok run.reports) .error

/-- The run with reports from before it. -/
def Run.after (reports : List (FrameReport α)) (run : Run ε α) : Run ε α :=
  { run with reports := reports ++ run.reports }

/-- A run over some answers stops at the first of them, or because there are none, with a failure or
without, and leaves the others. -/
inductive Stops : List (SourceAnswer ε α) → Option ε → List (SourceAnswer ε α) → Prop
  | exhausted : Stops [] none []
  | ended (left : List (SourceAnswer ε α)) : Stops (.ended :: left) none left
  | failed (e : ε) (left : List (SourceAnswer ε α)) : Stops (.failed e :: left) (some e) left

/-- Every source gives some sweeps before a run stops. -/
theorem exists_stops (source : List (SourceAnswer ε α)) :
    ∃ (sweeps : List (Sweep α)) (ending : _) (failure : _) (left : _),
      source = sweeps.map .sweep ++ ending ∧ Stops ending failure left := by
  induction source with
  | nil => exact ⟨[], [], none, [], rfl, .exhausted⟩
  | cons answer source ih =>
    cases answer with
    | sweep s =>
      obtain ⟨sweeps, ending, failure, left, rfl, hstops⟩ := ih
      exact ⟨s :: sweeps, ending, failure, left, rfl, hstops⟩
    | ended => exact ⟨[], .ended :: source, none, source, rfl, .ended source⟩
    | failed e => exact ⟨[], .failed e :: source, some e, source, rfl, .failed e source⟩

variable [Scalar α]

/-! ### One pull -/

/-- A run goes on after a report and after a refused frame, and it stops where a pull says so. -/
theorem runToEnd_eq_next (solver : Solver α) (p : Pipeline ε α) :
    p.runToEnd solver =
      match p.next solver with
      | (.ok (some report), p') =>
        let rest := p'.runToEnd solver
        (rest.1.after [report], rest.2)
      | (.error (.frame _), p') => p'.runToEnd solver
      | (.ok none, p') => (⟨[], none, p'.tracker, p'.source⟩, p')
      | (.error (.source e), p') => (⟨[], some e, p'.tracker, p'.source⟩, p') := by
  obtain ⟨tracker, source, lanes⟩ := p
  cases source with
  | nil => rfl
  | cons answer source =>
    cases answer with
    | ended => rfl
    | failed e => rfl
    | sweep s =>
      unfold runToEnd next
      simp only [drain]
      cases track solver lanes tracker s <;> rfl

/-- A pull of a sweep feeds its frame to the tracker. -/
theorem next_sweep (solver : Solver α) (tracker : Tracker α) (lanes : Option (LaneMap α))
    (s : Sweep α) (source : List (SourceAnswer ε α)) :
    next solver ⟨tracker, .sweep s :: source, lanes⟩ =
      (((tracker.feed solver (s.frame lanes)).2.mapError .frame).map some,
        ⟨(tracker.feed solver (s.frame lanes)).1, source, lanes⟩) := by
  unfold next track Tracker.feed Sweep.frame
  dsimp only
  cases tracker.step solver s.detections s.timestamp ⟨s.pose, lanes⟩ <;> rfl

theorem runToEnd_sweep (solver : Solver α) (tracker : Tracker α) (lanes : Option (LaneMap α))
    (s : Sweep α) (source : List (SourceAnswer ε α)) :
    let first := tracker.feed solver (s.frame lanes)
    let rest := runToEnd solver ⟨first.1, source, lanes⟩
    runToEnd solver ⟨tracker, .sweep s :: source, lanes⟩ =
      (rest.1.after first.2.toOption.toList, rest.2) := by
  intro first rest
  rw [runToEnd_eq_next, next_sweep]
  cases first.2 with
  | ok report => rfl
  | error e => rfl

/-! ### Runs -/

/-- Sweeps are fed one after the other, and the run goes on with what follows them. -/
theorem runToEnd_append (solver : Solver α) (tracker : Tracker α) (lanes : Option (LaneMap α))
    (sweeps : List (Sweep α)) (source : List (SourceAnswer ε α)) :
    let frames := sweeps.map (Sweep.frame lanes)
    let rest := runToEnd solver ⟨tracker.feedAll solver frames, source, lanes⟩
    runToEnd solver ⟨tracker, sweeps.map .sweep ++ source, lanes⟩ =
      (rest.1.after (tracker.reports solver frames), rest.2) := by
  induction sweeps generalizing tracker with
  | nil => rfl
  | cons s sweeps ih =>
    intro frames rest
    rw [List.map_cons, List.cons_append, runToEnd_sweep, ih]
    have hreports : tracker.reports solver frames =
        (tracker.feed solver (s.frame lanes)).2.toOption.toList ++
          (tracker.feed solver (s.frame lanes)).1.reports solver (sweeps.map (Sweep.frame lanes)) :=
      Tracker.reports_cons solver tracker _ _
    rw [hreports]
    unfold Run.after
    rw [List.append_assoc]
    rfl

/-- A run that stops right away uses up what stops it. -/
theorem runToEnd_stops {ending left : List (SourceAnswer ε α)} {failure : Option ε}
    (h : Stops ending failure left) (solver : Solver α) (tracker : Tracker α)
    (lanes : Option (LaneMap α)) :
    runToEnd solver ⟨tracker, ending, lanes⟩ =
      (⟨[], failure, tracker, left⟩, ⟨tracker, left, lanes⟩) := by
  cases h with
  | exhausted => rfl
  | ended left => rfl
  | failed e left => rfl

theorem runToEnd_eq {ending left : List (SourceAnswer ε α)} {failure : Option ε}
    (h : Stops ending failure left) (solver : Solver α) (tracker : Tracker α)
    (lanes : Option (LaneMap α)) (sweeps : List (Sweep α)) :
    let frames := sweeps.map (Sweep.frame lanes)
    runToEnd solver ⟨tracker, sweeps.map .sweep ++ ending, lanes⟩ =
      (⟨tracker.reports solver frames, failure, tracker.feedAll solver frames, left⟩,
        ⟨tracker.feedAll solver frames, left, lanes⟩) := by
  intro frames
  rw [runToEnd_append, runToEnd_stops h]
  unfold Run.after
  rw [List.append_nil]

/-- Draining a source is feeding its sweeps up to where it ends or fails. An end between sweeps
changes nothing but that the reports come in two runs. -/
theorem runToEnd_eq_feedAll (solver : Solver α) :
    (∀ p : Pipeline ε α, ∃ (sweeps : List (Sweep α)) (ending : _) (failure : _) (left : _),
      p.source = sweeps.map .sweep ++ ending ∧ Stops ending failure left ∧
        let frames := sweeps.map (Sweep.frame p.lanes)
        (p.runToEnd solver).1.outcome =
            failure.elim (.ok (p.tracker.reports solver frames)) .error ∧
          (p.runToEnd solver).2 =
            { p with tracker := p.tracker.feedAll solver frames, source := left }) ∧
    ∀ (tracker : Tracker α) (lanes : Option (LaneMap α)) (first second : List (Sweep α))
      (left : List (SourceAnswer ε α)),
      let later : List (SourceAnswer ε α) := second.map .sweep ++ .ended :: left
      let run := runToEnd solver ⟨tracker, first.map .sweep ++ .ended :: later, lanes⟩
      let run' := run.2.runToEnd solver
      let whole := runToEnd solver ⟨tracker, first.map .sweep ++ later, lanes⟩
      ∃ outputs outputs', run.1.outcome = .ok outputs ∧ run'.1.outcome = .ok outputs' ∧
        whole.1.outcome = .ok (outputs ++ outputs') ∧ run'.2 = whole.2 := by
  refine ⟨?_, ?_⟩
  · intro p
    obtain ⟨tracker, source, lanes⟩ := p
    obtain ⟨sweeps, ending, failure, left, rfl, hstops⟩ := exists_stops source
    refine ⟨sweeps, ending, failure, left, rfl, hstops, ?_⟩
    rw [runToEnd_eq hstops]
    exact ⟨rfl, rfl⟩
  · intro tracker lanes first second left later run run' whole
    let frames := first.map (Sweep.frame lanes)
    let frames' := second.map (Sweep.frame lanes)
    have hrun : run = (⟨tracker.reports solver frames, none, tracker.feedAll solver frames, later⟩,
        ⟨tracker.feedAll solver frames, later, lanes⟩) :=
      runToEnd_eq (.ended later) solver tracker lanes first
    have hrun' : run' = (⟨(tracker.feedAll solver frames).reports solver frames', none,
          (tracker.feedAll solver frames).feedAll solver frames', left⟩,
        ⟨(tracker.feedAll solver frames).feedAll solver frames', left, lanes⟩) := by
      show run.2.runToEnd solver = _
      rw [hrun]
      exact runToEnd_eq (.ended left) solver _ lanes second
    have hwhole : whole = (⟨tracker.reports solver (frames ++ frames'), none,
          tracker.feedAll solver (frames ++ frames'), left⟩,
        ⟨tracker.feedAll solver (frames ++ frames'), left, lanes⟩) := by
      have heq := runToEnd_eq (.ended left) solver tracker lanes (first ++ second)
      rw [List.map_append, List.map_append, List.append_assoc] at heq
      exact heq
    refine ⟨tracker.reports solver frames, (tracker.feedAll solver frames).reports solver frames',
      ?_, ?_, ?_, ?_⟩
    · rw [hrun]
      rfl
    · rw [hrun']
      rfl
    · rw [hwhole, Tracker.reports_append]
      rfl
    · rw [hrun', hwhole, Tracker.feedAll_append]

end Pipeline

end ObstacleTracking
