import ObstacleTracking.Proofs.Tracker.Groups

/-!
# Isolated groups

One frame after another, the tracks of a group and what is reported of them are those of a tracker
that is fed this group alone, as long as no gated pair joins the groups.
-/

namespace ObstacleTracking

namespace Tracker

variable {α : Type} [Scalar α]

/-! ### Ids do not matter -/

theorem anonymous_follow (c : Config α) (dt : α) (t : Track α) (m : Option (Observation α × α)) :
    (follow c dt t m).anonymous = follow c dt t.anonymous m := by
  cases m <;> rfl

theorem startAll_eq_mapIdx (c : Config α) (lastId : ℕ) (os : List (Observation α)) :
    startAll c lastId os =
      os.mapIdx fun k o => Track.start c.filter c.lifecycle.historyCapacity (lastId + 1 + k) o := by
  refine List.ext_getElem? ?_
  intro k
  rw [List.getElem?_mapIdx]
  cases ho : os[k]? with
  | none =>
    rw [Option.map_none, List.getElem?_eq_none]
    rw [length_startAll]
    exact List.getElem?_eq_none_iff.mp ho
  | some o => rw [getElem?_startAll c lastId ho, Option.map_some]

theorem anonymous_startAll (c : Config α) (lastId : ℕ) (os : List (Observation α)) :
    (startAll c lastId os).map Track.anonymous =
      os.map (Track.start c.filter c.lifecycle.historyCapacity 0) := by
  rw [startAll_eq_mapIdx]
  refine List.ext_getElem? ?_
  intro k
  rw [List.getElem?_map, List.getElem?_mapIdx, List.getElem?_map, Option.map_map]
  rfl

namespace Split

variable {solver : Solver α} {s : Split α} {g : Bool} {tr : Tracker α} {f : SplitFrame α}
  {pose : Pose α}

/-! ### Tracks that are followed -/

theorem Mirrors.followed_eq (h : s.Mirrors g tr) (hapart : s.IsApart solver f)
    (haccept : f.options.accept f.timestamp = .ok pose) (c : Config α) (dt : α) :
    ((followAll c dt (s.observed f pose) (s.assigned solver f pose)
        s.tracker.tracks.tracks.toList).filter fun t => s.groupOf t.id == some g).map
          Track.anonymous =
      (followAll c dt (observedPart tr g f pose) (assignedPart solver tr g f pose)
        tr.tracks.tracks.toList).map Track.anonymous := by
  have hgroup : ∀ (i : ℕ) (t : Track α), s.tracker.tracks.tracks.toList[i]? = some t →
      (s.groupOf (follow c dt t (matchOf? (s.observed f pose) (s.assigned solver f pose) i)).id ==
        some g) = (s.groupOf t.id == some g) := by
    intro i t _
    rw [id_follow]
  unfold followAll
  rw [filter_mapIdx hgroup]
  refine List.ext_getElem? ?_
  intro k
  rw [List.getElem?_map, List.getElem?_mapIdx, List.getElem?_map, List.getElem?_mapIdx,
    getElem?_filter]
  have htrack := h.track_eq k
  cases hu : tr.tracks.tracks.toList[k]? with
  | none =>
    rw [hu, Option.map_none] at htrack
    have hnone := Option.map_eq_none_iff.mp htrack.symm
    unfold mask at hnone
    rw [hnone]
    simp only [Option.map_none]
  | some u =>
    rw [hu, Option.map_some] at htrack
    obtain ⟨t, ht, hanonymous⟩ := Option.map_eq_some_iff.mp htrack.symm
    have hmatch := h.matchOf?_eq hapart haccept (List.getElem?_eq_some_iff.mp hu).1
    unfold mask at ht hmatch
    rw [ht, hmatch]
    simp only [Option.map_some, anonymous_follow, hanonymous]

/-! ### Tracks that are started -/

/-- What is left over of a whole frame, with the groups. -/
def leftOver (solver : Solver α) (s : Split α) (f : SplitFrame α) (pose : Pose α) :
    List (Bool × Observation α) :=
  (s.assigned solver f pose).1.unmatchedDetections.filterMap fun j =>
    ((f.detections.map Prod.fst).zip (s.observed f pose))[j]?

theorem length_labels (s : Split α) (f : SplitFrame α) (pose : Pose α) :
    (f.detections.map Prod.fst).length = (s.observed f pose).length := by
  rw [observed, length_observed, SplitFrame.whole, List.length_map, List.length_map]

theorem map_snd_leftOver (solver : Solver α) (s : Split α) (f : SplitFrame α) (pose : Pose α) :
    (s.leftOver solver f pose).map Prod.snd =
      Tracker.leftOver (s.observed f pose) (s.assigned solver f pose) := by
  unfold leftOver Tracker.leftOver
  rw [List.map_filterMap]
  simp only [← List.getElem?_map, List.map_snd_zip (length_labels s f pose).ge]

theorem map_fst_leftOver (solver : Solver α) (s : Split α) (f : SplitFrame α) (pose : Pose α) :
    (s.leftOver solver f pose).map Prod.fst =
      (s.assigned solver f pose).1.unmatchedDetections.filterMap fun j =>
        f.detections[j]?.map Prod.fst := by
  unfold leftOver
  rw [List.map_filterMap]
  simp only [← List.getElem?_map, List.map_fst_zip (length_labels s f pose).le]

theorem filter_labelled (s : Split α) (g : Bool) (f : SplitFrame α) (pose : Pose α) (j : ℕ) :
    (((f.detections.map Prod.fst).zip (s.observed f pose))[j]?).filter (fun p => p.1 == g) =
      if (f.mask g).getD j false = true then
        ((f.detections.map Prod.fst).zip (s.observed f pose))[j]? else none := by
  cases hp : ((f.detections.map Prod.fst).zip (s.observed f pose))[j]? with
  | none => simp
  | some p =>
    have hd := (List.getElem?_zip_eq_some.mp hp).1
    rw [List.getElem?_map, Option.map_eq_some_iff] at hd
    obtain ⟨d, hd, hlabel⟩ := hd
    rw [getD_mask_detection hd, hlabel, Option.filter_some]

/-- What is left over of a group is left over when it is fed alone. -/
theorem Mirrors.leftOver_eq (h : s.Mirrors g tr) (hapart : s.IsApart solver f)
    (haccept : f.options.accept f.timestamp = .ok pose) :
    ((s.leftOver solver f pose).filter fun p => p.1 == g).map Prod.snd =
      Tracker.leftOver (observedPart tr g f pose) (assignedPart solver tr g f pose) := by
  have hsnd : (fun j : ℕ => (((f.detections.map Prod.fst).zip (s.observed f pose))[j]?).map
      Prod.snd) = fun j : ℕ => (s.observed f pose)[j]? := by
    funext j
    rw [← List.getElem?_map, List.map_snd_zip (length_labels s f pose).ge]
  unfold leftOver Tracker.leftOver
  rw [List.filter_filterMap]
  simp only [filter_labelled]
  rw [← List.filterMap_filter, List.map_filterMap, hsnd, h.unmatchedDetections_eq hapart haccept,
    List.filterMap_map]
  refine List.filterMap_congr ?_
  intro k _
  exact (h.observation_eq f pose k).symm

omit [Scalar α] in
theorem groupOf_append (s : Split α) (l : List Bool) {id : ℕ} (h : id ≤ s.groups.length) :
    (Split.mk s.tracker (s.groups ++ l)).groupOf id = s.groupOf id := by
  cases id with
  | zero => rfl
  | succ n => exact List.getElem?_append_left h

theorem Mirrors.started_eq (h : s.Mirrors g tr) (hapart : s.IsApart solver f)
    (haccept : f.options.accept f.timestamp = .ok pose) (c : Config α) :
    ((startAll c s.tracker.tracks.lastId (Tracker.leftOver (s.observed f pose)
        (s.assigned solver f pose))).filter fun t =>
          (Split.mk s.tracker (s.groups ++ (s.leftOver solver f pose).map Prod.fst)).groupOf t.id ==
            some g).map Track.anonymous =
      (startAll c tr.tracks.lastId (Tracker.leftOver (observedPart tr g f pose)
        (assignedPart solver tr g f pose))).map Track.anonymous := by
  rw [anonymous_startAll, ← h.leftOver_eq hapart haccept, ← map_snd_leftOver, startAll_eq_mapIdx,
    List.map_map]
  have hstart : ((s.leftOver solver f pose).map Prod.snd).mapIdx (fun k o =>
      Track.start c.filter c.lifecycle.historyCapacity (s.tracker.tracks.lastId + 1 + k) o) =
      (s.leftOver solver f pose).mapIdx fun k p =>
        Track.start c.filter c.lifecycle.historyCapacity (s.tracker.tracks.lastId + 1 + k) p.2 := by
    refine List.ext_getElem? ?_
    intro k
    rw [List.getElem?_mapIdx, List.getElem?_map, List.getElem?_mapIdx, Option.map_map]
    rfl
  rw [hstart]
  refine map_filter_mapIdx ?_ fun _ _ => rfl
  intro k p hp
  have hid : s.tracker.tracks.lastId + 1 + k = (s.groups.length + k) + 1 := by
    rw [h.length_groups]
    omega
  show ((Split.mk s.tracker _).groupOf (s.tracker.tracks.lastId + 1 + k) == some g) = _
  rw [hid]
  show ((s.groups ++ (s.leftOver solver f pose).map Prod.fst)[s.groups.length + k]? == some g) = _
  rw [List.getElem?_append_right (Nat.le_add_right _ k), Nat.add_sub_cancel_left,
    List.getElem?_map, hp]
  rfl

/-! ### One frame -/

theorem id_le_of_mem_followAll {c : Config α} {dt : α} {observations : List (Observation α)}
    {run : Assignment × CostMatrix α} {tracks : List (Track α)} {n : ℕ}
    (h : ∀ t ∈ tracks, t.id ≤ n) : ∀ t ∈ followAll c dt observations run tracks, t.id ≤ n := by
  intro t' ht'
  obtain ⟨i, hi, rfl⟩ := List.mem_mapIdx.mp ht'
  rw [id_follow]
  exact h _ (List.getElem_mem hi)

theorem map_anonymous_filter (c : LifecycleConfig α) (tracks : List (Track α)) :
    (tracks.filter fun t => !TrackSet.isExpired c t).map Track.anonymous =
      (tracks.map Track.anonymous).filter fun t => !TrackSet.isExpired c t := by
  rw [List.filter_map]
  rfl

/-- The tracks of the group after a frame are those of the part. -/
theorem Mirrors.advanced_eq (h : s.Mirrors g tr) (hapart : s.IsApart solver f)
    (haccept : f.options.accept f.timestamp = .ok pose) (c : Config α) (dt : α) :
    ((advanced c dt (s.observed f pose) (s.assigned solver f pose)
        s.tracker.tracks).tracks.toList.filter fun t =>
          (Split.mk s.tracker (s.groups ++ (s.leftOver solver f pose).map Prod.fst)).groupOf t.id ==
            some g).map Track.anonymous =
      (advanced c dt (observedPart tr g f pose) (assignedPart solver tr g f pose)
        tr.tracks).tracks.toList.map Track.anonymous := by
  obtain ⟨seen, hkept⟩ := h.kept
  have hold : (followAll c dt (s.observed f pose) (s.assigned solver f pose)
      s.tracker.tracks.tracks.toList).filter (fun t =>
        (Split.mk s.tracker (s.groups ++ (s.leftOver solver f pose).map Prod.fst)).groupOf t.id ==
          some g) =
      (followAll c dt (s.observed f pose) (s.assigned solver f pose)
        s.tracker.tracks.tracks.toList).filter fun t => s.groupOf t.id == some g := by
    refine List.filter_congr ?_
    intro t ht
    have hid := id_le_of_mem_followAll hkept.id_le t ht
    rw [← h.length_groups] at hid
    rw [groupOf_append s _ hid]
  unfold advanced
  rw [List.toList_toArray, List.toList_toArray, List.filter_append, List.map_append,
    List.map_append, h.started_eq hapart haccept c, List.filter_comm, hold, map_anonymous_filter,
    map_anonymous_filter, h.followed_eq hapart haccept c dt]

theorem feed_of_refuse (solver : Solver α) (s : Split α) {f : SplitFrame α} {e : FrameError α}
    (h : f.options.accept f.timestamp = .error e) : s.feed solver f = s := by
  have htracker : s.tracker.feed solver f.whole = (s.tracker, .error e) :=
    Tracker.feed_of_refuse solver s.tracker h
  unfold feed
  rw [h, htracker]

theorem feed_of_accept (hkept : ∃ seen, Kept seen s.tracker) (solver : Solver α)
    (h : f.options.accept f.timestamp = .ok pose) :
    s.feed solver f =
      ⟨s.tracker.accepted solver f.whole.detections f.timestamp pose f.options.lanes,
        s.groups ++ (s.leftOver solver f pose).map Prod.fst⟩ := by
  obtain ⟨seen, hkept⟩ := hkept
  have htracker := hkept.feed_of_accept solver (f := f.whole) h
  unfold feed
  rw [h, htracker, map_fst_leftOver]
  rfl

/-- A group stays mirrored in a frame that does not join the groups. -/
theorem Mirrors.feed (h : s.Mirrors g tr) (hapart : s.IsApart solver f) :
    (s.feed solver f).Mirrors g (tr.feed solver (f.part g)).1 := by
  cases haccept : f.options.accept f.timestamp with
  | error e =>
    have htracker : tr.feed solver (f.part g) = (tr, .error e) :=
      Tracker.feed_of_refuse solver tr haccept
    rw [feed_of_refuse solver s haccept, htracker]
    exact h
  | ok pose =>
    obtain ⟨seen, hkept⟩ := h.kept
    obtain ⟨seen', hkept'⟩ := h.kept_part
    have htracker := hkept'.feed_of_accept solver (f := f.part g) haccept
    have hwhole := hkept.feed solver f.whole
    have hpart := hkept'.feed solver (f.part g)
    rw [hkept.feed_of_accept solver (f := f.whole) haccept] at hwhole
    rw [htracker] at hpart ⊢
    rw [feed_of_accept h.kept solver haccept]
    constructor
    · exact hwhole
    · exact hpart
    · exact h.config_eq
    · show some (nextEpoch tr.epoch pose f.timestamp) =
        some (nextEpoch s.tracker.epoch pose f.timestamp)
      rw [h.epoch_eq]
    · show (s.groups ++ (s.leftOver solver f pose).map Prod.fst).length =
        s.tracker.tracks.lastId +
          (Tracker.leftOver (s.observed f pose) (s.assigned solver f pose)).length
      rw [List.length_append, h.length_groups, List.length_map, ← map_snd_leftOver, List.length_map]
    · have hadvanced := h.advanced_eq hapart haccept s.tracker.config
        (s.tracker.elapsed f.timestamp)
      show ((advanced s.tracker.config (s.tracker.elapsed f.timestamp) (s.observed f pose)
          (s.assigned solver f pose) s.tracker.tracks).tracks.toList.filter _).map _ =
        (advanced tr.config (tr.elapsed f.timestamp) (observedPart tr g f pose)
          (assignedPart solver tr g f pose) tr.tracks).tracks.toList.map _
      rw [h.config_eq, h.elapsed_eq]
      exact hadvanced

/-! ### Reports -/

/-- What is reported of a group is what the tracker that mirrors it reports. -/
theorem Mirrors.objects_eq (h : s.Mirrors g tr) (lanes : Option (LaneMap α))
    (observations observations' : List (Observation α)) :
    ((s.tracker.reported lanes observations).objects.filter fun o =>
        s.groupOf o.id == some g).map TrackedObject.anonymous =
      (tr.reported lanes observations').objects.map TrackedObject.anonymous := by
  have hoffset : tr.offset = s.tracker.offset := by
    unfold offset
    rw [h.epoch_eq]
  have hobjects : ∀ (c : LifecycleConfig α) (offset : Vec3 α) (tracks : List (Track α)),
      ((tracks.filter (Track.isReported c)).map (TrackedObject.ofTrack offset)).map
        TrackedObject.anonymous =
      ((tracks.map Track.anonymous).filter (Track.isReported c)).map
        (TrackedObject.ofTrack offset) := by
    intro c offset tracks
    rw [List.filter_map, List.map_map, List.map_map]
    rfl
  unfold reported TrackSet.report
  rw [h.config_eq, hoffset]
  dsimp only
  rw [hobjects, ← h.tracks_eq, ← hobjects, List.filter_map]
  congr 2
  rw [tracksOf, List.filter_comm]
  rfl

theorem feed_answer_eq (h : s.Mirrors g tr) (hapart : s.IsApart solver f) :
    ((s.tracker.feed solver f.whole).2.map fun report =>
      (report.objects.filter fun o => (s.feed solver f).groupOf o.id == some g).map
        TrackedObject.anonymous) =
      (tr.feed solver (f.part g)).2.map fun report =>
        report.objects.map TrackedObject.anonymous := by
  have hmirrors := h.feed hapart
  cases haccept : f.options.accept f.timestamp with
  | error e =>
    have hwhole : s.tracker.feed solver f.whole = (s.tracker, .error e) :=
      Tracker.feed_of_refuse solver s.tracker haccept
    have hpart : tr.feed solver (f.part g) = (tr, .error e) :=
      Tracker.feed_of_refuse solver tr haccept
    rw [hwhole, hpart]
    rfl
  | ok pose =>
    obtain ⟨seen, hkept⟩ := h.kept
    obtain ⟨seen', hkept'⟩ := h.kept_part
    rw [feed_of_accept h.kept solver haccept,
      hkept'.feed_of_accept solver (f := f.part g) haccept] at hmirrors
    rw [feed_of_accept h.kept solver haccept, hkept.feed_of_accept solver (f := f.whole) haccept,
      hkept'.feed_of_accept solver (f := f.part g) haccept]
    exact congrArg Except.ok (hmirrors.objects_eq _ _ _)

/-! ### Runs -/

theorem mirrors_create {config : Config α} (h : create config = .ok tr) (g : Bool) :
    (Split.mk tr []).Mirrors g tr := by
  have hkept := kept_create h
  obtain ⟨rfl, -⟩ := eq_of_create h
  exact ⟨⟨[], hkept⟩, ⟨[], hkept⟩, rfl, rfl, rfl, rfl⟩

theorem Mirrors.feedAll (h : s.Mirrors g tr) {frames : List (SplitFrame α)}
    (hapart : s.StaysApart solver frames) :
    (s.feedAll solver frames).Mirrors g (tr.feedAll solver (frames.map (SplitFrame.part g))) ∧
      s.answersOf solver g frames =
        (tr.answers solver (frames.map (SplitFrame.part g))).map fun answer =>
          answer.map fun report => report.objects.map TrackedObject.anonymous := by
  -- the groups stay apart as the whole goes on, so the part is mirrored when each frame comes
  induction frames generalizing s tr with
  | nil => exact ⟨h, rfl⟩
  | cons f frames ih =>
    obtain ⟨hfirst, hlater⟩ := hapart
    obtain ⟨hmirrors, hanswers⟩ := ih (h.feed hfirst) hlater
    refine ⟨hmirrors, ?_⟩
    rw [answersOf, List.map_cons, answers, List.map_cons, ← hanswers, feed_answer_eq h hfirst]

theorem tracker_feedAll (solver : Solver α) (s : Split α) (frames : List (SplitFrame α)) :
    (s.feedAll solver frames).tracker = s.tracker.feedAll solver (frames.map SplitFrame.whole) := by
  induction frames generalizing s with
  | nil => rfl
  | cons f frames ih => exact ih (s.feed solver f)

end Split

/-- Groups that no gated pair joins do not see each other: the tracks of a group, and what is
reported of it, are those of a tracker that is fed the group alone, apart from their ids. -/
theorem feedAll_isolated {config : Config α} {tr : Tracker α} (h : create config = .ok tr)
    (solver : Solver α) (g : Bool) (frames : List (SplitFrame α))
    (hapart : (Split.mk tr []).StaysApart solver frames) :
    ((Split.mk tr []).feedAll solver frames).tracker =
        tr.feedAll solver (frames.map SplitFrame.whole) ∧
      (((Split.mk tr []).feedAll solver frames).tracksOf g).map Track.anonymous =
        (tr.feedAll solver (frames.map (SplitFrame.part g))).tracks.tracks.toList.map
          Track.anonymous ∧
      (Split.mk tr []).answersOf solver g frames =
        (tr.answers solver (frames.map (SplitFrame.part g))).map fun answer =>
          answer.map fun report => report.objects.map TrackedObject.anonymous := by
  obtain ⟨hmirrors, hanswers⟩ := (Split.mirrors_create h g).feedAll hapart
  exact ⟨Split.tracker_feedAll solver _ frames, hmirrors.tracks_eq, hanswers⟩

section Example

attribute [local instance] ExactRoots.real

/-- Two vehicles of different groups a hundred meters apart. -/
noncomputable def farApart : SplitFrame ℝ :=
  ⟨[(true, ahead 0), (false, ahead 100)], 0, ⟨some Mat.identity, none⟩⟩

/-- The same, detected in the other order. -/
noncomputable def farApartAgain : SplitFrame ℝ :=
  ⟨[(false, ahead 100), (true, ahead 0)], 1, ⟨some Mat.identity, none⟩⟩

theorem feed_farApart (solver : Solver ℝ) :
    (Split.mk ⟨.standard, {}, none⟩ []).feed solver farApart =
      ⟨parked .standard [0, 100], [true, false]⟩ := by
  obtain ⟨report, hstep⟩ := exists_step_first solver (c := .standard) rfl [0, 100]
  have haccept : farApart.options.accept farApart.timestamp = .ok Mat.identity :=
    accept_of_pose rfl 0
  have hfeed : (⟨.standard, {}, none⟩ : Tracker ℝ).feed solver farApart.whole =
      (parked .standard [0, 100], .ok report) := by
    unfold Tracker.feed
    rw [show (⟨.standard, {}, none⟩ : Tracker ℝ).step solver farApart.whole.detections
      farApart.whole.timestamp farApart.whole.options = .ok (parked .standard [0, 100], report)
      from hstep]
  unfold Split.feed
  rw [haccept, hfeed]
  rfl

theorem isApart_farApartAgain (solver : Solver ℝ) :
    (Split.mk (parked .standard [0, 100]) [true, false]).IsApart solver farApartAgain := by
  intro pose haccept i t j d ht hd hgated
  have hpose : pose = Mat.identity :=
    (Except.ok.inj ((accept_of_pose rfl 1).symm.trans haccept)).symm
  have hcosts : ((Split.mk (parked .standard [0, 100]) [true, false]).assigned solver farApartAgain
      Mat.identity).2 = (parked .standard [0, 100]).costs
        ((parked .standard [0, 100]).elapsed 1) ([100, 0].map observedAhead) := by
    unfold Split.assigned Split.observed
    rw [assigned_of_epoch solver rfl]
    exact congrArg ((parked .standard [0, 100]).costs ((parked .standard [0, 100]).elapsed 1))
      (observe_ahead [100, 0])
  rw [hpose, hcosts] at hgated
  have hcross : ∀ {x y : ℝ}, [0, 100][i]? = some x → [100, 0][j]? = some y → ¬7 ≤ |y - x| := by
    intro x y hx hy hfar
    exact Bool.false_ne_true
      ((not_isGated_parked (c := .standard) rfl hx hy hfar _).symm.trans hgated)
  have hi : i < 2 := (Array.getElem?_eq_some_iff.mp ht).1
  have hj : j < 2 := (List.getElem?_eq_some_iff.mp hd).1
  interval_cases i <;> interval_cases j
  · exact absurd (by norm_num) (hcross rfl rfl)
  · cases ht
    cases hd
    rfl
  · cases ht
    cases hd
    rfl
  · exact absurd (by norm_num) (hcross rfl rfl)

/-- The vehicles are tracked when they are seen again, too far from each other to be taken for one
another. -/
theorem feedAll_isolated_two :
    let tr : Tracker ℝ := ⟨.standard, {}, none⟩
    let frames := [farApart, farApartAgain]
    create .standard = .ok tr ∧
      (Split.mk tr []).feed (Solver.cheapest ℝ) farApart =
        ⟨parked .standard [0, 100], [true, false]⟩ ∧
      (Split.mk tr []).StaysApart (Solver.cheapest ℝ) frames ∧
      (((Split.mk tr []).feedAll (Solver.cheapest ℝ) frames).tracksOf true).map Track.anonymous =
        (tr.feedAll (Solver.cheapest ℝ)
          (frames.map (SplitFrame.part true))).tracks.tracks.toList.map Track.anonymous ∧
      (Split.mk tr []).answersOf (Solver.cheapest ℝ) true frames =
        (tr.answers (Solver.cheapest ℝ) (frames.map (SplitFrame.part true))).map fun answer =>
          answer.map fun report => report.objects.map TrackedObject.anonymous := by
  intro tr frames
  have hcreate : create .standard = .ok tr := create_standard ℝ
  have hfeed := feed_farApart (Solver.cheapest ℝ)
  have hapart : (Split.mk tr []).StaysApart (Solver.cheapest ℝ) frames := by
    refine ⟨?_, ?_, trivial⟩
    · intro pose _ i t j d ht
      simp [tr] at ht
    · rw [hfeed]
      exact isApart_farApartAgain _
  obtain ⟨-, htracks, hanswers⟩ :=
    feedAll_isolated hcreate (Solver.cheapest ℝ) true frames hapart
  exact ⟨hcreate, hfeed, hapart, htracks, hanswers⟩

end Example

end Tracker

end ObstacleTracking
