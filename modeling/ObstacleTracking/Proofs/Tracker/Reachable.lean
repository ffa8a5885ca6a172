import ObstacleTracking.Proofs.Config.Standard
import ObstacleTracking.Proofs.Scalar.ExactNumber
import ObstacleTracking.Proofs.Tracker.Ahead

/-!
# Reachable trackers

A tracker that is created from a valid configuration and has worked on any frames, with any answers
of the solver. Its ids ascend up to the last that was issued, no track holds a prediction, and no
track is older than the number of frames. So the account of a frame holds for every frame that it
accepts.
-/

namespace ObstacleTracking

namespace Tracker

variable {α : Type} [Scalar α]

/-- A tracker after any frames, and the ids of all tracks that were live after one of them. The
solver may answer differently in each frame. -/
inductive Reachable : List ℕ → Tracker α → Prop
  | create {config : Config α} {tr : Tracker α} (h : create config = .ok tr) : Reachable [] tr
  | step {seen : List ℕ} {tr tr' : Tracker α} {solver : Solver α} {detections : List (Detection α)}
      {timestamp : α} {options : FrameOptions α} {report : FrameReport α} (h : Reachable seen tr)
      (hstep : tr.step solver detections timestamp options = .ok (tr', report)) :
      Reachable (seen ++ tr'.tracks.ids) tr'

/-- What holds of a tracker between frames. -/
structure Kept (seen : List ℕ) (tr : Tracker α) : Prop where
  ordered : tr.tracks.Ordered
  id_le : ∀ t ∈ tr.tracks.tracks.toList, t.id ≤ tr.tracks.lastId
  predicted_eq : ∀ t ∈ tr.tracks.tracks.toList, t.predicted = none
  age_lt : ∀ t ∈ tr.tracks.tracks.toList, t.age.toNat < tr.frameCount
  seen_le : ∀ id ∈ seen, id ≤ tr.tracks.lastId
  lastId_seen : tr.tracks.lastId = 0 ∨ tr.tracks.lastId ∈ seen

variable {c : Config α} {dt : α} {observations : List (Observation α)}
  {run : Assignment × CostMatrix α} {before after : TrackSet α} {followed started : List (Track α)}

/-! ### What an account says of the tracks after a frame -/

namespace Followed

variable {i : ℕ} {t t' : Track α}

theorem id_eq (h : Followed c dt observations run i t t') : t'.id = t.id := by
  cases h <;> rfl

theorem predicted_eq (h : Followed c dt observations run i t t') : t'.predicted = none := by
  cases h <;> rfl

theorem age_eq (h : Followed c dt observations run i t t') : t'.age = t.age + 1 := by
  cases h <;> rfl

end Followed

namespace FrameAccount

theorem exists_followed (h : FrameAccount c dt observations run before followed started after)
    {t' : Track α} (ht' : t' ∈ followed) :
    ∃ i t, before.tracks[i]? = some t ∧ Followed c dt observations run i t t' := by
  obtain ⟨i, hi⟩ := List.mem_iff_getElem?.mp ht'
  have hlt : i < before.tracks.size := by
    rw [← h.length_followed]
    exact (List.getElem?_eq_some_iff.mp hi).1
  have ht := Array.getElem?_eq_getElem hlt
  obtain ⟨u, hu, hfollowed⟩ := h.follows i _ ht
  rw [hi] at hu
  rw [← Option.some.inj hu] at hfollowed
  exact ⟨i, _, ht, hfollowed⟩

theorem exists_started (h : FrameAccount c dt observations run before followed started after)
    {t : Track α} (ht : t ∈ started) :
    ∃ k o, k < started.length ∧
      t = Track.start c.filter c.lifecycle.historyCapacity (before.lastId + 1 + k) o := by
  obtain ⟨k, hk⟩ := List.mem_iff_getElem?.mp ht
  have hlt := (List.getElem?_eq_some_iff.mp hk).1
  have hj : k < run.1.unmatchedDetections.length := by
    rw [← h.length_started]
    exact hlt
  obtain ⟨o, -, hstart⟩ := h.starts k _ (List.getElem?_eq_getElem hj)
  rw [hk] at hstart
  exact ⟨k, o, hlt, Option.some.inj hstart⟩

/-- A track after a frame was live before it, or is one that the frame starts. -/
theorem mem_after (h : FrameAccount c dt observations run before followed started after)
    {t' : Track α} (ht' : t' ∈ after.tracks.toList) :
    (∃ t ∈ before.tracks.toList, t'.id = t.id ∧ t'.predicted = none ∧ t'.age = t.age + 1) ∨
      ∃ k o, k < started.length ∧
        t' = Track.start c.filter c.lifecycle.historyCapacity (before.lastId + 1 + k) o := by
  rw [h.tracks_eq] at ht'
  rcases List.mem_append.mp ht' with ht' | ht'
  · obtain ⟨i, t, ht, hfollowed⟩ := h.exists_followed (List.mem_filter.mp ht').1
    exact Or.inl ⟨t, Array.mem_toList_iff.mpr (Array.mem_of_getElem? ht), hfollowed.id_eq,
      hfollowed.predicted_eq, hfollowed.age_eq⟩
  · exact Or.inr (h.exists_started ht')

theorem ids_followed (h : FrameAccount c dt observations run before followed started after) :
    followed.map Track.id = before.ids := by
  refine List.ext_getElem? ?_
  intro i
  rw [TrackSet.getElem?_ids, List.getElem?_map]
  cases ht : before.tracks[i]? with
  | none =>
    have hsize : followed.length ≤ i := by
      rw [h.length_followed]
      exact Array.getElem?_eq_none_iff.mp ht
    rw [List.getElem?_eq_none hsize, Option.map_none]
  | some t =>
    obtain ⟨t', ht', hfollowed⟩ := h.follows i t ht
    rw [ht', Option.map_some, Option.map_some, hfollowed.id_eq]

theorem ids_started (h : FrameAccount c dt observations run before followed started after) :
    started.map Track.id = List.range' (before.lastId + 1) started.length := by
  refine List.ext_getElem? ?_
  intro k
  rw [List.getElem?_map]
  by_cases hk : k < started.length
  · have hj : k < run.1.unmatchedDetections.length := by
      rw [← h.length_started]
      exact hk
    obtain ⟨o, -, hstart⟩ := h.starts k _ (List.getElem?_eq_getElem hj)
    rw [hstart, Option.map_some, List.getElem?_range' hk, Nat.one_mul]
    rfl
  · have hle := Nat.le_of_not_lt hk
    rw [List.getElem?_eq_none hle, List.getElem?_eq_none (by rw [List.length_range']; exact hle)]
    rfl

theorem ids_after (h : FrameAccount c dt observations run before followed started after) :
    after.ids = ((followed.filter fun t => !TrackSet.isExpired c.lifecycle t).map Track.id) ++
      List.range' (before.lastId + 1) started.length := by
  rw [TrackSet.ids, h.tracks_eq, List.map_append, h.ids_started]

theorem ordered (h : FrameAccount c dt observations run before followed started after)
    (hbefore : before.Ordered) (hle : ∀ t ∈ before.tracks.toList, t.id ≤ before.lastId) :
    after.Ordered := by
  rw [TrackSet.Ordered, h.ids_after]
  refine List.pairwise_append.mpr ⟨?_, List.pairwise_lt_range', ?_⟩
  · have hsub := (List.filter_sublist (p := fun t => !TrackSet.isExpired c.lifecycle t)
      (l := followed)).map Track.id
    rw [h.ids_followed] at hsub
    exact hbefore.sublist hsub
  · intro id hid id' hid'
    obtain ⟨t', ht', rfl⟩ := List.mem_map.mp hid
    obtain ⟨i, t, ht, hfollowed⟩ := h.exists_followed (List.mem_filter.mp ht').1
    have hold := hle t (Array.mem_toList_iff.mpr (Array.mem_of_getElem? ht))
    have hnew := (List.mem_range'_1.mp hid').1
    rw [hfollowed.id_eq]
    omega

/-- The last id that was issued is still the largest of all, or no id was issued yet. -/
theorem lastId_seen (h : FrameAccount c dt observations run before followed started after)
    {seen : List ℕ} (hseen : before.lastId = 0 ∨ before.lastId ∈ seen) :
    after.lastId = 0 ∨ after.lastId ∈ seen ++ after.ids := by
  rw [h.lastId_eq, h.ids_after]
  cases hlength : started.length with
  | zero =>
    rcases hseen with hzero | hmem
    · exact Or.inl hzero
    · exact Or.inr (List.mem_append_left _ hmem)
  | succ n =>
    refine Or.inr (List.mem_append_right _ (List.mem_append_right _ ?_))
    rw [List.mem_range'_1]
    omega

end FrameAccount

/-! ### What a frame works with -/

/-- The time since the last accepted frame. Before the first one there is none. -/
def elapsed (tr : Tracker α) (timestamp : α) : α :=
  match tr.epoch with
  | none => 0
  | some e => timestamp - e.timestamp

/-- The observations of a frame, in the local frame that its epoch fixes. -/
def observed (tr : Tracker α) (detections : List (Detection α)) (timestamp : α) (pose : Pose α)
    (lanes : Option (LaneMap α)) : List (Observation α) :=
  observe tr.config.matching (nextEpoch tr.epoch pose timestamp).offset pose lanes detections

/-- What is matched in a frame, and at which costs. In the first frame nothing is. -/
def assigned (solver : Solver α) (tr : Tracker α) (dt : α) (observations : List (Observation α)) :
    Assignment × CostMatrix α :=
  match tr.epoch with
  | none => (⟨[], [], List.range observations.length⟩, ⟨observations.length, #[]⟩)
  | some _ => Matching.run solver tr.config.matching (predicted tr.config dt tr.tracks).tracks
      observations.toArray dt

@[simp] theorem length_observed (tr : Tracker α) (detections : List (Detection α)) (timestamp : α)
    (pose : Pose α) (lanes : Option (LaneMap α)) :
    (tr.observed detections timestamp pose lanes).length = detections.length :=
  List.length_map _

/-! ### Frames -/

theorem step_of_accept (solver : Solver α) (tr : Tracker α) (detections : List (Detection α))
    {timestamp : α} {options : FrameOptions α} {pose : Pose α}
    (h : options.accept timestamp = .ok pose) :
    ∃ tr' report, tr.step solver detections timestamp options = .ok (tr', report) ∧
      tr'.config = tr.config ∧ tr'.epoch = some (nextEpoch tr.epoch pose timestamp) ∧
      tr'.tracks = match tr.epoch with
        | none => (tr.tracks.create tr.config.filter tr.config.lifecycle.historyCapacity
            (observe tr.config.matching (nextEpoch tr.epoch pose timestamp).offset pose options.lanes
              detections)).1
        | some e => advance solver tr.config tr.tracks (timestamp - e.timestamp)
            (observe tr.config.matching (nextEpoch tr.epoch pose timestamp).offset pose options.lanes
              detections) := by
  unfold step
  rw [h]
  exact ⟨_, _, rfl, rfl, rfl, rfl⟩

/-- Where every value is finite, a frame with a pose is accepted. -/
theorem accept_of_pose {K : Type} [Field K] [LinearOrder K] [ExactRoots K]
    {options : FrameOptions K} {pose : Pose K} (h : options.pose = some pose) (timestamp : K) :
    options.accept timestamp = .ok pose :=
  FrameOptions.accept_eq_ok_iff.mpr ⟨rfl, h, ExactRoots.isFinite_mat pose⟩

theorem exists_accept_of_step {solver : Solver α} {tr tr' : Tracker α}
    {detections : List (Detection α)} {timestamp : α} {options : FrameOptions α}
    {report : FrameReport α}
    (h : tr.step solver detections timestamp options = .ok (tr', report)) :
    ∃ pose, options.accept timestamp = .ok pose := by
  unfold step at h
  cases haccept : options.accept timestamp with
  | error e =>
    rw [haccept] at h
    cases h
  | ok pose => exact ⟨pose, rfl⟩

/-- In the first frame there are no tracks, and every observation is left over. -/
theorem frameAccount_create (c : Config α) (dt : α) (os : List (Observation α))
    {s : TrackSet α} (hs : s.tracks.toList = []) :
    FrameAccount c dt os (⟨[], [], List.range os.length⟩, ⟨os.length, #[]⟩) s []
      (startAll c s.lastId os) (s.create c.filter c.lifecycle.historyCapacity os).1 := by
  have hsize : s.tracks.size = 0 := by rw [← Array.length_toList, hs, List.length_nil]
  constructor
  · rw [hsize]
    exact List.Perm.refl _
  · exact List.Perm.refl _
  · exact hsize.symm
  · intro i t ht
    have hlt := (Array.getElem?_eq_some_iff.mp ht).1
    omega
  · exact List.pairwise_lt_range
  · rw [length_startAll, List.length_range]
  · intro k j hk
    obtain ⟨hlt, heq⟩ := List.getElem?_eq_some_iff.mp hk
    rw [List.length_range] at hlt
    rw [List.getElem_range] at heq
    rw [← heq]
    exact ⟨os[k], List.getElem?_eq_getElem hlt, getElem?_startAll c _ (List.getElem?_eq_getElem hlt)⟩
  · rw [tracks_create, hs]
    rfl
  · rw [TrackSet.lastId_create, length_startAll]

/-! ### The invariant -/

theorem eq_of_create {config : Config α} {tr : Tracker α} (h : create config = .ok tr) :
    tr = { config } ∧ config.error? = none := by
  unfold create at h
  cases herror : config.error? with
  | some e =>
    rw [herror] at h
    cases h
  | none =>
    rw [herror] at h
    cases h
    exact ⟨rfl, rfl⟩

theorem create_of_error?_eq_none {config : Config α} (h : config.error? = none) :
    create config = .ok { config } := by
  unfold create
  rw [h]

theorem create_standard (K : Type) [Field K] [LinearOrder K] [IsStrictOrderedRing K]
    [ExactScalar K α] : create (Config.standard : Config α) = .ok ⟨.standard, {}, none⟩ :=
  create_of_error?_eq_none (Config.error?_standard K α)

theorem kept_create {config : Config α} {tr : Tracker α} (h : create config = .ok tr) :
    Kept [] tr := by
  rw [(eq_of_create h).1]
  constructor
  · exact List.Pairwise.nil
  · exact fun t ht => absurd ht List.not_mem_nil
  · exact fun t ht => absurd ht List.not_mem_nil
  · exact fun t ht => absurd ht List.not_mem_nil
  · exact fun id hid => absurd hid List.not_mem_nil
  · exact Or.inl rfl

theorem Kept.of_frameAccount {seen : List ℕ} {tr tr' : Tracker α} (hkept : Kept seen tr)
    (h : FrameAccount c dt observations run tr.tracks followed started tr'.tracks)
    (hcount : tr'.frameCount = tr.frameCount + 1) : Kept (seen ++ tr'.tracks.ids) tr' := by
  have hid : ∀ t ∈ tr'.tracks.tracks.toList, t.id ≤ tr'.tracks.lastId := by
    intro t' ht'
    rw [h.lastId_eq]
    rcases h.mem_after ht' with ⟨t, ht, heq, -⟩ | ⟨k, o, hk, rfl⟩
    · have hle := hkept.id_le t ht
      omega
    · show tr.tracks.lastId + 1 + k ≤ tr.tracks.lastId + started.length
      omega
  constructor
  · exact h.ordered hkept.ordered hkept.id_le
  · exact hid
  · intro t' ht'
    rcases h.mem_after ht' with ⟨t, -, -, hpredicted, -⟩ | ⟨k, o, -, rfl⟩
    · exact hpredicted
    · rfl
  · intro t' ht'
    rw [hcount]
    rcases h.mem_after ht' with ⟨t, ht, -, -, hage⟩ | ⟨k, o, -, rfl⟩
    · have hlt := hkept.age_lt t ht
      -- an age that wraps is younger still
      have hmod := Nat.mod_le (t.age.toNat + (1 : UInt32).toNat) (2 ^ 32)
      have hone : (1 : UInt32).toNat = 1 := rfl
      rw [hage, UInt32.toNat_add]
      omega
    · exact Nat.succ_pos _
  · intro id hmem
    rcases List.mem_append.mp hmem with hmem | hmem
    · have hle := hkept.seen_le id hmem
      rw [h.lastId_eq]
      omega
    · obtain ⟨t, ht, rfl⟩ := List.mem_map.mp hmem
      exact hid t ht
  · exact h.lastId_seen hkept.lastId_seen

theorem frameCount_nextEpoch {tr tr' : Tracker α} {pose : Pose α} {timestamp : α}
    (h : tr'.epoch = some (nextEpoch tr.epoch pose timestamp)) :
    tr'.frameCount = tr.frameCount + 1 := by
  unfold frameCount
  rw [h]
  cases tr.epoch <;> rfl

/-- What a tracker tells of its tracks after a frame. -/
def reported (tr : Tracker α) (lanes : Option (LaneMap α)) (observations : List (Observation α)) :
    FrameReport α where
  objects := tr.tracks.report tr.config.lifecycle tr.offset
  laneQueries := laneQueries tr.offset lanes observations

omit [Scalar α] in
theorem Kept.tracks_eq_nil {seen : List ℕ} {tr : Tracker α} (h : Kept seen tr)
    (he : tr.epoch = none) : tr.tracks.tracks.toList = [] := by
  refine List.eq_nil_iff_forall_not_mem.mpr ?_
  intro t ht
  have hlt := h.age_lt t ht
  rw [frameCount, he] at hlt
  exact Nat.not_lt_zero _ hlt

/-- Every accepted frame of a tracker has an account, the first one included. -/
theorem Kept.exists_frameAccount {seen : List ℕ} {tr : Tracker α} (h : Kept seen tr)
    (solver : Solver α) (detections : List (Detection α)) {timestamp : α} {options : FrameOptions α}
    {pose : Pose α} (haccept : options.accept timestamp = .ok pose) :
    let observations := tr.observed detections timestamp pose options.lanes
    let dt := tr.elapsed timestamp
    ∃ tr' followed started,
      tr.step solver detections timestamp options =
        .ok (tr', tr'.reported options.lanes observations) ∧
      tr'.config = tr.config ∧ tr'.epoch = some (nextEpoch tr.epoch pose timestamp) ∧
      FrameAccount tr.config dt observations (tr.assigned solver dt observations) tr.tracks followed
        started tr'.tracks := by
  intro observations dt
  unfold Tracker.step
  rw [haccept]
  cases he : tr.epoch with
  | none =>
    have haccount := frameAccount_create tr.config dt observations (h.tracks_eq_nil he)
    have hrun : tr.assigned solver dt observations =
        (⟨[], [], List.range observations.length⟩, ⟨observations.length, #[]⟩) := by
      rw [assigned, he]
    rw [← hrun] at haccount
    have hobservations : observations = observe tr.config.matching
        (nextEpoch none pose timestamp).offset pose options.lanes detections := by
      rw [← he]
      rfl
    rw [hobservations] at haccount ⊢
    exact ⟨_, _, _, rfl, rfl, rfl, haccount⟩
  | some e =>
    obtain ⟨after, followed, started, hadvance, haccount⟩ :=
      Tracker.exists_frameAccount solver tr.config h.ordered dt observations
    have hrun : tr.assigned solver dt observations = Matching.run solver tr.config.matching
        (predicted tr.config dt tr.tracks).tracks observations.toArray dt := by
      rw [assigned, he]
    rw [← hrun, ← advance_eq_of_advance? hadvance] at haccount
    have hobservations : observations = observe tr.config.matching
        (nextEpoch (some e) pose timestamp).offset pose options.lanes detections := by
      rw [← he]
      rfl
    have hdt : dt = timestamp - e.timestamp := by
      show tr.elapsed timestamp = _
      rw [elapsed, he]
    rw [hobservations, hdt] at haccount ⊢
    exact ⟨_, _, _, rfl, rfl, rfl, haccount⟩

theorem Kept.step {seen : List ℕ} {tr tr' : Tracker α} (hkept : Kept seen tr) {solver : Solver α}
    {detections : List (Detection α)} {timestamp : α} {options : FrameOptions α}
    {report : FrameReport α}
    (hstep : tr.step solver detections timestamp options = .ok (tr', report)) :
    Kept (seen ++ tr'.tracks.ids) tr' := by
  obtain ⟨pose, haccept⟩ := exists_accept_of_step hstep
  obtain ⟨tr₁, followed, started, hstep₁, -, hepoch, haccount⟩ :=
    hkept.exists_frameAccount solver detections haccept
  rw [hstep, Except.ok.injEq, Prod.mk.injEq] at hstep₁
  rw [← hstep₁.1] at hepoch haccount
  exact hkept.of_frameAccount haccount (frameCount_nextEpoch hepoch)

theorem Reachable.kept {seen : List ℕ} {tr : Tracker α} (h : Reachable seen tr) : Kept seen tr := by
  induction h with
  | create h => exact kept_create h
  | step _ hstep ih => exact ih.step hstep

/-! ### Every frame is accounted for -/

/-- An accepted frame changes every live track once, uses every observation once and misses no
lookup; ages grow by one, no prediction is left, and the new ids follow the largest that was ever
issued. -/
theorem step_frameAccount {seen : List ℕ} {tr : Tracker α} (h : Reachable seen tr) {e : Epoch α}
    (he : tr.epoch = some e) (hframes : e.frameCount < 2 ^ 32) (solver : Solver α)
    (detections : List (Detection α)) {timestamp : α} {options : FrameOptions α} {pose : Pose α}
    (haccept : options.accept timestamp = .ok pose) :
    let dt := timestamp - e.timestamp
    let observations := observe tr.config.matching e.offset pose options.lanes detections
    let run := Matching.run solver tr.config.matching (predicted tr.config dt tr.tracks).tracks
      observations.toArray dt
    ∃ tr' report followed started,
      tr.step solver detections timestamp options = .ok (tr', report) ∧
      observations.length = detections.length ∧
      advance? solver tr.config tr.tracks dt observations = some tr'.tracks ∧
      FrameAccount tr.config dt observations run tr.tracks followed started tr'.tracks ∧
      (∀ (i : ℕ) (t t' : Track α), tr.tracks.tracks[i]? = some t → followed[i]? = some t' →
        t'.age.toNat = t.age.toNat + 1) ∧
      (∀ t ∈ tr'.tracks.tracks.toList, t.predicted = none) ∧
      (∀ id ∈ seen, id ≤ tr.tracks.lastId) ∧
      (tr.tracks.lastId = 0 ∨ tr.tracks.lastId ∈ seen) := by
  intro dt observations run
  have hkept := h.kept
  obtain ⟨after, followed, started, hadvance, haccount⟩ :=
    exists_frameAccount solver tr.config hkept.ordered dt observations
  obtain ⟨tr', report, hstep, -, -, htracks⟩ := step_of_accept solver tr detections haccept
  rw [he] at htracks
  have hafter : tr'.tracks = after := htracks.trans (advance_eq_of_advance? hadvance)
  rw [← hafter] at hadvance haccount
  have hkept' := (h.step hstep).kept
  refine ⟨tr', report, followed, started, hstep, List.length_map _, hadvance, haccount, ?_,
    hkept'.predicted_eq, hkept.seen_le, hkept.lastId_seen⟩
  intro i t t' ht ht'
  obtain ⟨u, hu, hfollowed⟩ := haccount.follows i t ht
  rw [ht', Option.some_inj] at hu
  rw [← hu] at hfollowed
  -- a track is younger than the frames that were accepted, so its age does not wrap
  have hlt := hkept.age_lt t (Array.mem_toList_iff.mpr (Array.mem_of_getElem? ht))
  rw [frameCount, he] at hlt
  have hcount : t.age.toNat < e.frameCount := hlt
  have hone : (1 : UInt32).toNat = 1 := rfl
  rw [hfollowed.age_eq, UInt32.toNat_add, hone, Nat.mod_eq_of_lt (by omega)]

section Example

attribute [local instance] ExactRoots.real

theorem exists_step_first (solver : Solver ℝ) {c : Config ℝ} (hc : c.matching = .standard)
    (xs : List ℝ) : ∃ report, step solver ⟨c, {}, none⟩ (xs.map ahead) 0
      ⟨some Mat.identity, none⟩ = .ok (parked c xs, report) := by
  unfold step parked
  rw [accept_of_pose rfl, ← observe_ahead, ← hc]
  exact ⟨_, rfl⟩

theorem exists_reachable_parked {c : Config ℝ} (hvalid : c.error? = none)
    (hc : c.matching = .standard) (xs : List ℝ) : ∃ seen, Reachable seen (parked c xs) := by
  obtain ⟨report, hstep⟩ := exists_step_first (Solver.cheapest ℝ) hc xs
  exact ⟨_, .step (.create (create_of_error?_eq_none hvalid)) hstep⟩

/-- One vehicle is hit, one is missed, and one is new. -/
theorem step_frameAccount_second :
    let tr := parked patient [0, 100]
    let observations := [200, 0].map observedAhead
    ∃ tr' report followed started,
      tr.step (Solver.cheapest ℝ) ([200, 0].map ahead) 1 ⟨some Mat.identity, none⟩ =
        .ok (tr', report) ∧
      FrameAccount patient 1 observations (⟨[(0, 1)], [1], [0]⟩, tr.costs 1 observations) tr.tracks
        followed started tr'.tracks ∧
      ∀ t ∈ tr'.tracks.tracks.toList, t.predicted = none := by
  intro tr observations
  obtain ⟨seen, hreachable⟩ := exists_reachable_parked error?_patient rfl [0, 100]
  have haccept : FrameOptions.accept ⟨some Mat.identity, none⟩ (1 : ℝ) = .ok Mat.identity :=
    accept_of_pose rfl 1
  obtain ⟨tr', report, followed, started, hstep, -, -, haccount, -, hpredicted, -⟩ :=
    step_frameAccount hreachable rfl (by decide : 1 < 2 ^ 32) (Solver.cheapest ℝ)
      ([200, 0].map ahead) haccept
  have hobserved : observe tr.config.matching (-Pose.origin Mat.identity) Mat.identity none
      ([200, 0].map ahead) = observations := observe_ahead [200, 0]
  have hrun : Matching.run (Solver.cheapest ℝ) tr.config.matching
      (predicted tr.config 1 tr.tracks).tracks observations.toArray 1 =
      (⟨[(0, 1)], [1], [0]⟩, tr.costs 1 observations) :=
    congrArg (·, tr.costs 1 observations) (blockwise_parked_two rfl Solver.isExact_cheapest 1)
  have hdt : (1 : ℝ) - 0 = 1 := sub_zero 1
  dsimp only at haccount
  rw [hobserved, hdt, hrun] at haccount
  exact ⟨tr', report, followed, started, hstep, haccount, hpredicted⟩

end Example

end Tracker

end ObstacleTracking
