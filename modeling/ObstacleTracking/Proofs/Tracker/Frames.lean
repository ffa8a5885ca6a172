import ObstacleTracking.Proofs.Tracker.Reachable

/-!
# Frames as functions

An accepted frame as one function of the tracks, the observations and the assignment: what is
followed is followed place by place, what is left over is started. Runs of frames, refused ones
included, are built from it.
-/

namespace ObstacleTracking

namespace Tracker

variable {α : Type} [Scalar α]

/-! ### What is assigned -/

theorem assigned_of_epoch (solver : Solver α) {tr : Tracker α} {e : Epoch α}
    (he : tr.epoch = some e) (dt : α) (observations : List (Observation α)) :
    tr.assigned solver dt observations =
      (Assignment.blockwise solver (tr.costs dt observations) tr.config.matching.gate,
        tr.costs dt observations) := by
  unfold assigned
  rw [he]
  rfl

theorem assigned_of_none (solver : Solver α) {tr : Tracker α} (he : tr.epoch = none) (dt : α)
    (observations : List (Observation α)) :
    tr.assigned solver dt observations =
      (⟨[], [], List.range observations.length⟩, ⟨observations.length, #[]⟩) := by
  unfold assigned
  rw [he]

/-! ### What a frame makes of its tracks -/

variable {c : Config α} {dt : α} {observations : List (Observation α)}
  {run : Assignment × CostMatrix α} {before after : TrackSet α} {followed started : List (Track α)}

/-- The observation that is matched to the track at a place, and the cost of the pair. -/
def matchOf? (observations : List (Observation α)) (run : Assignment × CostMatrix α) (i : ℕ) :
    Option (Observation α × α) :=
  (run.1.matched.find? fun p => p.1 == i).bind fun p =>
    observations[p.2]?.map fun o => (o, run.2.entry i p.2)

/-- What becomes of a track that takes an observation with a score, or none. -/
def follow (c : Config α) (dt : α) (t : Track α) : Option (Observation α × α) → Track α
  | some (o, score) => ((t.predict c.filter dt).hit c.filter c.lifecycle o score dt).1
  | none => (t.predict c.filter dt).miss c.filter dt

theorem id_follow (c : Config α) (dt : α) (t : Track α) (m : Option (Observation α × α)) :
    (follow c dt t m).id = t.id := by
  cases m <;> rfl

theorem age_follow (c : Config α) (dt : α) (t : Track α) (m : Option (Observation α × α)) :
    (follow c dt t m).age = t.age + 1 := by
  cases m <;> rfl

theorem period_follow (c : Config α) (dt : α) (t : Track α) (m : Option (Observation α × α)) :
    (follow c dt t m).period = t.period + Scalar.maxNum dt 0 := by
  cases m <;> rfl

def followAll (c : Config α) (dt : α) (observations : List (Observation α))
    (run : Assignment × CostMatrix α) (tracks : List (Track α)) : List (Track α) :=
  tracks.mapIdx fun i t => follow c dt t (matchOf? observations run i)

/-- The observations that no track takes. -/
def leftOver (observations : List (Observation α)) (run : Assignment × CostMatrix α) :
    List (Observation α) :=
  run.1.unmatchedDetections.filterMap fun j => observations[j]?

/-- The tracks after a frame: those that are followed and not expired, then those it starts. -/
def advanced (c : Config α) (dt : α) (observations : List (Observation α))
    (run : Assignment × CostMatrix α) (s : TrackSet α) : TrackSet α where
  tracks := ((followAll c dt observations run s.tracks.toList).filter
      (fun t => !TrackSet.isExpired c.lifecycle t) ++
    startAll c s.lastId (leftOver observations run)).toArray
  lastId := s.lastId + (leftOver observations run).length

omit [Scalar α] in
theorem find?_matched {l : List (ℕ × ℕ)} (hl : (l.map Prod.fst).Nodup) {i j : ℕ}
    (h : (i, j) ∈ l) : (l.find? fun p => p.1 == i) = some (i, j) := by
  obtain ⟨p, hp⟩ : ∃ p, (l.find? fun p => p.1 == i) = some p := by
    rw [← Option.isSome_iff_exists, List.find?_isSome]
    exact ⟨(i, j), h, beq_self_eq_true i⟩
  have hfst : p.1 = i := by simpa using List.find?_some hp
  rw [hp, Option.some_inj]
  exact List.inj_on_of_nodup_map hl (List.mem_of_find?_eq_some hp) h hfst

theorem matchOf?_of_matched (hrun : (run.1.matched.map Prod.fst).Nodup) {i j : ℕ}
    (h : (i, j) ∈ run.1.matched) {o : Observation α} (ho : observations[j]? = some o) :
    matchOf? observations run i = some (o, run.2.entry i j) := by
  rw [matchOf?, find?_matched hrun h, Option.bind_some]
  dsimp only
  rw [ho, Option.map_some]

theorem matchOf?_of_unmatched {i : ℕ} (h : i ∉ run.1.matched.map Prod.fst) :
    matchOf? observations run i = none := by
  have hfind : (run.1.matched.find? fun p => p.1 == i) = none := by
    rw [List.find?_eq_none]
    intro p hp heq
    exact h (List.mem_map.mpr ⟨p, hp, by simpa using heq⟩)
  rw [matchOf?, hfind, Option.bind_none]

/-- A track takes the same observation at the same cost in another frame, if it has the same pair
there and the observation is at the place that the pair has. -/
theorem matchOf?_eq_of_iff {observations' : List (Observation α)} {run' : Assignment × CostMatrix α}
    {place : ℕ → ℕ} {i i' : ℕ} (hobservations : ∀ j, observations[j]? = observations'[place j]?)
    (hrun : (run.1.matched.map Prod.fst).Nodup) (hrun' : (run'.1.matched.map Prod.fst).Nodup)
    (hmatched : ∀ j', (i', j') ∈ run'.1.matched ↔ ∃ j, (i, j) ∈ run.1.matched ∧ place j = j')
    (hentry : ∀ j, (i, j) ∈ run.1.matched → run'.2.entry i' (place j) = run.2.entry i j) :
    matchOf? observations' run' i' = matchOf? observations run i := by
  by_cases hmem : i ∈ run.1.matched.map Prod.fst
  · obtain ⟨⟨i, j⟩, hp, rfl⟩ := List.mem_map.mp hmem
    have hp' : (i', place j) ∈ run'.1.matched := (hmatched _).mpr ⟨j, hp, rfl⟩
    unfold matchOf?
    rw [find?_matched hrun hp, find?_matched hrun' hp']
    simp only [Option.bind_some]
    rw [hobservations j, hentry j hp]
  · rw [matchOf?_of_unmatched hmem, matchOf?_of_unmatched]
    intro hmem'
    obtain ⟨⟨i', j'⟩, hp', rfl⟩ := List.mem_map.mp hmem'
    obtain ⟨j, hp, -⟩ := (hmatched j').mp hp'
    exact hmem (List.mem_map.mpr ⟨(i, j), hp, rfl⟩)

namespace FrameAccount

theorem nodup_matched (h : FrameAccount c dt observations run before followed started after) :
    (run.1.matched.map Prod.fst ++ run.1.unmatchedTracks).Nodup :=
  h.tracks_once.nodup_iff.mpr List.nodup_range

theorem followed_eq (h : FrameAccount c dt observations run before followed started after) :
    followed = followAll c dt observations run before.tracks.toList := by
  obtain ⟨hmatched, -, hapart⟩ := List.nodup_append'.mp h.nodup_matched
  refine List.ext_getElem? ?_
  intro i
  have hbefore : before.tracks.toList[i]? = before.tracks[i]? := Array.getElem?_toList
  rw [followAll, List.getElem?_mapIdx, hbefore]
  cases ht : before.tracks[i]? with
  | none =>
    rw [Option.map_none, List.getElem?_eq_none]
    rw [h.length_followed]
    exact Array.getElem?_eq_none_iff.mp ht
  | some t =>
    obtain ⟨t', ht', hfollowed⟩ := h.follows i t ht
    rw [ht', Option.map_some]
    cases hfollowed with
    | hit hpair ho => rw [matchOf?_of_matched hmatched hpair ho, follow]
    | miss hunmatched =>
      rw [matchOf?_of_unmatched fun hmem => hapart hmem hunmatched, follow]

theorem started_eq (h : FrameAccount c dt observations run before followed started after) :
    started = startAll c before.lastId (leftOver observations run) := by
  have hleft : run.1.unmatchedDetections.map (fun j => observations[j]?) =
      (leftOver observations run).map some := by
    refine mapM_eq_some_iff.mp (mapM_eq_some_filterMap ?_)
    intro j hj
    have hlt := List.mem_range.mp (h.observations_once.mem_iff.mp (List.mem_append_right _ hj))
    exact ⟨_, List.getElem?_eq_getElem hlt⟩
  have hlength := congrArg List.length hleft
  rw [List.length_map, List.length_map] at hlength
  refine List.ext_getElem? ?_
  intro k
  cases hk : run.1.unmatchedDetections[k]? with
  | none =>
    have hle := List.getElem?_eq_none_iff.mp hk
    rw [List.getElem?_eq_none (by rw [h.length_started]; exact hle),
      List.getElem?_eq_none (by rw [length_startAll, ← hlength]; exact hle)]
  | some j =>
    obtain ⟨o, ho, hstart⟩ := h.starts k j hk
    have hobserved := congrArg (fun l => l[k]?) hleft
    simp only [List.getElem?_map, hk, Option.map_some] at hobserved
    obtain ⟨o', ho', heq⟩ := Option.map_eq_some_iff.mp hobserved.symm
    rw [ho, Option.some_inj] at heq
    rw [hstart, getElem?_startAll c before.lastId ho', heq]

/-- The tracks after a frame are a function of those before it. -/
theorem after_eq (h : FrameAccount c dt observations run before followed started after) :
    after = advanced c dt observations run before := by
  have htracks : after.tracks = (advanced c dt observations run before).tracks := by
    rw [← Array.toList_inj, h.tracks_eq, h.followed_eq, h.started_eq]
    rfl
  have hlast : after.lastId = (advanced c dt observations run before).lastId := by
    rw [h.lastId_eq, h.started_eq, length_startAll]
    rfl
  cases after
  cases htracks
  cases hlast
  rfl

end FrameAccount

/-- What hits and missed frames keep and every start has, all tracks have after a frame. -/
theorem forall_advanced {P : Track α → Prop} {s : TrackSet α}
    (hbefore : ∀ t ∈ s.tracks.toList, P t)
    (hhit : ∀ t, P t → ∀ o ∈ observations, ∀ score, P (follow c dt t (some (o, score))))
    (hmiss : ∀ t, P t → P (follow c dt t none))
    (hstart : ∀ id, ∀ o ∈ observations,
      P (Track.start c.filter c.lifecycle.historyCapacity id o)) :
    ∀ t ∈ (advanced c dt observations run s).tracks.toList, P t := by
  intro t' ht'
  unfold advanced at ht'
  rcases List.mem_append.mp ht' with hfollowed | hstarted
  · obtain ⟨i, hi, rfl⟩ := List.mem_mapIdx.mp (List.mem_filter.mp hfollowed).1
    have ht := hbefore _ (List.getElem_mem hi)
    cases hm : matchOf? observations run i with
    | none => exact hmiss _ ht
    | some m =>
      obtain ⟨p, -, hp⟩ := Option.bind_eq_some_iff.mp hm
      obtain ⟨o, ho, rfl⟩ := Option.map_eq_some_iff.mp hp
      exact hhit _ ht o (List.mem_of_getElem? ho) _
  · obtain ⟨p, hp, rfl⟩ := List.mem_map.mp hstarted
    obtain ⟨j, -, hj⟩ := List.mem_filterMap.mp (List.of_mem_zip hp).2
    exact hstart p.1 p.2 (List.mem_of_getElem? hj)

/-! ### Accepted frames -/

/-- The tracker after a frame that is accepted with a pose. -/
def accepted (solver : Solver α) (tr : Tracker α) (detections : List (Detection α)) (timestamp : α)
    (pose : Pose α) (lanes : Option (LaneMap α)) : Tracker α where
  config := tr.config
  tracks :=
    let observations := tr.observed detections timestamp pose lanes
    let dt := tr.elapsed timestamp
    advanced tr.config dt observations (tr.assigned solver dt observations) tr.tracks
  epoch := some (nextEpoch tr.epoch pose timestamp)

theorem Kept.step_eq {seen : List ℕ} {tr : Tracker α} (h : Kept seen tr) (solver : Solver α)
    (detections : List (Detection α)) {timestamp : α} {options : FrameOptions α} {pose : Pose α}
    (haccept : options.accept timestamp = .ok pose) :
    let tr' := tr.accepted solver detections timestamp pose options.lanes
    tr.step solver detections timestamp options =
      .ok (tr', tr'.reported options.lanes
        (tr.observed detections timestamp pose options.lanes)) := by
  obtain ⟨tr', followed, started, hstep, hconfig, hepoch, haccount⟩ :=
    h.exists_frameAccount solver detections haccept
  have htracks := haccount.after_eq
  have heq : tr' = tr.accepted solver detections timestamp pose options.lanes := by
    cases tr'
    cases hconfig
    cases hepoch
    cases htracks
    rfl
  rw [← heq]
  exact hstep

theorem step_of_refuse (solver : Solver α) (tr : Tracker α) (detections : List (Detection α))
    {timestamp : α} {options : FrameOptions α} {e : FrameError α}
    (h : options.accept timestamp = .error e) :
    tr.step solver detections timestamp options = .error e := by
  unfold step
  rw [h]
  rfl

/-! ### Runs -/

/-- A frame as it is handed to a tracker. -/
structure Frame (α : Type) where
  detections : List (Detection α)
  timestamp : α
  options : FrameOptions α

abbrev Answer (α : Type) := Except (FrameError α) (FrameReport α)

/-- The tracker after a frame, and the answer to it. A refused frame leaves the tracker. -/
def feed (solver : Solver α) (tr : Tracker α) (f : Frame α) : Tracker α × Answer α :=
  match tr.step solver f.detections f.timestamp f.options with
  | .ok (tr', report) => (tr', .ok report)
  | .error e => (tr, .error e)

/-- The tracker after some frames. -/
def feedAll (solver : Solver α) (tr : Tracker α) (frames : List (Frame α)) : Tracker α :=
  frames.foldl (fun tr f => (tr.feed solver f).1) tr

/-- The answers to some frames. -/
def answers (solver : Solver α) : Tracker α → List (Frame α) → List (Answer α)
  | _, [] => []
  | tr, f :: frames => (tr.feed solver f).2 :: answers solver (tr.feed solver f).1 frames

@[simp] theorem feedAll_cons (solver : Solver α) (tr : Tracker α) (f : Frame α)
    (frames : List (Frame α)) :
    tr.feedAll solver (f :: frames) = (tr.feed solver f).1.feedAll solver frames := rfl

theorem feed_of_refuse (solver : Solver α) (tr : Tracker α) {f : Frame α} {e : FrameError α}
    (h : f.options.accept f.timestamp = .error e) : tr.feed solver f = (tr, .error e) := by
  unfold feed
  rw [step_of_refuse solver tr f.detections h]

theorem Kept.feed_of_accept {seen : List ℕ} {tr : Tracker α} (hkept : Kept seen tr)
    (solver : Solver α) {f : Frame α} {pose : Pose α}
    (h : f.options.accept f.timestamp = .ok pose) :
    let tr' := tr.accepted solver f.detections f.timestamp pose f.options.lanes
    tr.feed solver f = (tr', .ok (tr'.reported f.options.lanes
      (tr.observed f.detections f.timestamp pose f.options.lanes))) := by
  intro tr'
  unfold feed
  rw [hkept.step_eq solver f.detections h]

theorem Kept.feed {seen : List ℕ} {tr : Tracker α} (h : Kept seen tr) (solver : Solver α)
    (f : Frame α) : ∃ seen', Kept seen' (tr.feed solver f).1 := by
  unfold Tracker.feed
  cases hstep : tr.step solver f.detections f.timestamp f.options with
  | error e => exact ⟨seen, h⟩
  | ok r => exact ⟨_, h.step hstep⟩

theorem feedAll_concat (solver : Solver α) (tr : Tracker α) (frames : List (Frame α))
    (f : Frame α) :
    tr.feedAll solver (frames ++ [f]) = ((tr.feedAll solver frames).feed solver f).1 := by
  unfold feedAll
  rw [List.foldl_append]
  rfl

theorem Kept.feedAll {seen : List ℕ} {tr : Tracker α} (h : Kept seen tr) (solver : Solver α)
    (frames : List (Frame α)) : ∃ seen', Kept seen' (tr.feedAll solver frames) := by
  induction frames generalizing seen tr with
  | nil => exact ⟨seen, h⟩
  | cons f frames ih =>
    obtain ⟨seen', hnext⟩ := h.feed solver f
    exact ih hnext

end Tracker

end ObstacleTracking
