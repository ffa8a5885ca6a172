import ObstacleTracking.Proofs.Scalar.Field
import ObstacleTracking.Proofs.Track.Run
import ObstacleTracking.Proofs.Tracker.Survival

/-!
# Live tracks

A live track was started by an observation, and then hit or missed once in every frame. So what
starts have and what hits and missed frames keep, all live tracks have after any frames, whatever
the solver answers.
-/

namespace ObstacleTracking.Tracker

variable {α : Type} [Scalar α]

/-- The observation is one that frames make under a configuration. -/
def IsObserved (c : MatchingConfig α) (o : Observation α) : Prop :=
  ∃ (pose : Pose α) (d : Detection α) (lane : Vec3 α),
    o = { Observation.ofDetection pose c.bins? d with lane }

theorem isObserved_of_mem_observe {c : MatchingConfig α} {offset : Vec3 α} {pose : Pose α}
    {lanes : Option (LaneMap α)} {detections : List (Detection α)} {o : Observation α}
    (ho : o ∈ observe c offset pose lanes detections) : IsObserved c o := by
  unfold observe at ho
  obtain ⟨d, -, rfl⟩ := List.mem_map.mp ho
  exact ⟨_, d, _, rfl⟩

/-! ### Runs -/

theorem Reachable.feedAll {seen : List ℕ} {tr : Tracker α} (h : Reachable seen tr)
    (solver : Solver α) (frames : List (Frame α)) :
    ∃ seen', Reachable seen' (tr.feedAll solver frames) := by
  induction frames generalizing seen tr with
  | nil => exact ⟨seen, h⟩
  | cons f frames ih =>
    have hfeed : ∃ seen', Reachable seen' (tr.feed solver f).1 := by
      unfold feed
      cases hstep : tr.step solver f.detections f.timestamp f.options with
      | error e => exact ⟨seen, h⟩
      | ok r => exact ⟨_, h.step hstep⟩
    obtain ⟨seen', hnext⟩ := hfeed
    exact ih hnext

theorem Reachable.accepted {seen : List ℕ} {tr : Tracker α} (h : Reachable seen tr)
    (solver : Solver α) (detections : List (Detection α)) {timestamp : α}
    {options : FrameOptions α} {pose : Pose α} (haccept : options.accept timestamp = .ok pose) :
    ∃ seen', Reachable seen' (tr.accepted solver detections timestamp pose options.lanes) :=
  ⟨_, h.step (h.kept.step_eq solver detections haccept)⟩

theorem Reachable.eq_accepted {seen : List ℕ} {tr tr' : Tracker α} (h : Reachable seen tr)
    {solver : Solver α} {detections : List (Detection α)} {timestamp : α}
    {options : FrameOptions α} {report : FrameReport α}
    (hstep : tr.step solver detections timestamp options = .ok (tr', report)) :
    ∃ pose, options.accept timestamp = .ok pose ∧
      tr' = tr.accepted solver detections timestamp pose options.lanes := by
  obtain ⟨pose, haccept⟩ := exists_accept_of_step hstep
  have heq := h.kept.step_eq solver detections haccept
  rw [hstep, Except.ok.injEq, Prod.mk.injEq] at heq
  exact ⟨pose, haccept, heq.1⟩

/-- A track after an accepted frame was live before and is followed, or the frame started it. -/
theorem Kept.mem_feed {seen : List ℕ} {tr : Tracker α} (hkept : Kept seen tr) (solver : Solver α)
    {f : Frame α} {pose : Pose α} (haccept : f.options.accept f.timestamp = .ok pose) {t' : Track α}
    (ht' : t' ∈ (tr.feed solver f).1.tracks.tracks.toList) :
    (∃ t ∈ tr.tracks.tracks.toList, ∃ m,
        t' = follow tr.config (tr.elapsed f.timestamp) t m) ∨
      ∃ id o, tr.tracks.lastId < id ∧
        t' = Track.start tr.config.filter tr.config.lifecycle.historyCapacity id o := by
  rw [hkept.feed_of_accept solver haccept] at ht'
  rcases List.mem_append.mp ht' with hfollowed | hstarted
  · obtain ⟨i, hi, rfl⟩ := List.mem_mapIdx.mp (List.mem_filter.mp hfollowed).1
    exact Or.inl ⟨_, List.getElem_mem hi, _, rfl⟩
  · obtain ⟨p, hp, rfl⟩ := List.mem_map.mp hstarted
    have hnew := (List.mem_range'_1.mp (List.of_mem_zip hp).1).1
    exact Or.inr ⟨p.1, p.2, hnew, rfl⟩

section Runs

variable {seen : List ℕ} {tr : Tracker α}

theorem Kept.lastId_le_feed (hkept : Kept seen tr) (solver : Solver α) (f : Frame α) :
    tr.tracks.lastId ≤ (tr.feed solver f).1.tracks.lastId := by
  cases haccept : f.options.accept f.timestamp with
  | error e => rw [feed_of_refuse solver tr haccept]
  | ok pose =>
    rw [hkept.feed_of_accept solver haccept]
    exact Nat.le_add_right _ _

theorem Kept.lastId_le_feedAll (hkept : Kept seen tr) (solver : Solver α)
    (frames : List (Frame α)) : tr.tracks.lastId ≤ (tr.feedAll solver frames).tracks.lastId := by
  induction frames generalizing tr seen with
  | nil => exact le_rfl
  | cons f frames ih =>
    obtain ⟨seen', hkept'⟩ := hkept.feed solver f
    exact (hkept.lastId_le_feed solver f).trans (ih hkept')

end Runs

/-! ### Live tracks -/

variable {c : Config α} {P : Track α → Prop}

/-- What every start has and what hits and missed frames keep, every live track has. -/
theorem Reachable.forall_live {seen : List ℕ} {tr : Tracker α} (h : Reachable seen tr)
    (hc : tr.config = c)
    (hhit : ∀ t, P t → ∀ o, IsObserved c.matching o → ∀ score dt,
      P (follow c dt t (some (o, score))))
    (hmiss : ∀ t, P t → ∀ dt, P (follow c dt t none))
    (hstart : ∀ id o, IsObserved c.matching o →
      P (Track.start c.filter c.lifecycle.historyCapacity id o)) :
    ∀ t ∈ tr.tracks.tracks.toList, P t := by
  induction h with
  | create h =>
    intro t ht
    rw [(eq_of_create h).1] at ht
    exact absurd ht List.not_mem_nil
  | step h hstep ih =>
    obtain ⟨pose, -, rfl⟩ := h.eq_accepted hstep
    subst hc
    refine forall_advanced (ih rfl) ?_ ?_ ?_
    · intro t ht o ho score
      exact hhit t ht o (isObserved_of_mem_observe ho) score _
    · intro t ht
      exact hmiss t ht _
    · intro id o ho
      exact hstart id o (isObserved_of_mem_observe ho)

/-! ### Covariances -/

variable {K : Type} [Field K] [LinearOrder K] [IsStrictOrderedRing K] [ExactScalar K α]

theorem hasSoundCovariances_follow (hc : c.filter.error? = none) {dt : α} {t : Track α}
    (ht : t.HasSoundCovariances) (m : Option (Observation α × α)) :
    (follow c dt t m).HasSoundCovariances := by
  have hpredicted := ht.react hc (.predict dt)
  cases m with
  | none => exact hpredicted.react hc (.miss dt)
  | some m => exact hpredicted.react hc (.hit c.lifecycle m.1 m.2 dt)

theorem Reachable.hasSoundCovariances {seen : List ℕ} {tr : Tracker α} (h : Reachable seen tr) :
    ∀ t ∈ tr.tracks.tracks.toList, t.HasSoundCovariances := by
  have hfilter := Config.filter_of_error?_eq_none h.error?_config
  refine h.forall_live rfl ?_ ?_ ?_
  · intro t ht o _ score dt
    exact hasSoundCovariances_follow hfilter ht (some (o, score))
  · intro t ht dt
    exact hasSoundCovariances_follow hfilter ht none
  · intro id o _
    exact Track.hasSoundCovariances_start hfilter _ id o

end ObstacleTracking.Tracker
