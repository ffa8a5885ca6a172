import ObstacleTracking.Proofs.Association.Blockwise
import ObstacleTracking.Proofs.Tracker.Live
import ObstacleTracking.Proofs.Tracker.StaticScene

/-!
# Matches correct their tracks

A matched pair passes the gate, and its cost is the score that the filter is given. So if the gate
is not above the largest score, the filter rejects no match, and since the covariances of live
tracks are positive definite it finds the inverse that it asks for. Only a frame that comes too
soon after the one before is skipped, with all of its matches.
-/

namespace ObstacleTracking.Tracker

open ExactScalar

variable {α : Type} [Scalar α] {seen : List ℕ} {tr : Tracker α} {c : Config α} {dt : α}
  {observations : List (Observation α)}

theorem Reachable.isFinite_timestamp (h : Reachable seen tr) {e : Epoch α}
    (he : tr.epoch = some e) : Scalar.isFinite e.timestamp = true := by
  cases h with
  | create h =>
    rw [(eq_of_create h).1] at he
    cases he
  | @step seen tr tr' solver detections timestamp options report h hstep =>
    obtain ⟨pose, haccept, rfl⟩ := h.eq_accepted hstep
    have hlatest : e.timestamp = timestamp := by
      rw [← Option.some.inj he]
      cases tr.epoch <;> rfl
    rw [hlatest]
    exact (FrameOptions.accept_eq_ok_iff.mp haccept).1

theorem passes_of_matched {solver : Solver α} {i j : ℕ}
    (h : (i, j) ∈ (tr.assigned solver dt observations).1.matched) :
    CostMatrix.passes tr.config.matching.gate
      ((tr.assigned solver dt observations).2.entry i j) = true := by
  cases he : tr.epoch with
  | none =>
    rw [assigned_of_none solver he] at h
    exact absurd h List.not_mem_nil
  | some e =>
    rw [assigned_of_epoch solver he] at h ⊢
    exact (isMatching_blockwise solver _ _).gated (i, j) (List.mem_toFinset.mpr h)

section Exact

variable (K : Type) [Field K] [LinearOrder K] [ExactScalar K α]

include K

theorem Reachable.isFinite_elapsed (h : Reachable seen tr) {timestamp : α}
    (hfinite : Scalar.isFinite timestamp = true) :
    Scalar.isFinite (tr.elapsed timestamp) = true := by
  unfold elapsed
  cases he : tr.epoch with
  | none =>
    dsimp only
    rw [zero_eq (K := K)]
    exact isFinite_ofField 0
  | some e =>
    obtain ⟨s, hs⟩ := exists_of_isFinite (K := K) (h.isFinite_timestamp he)
    obtain ⟨t, ht⟩ := exists_of_isFinite (K := K) hfinite
    dsimp only
    rw [hs, ht, sub_ofField]
    exact isFinite_ofField _

/-- What passes the gate does not score too high, if the gate is not above the largest score. -/
theorem not_scoreMaximum_lt_of_passes (hc : c.error? = none)
    (hgate : c.matching.gate ≤ c.filter.scoreMaximum) {cost : α}
    (hpasses : CostMatrix.passes c.matching.gate cost = true) : ¬ c.filter.scoreMaximum < cost := by
  obtain ⟨g, hg⟩ := exists_of_isFinite (K := K) (isFinite_gate hc)
  obtain ⟨-, -, -, -, m, -, -, -, -, -, hm⟩ :=
    exists_pos_of_error?_eq_none (K := K) (Config.filter_of_error?_eq_none hc)
  unfold CostMatrix.passes at hpasses
  rw [Bool.and_eq_true, decide_eq_true_iff] at hpasses
  obtain ⟨hfinite, hcost⟩ := hpasses
  obtain ⟨x, rfl⟩ := exists_of_isFinite (K := K) hfinite
  rw [hg, le_ofField] at hcost
  rw [hg, hm, le_ofField] at hgate
  rw [hm, lt_ofField]
  exact not_lt.mpr (hcost.trans hgate)

variable [IsStrictOrderedRing K]

/-- A match whose score is not too high corrects its track, if the time step counts. -/
theorem outcome_hit (hc : c.filter.error? = none) {t : Track α} (ht : t.HasSoundCovariances)
    (o : Observation α) {score : α} (hscore : ¬ c.filter.scoreMaximum < score)
    (hdt : Scalar.isFinite dt = true) :
    let outcome := ((t.predict c.filter dt).hit c.filter c.lifecycle o score dt).2
    (Scalar.doubleSpacing < dt → outcome = .corrected ∨ outcome = .breakdown) ∧
      (¬ Scalar.doubleSpacing < dt → outcome = .skipped) := by
  have hstep : Filter.isStep dt = true ↔ Scalar.doubleSpacing < dt := by
    unfold Filter.isStep
    rw [hdt, Bool.true_and, decide_eq_true_iff]
  constructor
  · intro hlong
    rcases outcome_update c.filter t.estimate o.anchor (hstep.mpr hlong) hscore with
      hsingular | happlied
    · exact absurd hsingular (isSound_update hc ht.estimate o.anchor score dt).2
    · exact happlied
  · intro hshort
    show (Filter.update c.filter t.estimate o.anchor score dt).outcome = .skipped
    unfold Filter.update
    rw [if_neg (mt hstep.mp hshort)]

/-- If the gate is not above the largest score of the filter, every match of an accepted frame
corrects its track, with the change of velocity shortened or not, or the frame came too soon and
all its matches are skipped. None is rejected, and no covariance is singular. -/
theorem step_corrects_matched (h : Reachable seen tr)
    (hgate : tr.config.matching.gate ≤ tr.config.filter.scoreMaximum) (solver : Solver α)
    (detections : List (Detection α)) {timestamp : α} {options : FrameOptions α} {pose : Pose α}
    (haccept : options.accept timestamp = .ok pose) :
    let dt := tr.elapsed timestamp
    let observations := tr.observed detections timestamp pose options.lanes
    let run := tr.assigned solver dt observations
    ∃ tr' report followed started,
      tr.step solver detections timestamp options = .ok (tr', report) ∧
      FrameAccount tr.config dt observations run tr.tracks followed started tr'.tracks ∧
      ∀ i j, (i, j) ∈ run.1.matched → ∃ t o t' outcome,
        tr.tracks.tracks[i]? = some t ∧ observations[j]? = some o ∧
        (t.predict tr.config.filter dt).hit tr.config.filter tr.config.lifecycle o
          (run.2.entry i j) dt = (t', outcome) ∧
        followed[i]? = some t' ∧
        (Scalar.doubleSpacing < dt → outcome = .corrected ∨ outcome = .breakdown) ∧
        (¬ Scalar.doubleSpacing < dt → outcome = .skipped) := by
  intro dt observations run
  obtain ⟨tr', followed, started, hstep, -, -, haccount⟩ :=
    h.kept.exists_frameAccount solver detections haccept
  refine ⟨tr', _, followed, started, hstep, haccount, ?_⟩
  intro i j hpair
  obtain ⟨t, ht⟩ := haccount.exists_track (List.mem_map_of_mem hpair)
  obtain ⟨o, ho⟩ := haccount.exists_observation (List.mem_append_left _ (List.mem_map_of_mem hpair))
  have hsound := h.hasSoundCovariances (K := K) t
    (Array.mem_toList_iff.mpr (Array.mem_of_getElem? ht))
  have hscore := not_scoreMaximum_lt_of_passes K h.error?_config hgate (passes_of_matched hpair)
  have hfinite := h.isFinite_elapsed K (FrameOptions.accept_eq_ok_iff.mp haccept).1
  exact ⟨t, o, _, _, ht, ho, rfl, haccount.followed_of_matched ht hpair ho,
    outcome_hit K (Config.filter_of_error?_eq_none h.error?_config) hsound o hscore hfinite⟩

end Exact

section Example

attribute [local instance] ExactRoots.real

/-- An obstacle that stands still is matched a second after it was first seen. -/
theorem step_corrects_matched_standing :
    let d : Detection ℝ := ⟨[], [], 0, Vec3.forward, 0, .vehicle⟩
    let tr := (⟨.standard, {}, none⟩ : Tracker ℝ).accepted (Solver.cheapest ℝ) [d] 0
      Mat.identity none
    ∃ t o score outcome, tr.tracks.tracks[0]? = some t ∧
      ((t.predict tr.config.filter 1).hit tr.config.filter tr.config.lifecycle o score 1).2 =
        outcome ∧ (outcome = .corrected ∨ outcome = .breakdown) := by
  intro d tr
  have hcreate : create (Config.standard : Config ℝ) = .ok ⟨.standard, {}, none⟩ :=
    create_standard ℝ
  have haccept : ∀ t : ℝ, FrameOptions.accept ⟨some Mat.identity, none⟩ t = .ok Mat.identity :=
    fun t => accept_of_pose rfl t
  have hreachable := (Reachable.create hcreate).step
    ((kept_create hcreate).step_eq (Solver.cheapest ℝ) [d] (haccept 0))
  have hstill : IsStill Mat.identity [d] 1 tr :=
    isStill_first (kept_create hcreate) rfl rfl (Solver.cheapest ℝ) 0 none
  have hscene : IsScene tr.config Mat.identity [d] :=
    isScene_forward fun d' hd' => congrArg Detection.direction (List.mem_singleton.mp hd')
  have hmatched := hstill.assigned_eq hscene Solver.isExact_cheapest 1 (tr.elapsed 1) none
  have hpair : (0, 0) ∈ (tr.assigned (Solver.cheapest ℝ) (tr.elapsed 1)
      (tr.observed [d] 1 Mat.identity none)).1.matched := by
    rw [hmatched]
    exact List.mem_singleton_self _
  obtain ⟨tr', report, followed, started, -, -, hcorrects⟩ :=
    step_corrects_matched ℝ hreachable le_rfl (Solver.cheapest ℝ) [d] (haccept 1)
  obtain ⟨t, o, t', outcome, ht, -, hhit, -, hused, -⟩ := hcorrects 0 0 hpair
  have helapsed : tr.elapsed 1 = 1 := sub_zero 1
  have hlong : Scalar.doubleSpacing < tr.elapsed 1 := by
    rw [helapsed]
    unfold Scalar.doubleSpacing Scalar.ratio
    norm_num
  rw [helapsed] at hhit
  exact ⟨t, o, _, outcome, ht, congrArg Prod.snd hhit, hused hlong⟩

end Example

end ObstacleTracking.Tracker
