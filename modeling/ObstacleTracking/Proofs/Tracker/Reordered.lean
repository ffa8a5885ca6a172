import ObstacleTracking.Proofs.Association.Places
import ObstacleTracking.Proofs.Tracker.Relocated

/-!
# Detections in another order

The columns of the cost matrix of a frame are numbered as its detections come. Where one matching
alone is best, it is found under any numbers, so the order of the detections only decides which of
the new ids each new track gets.
-/

namespace ObstacleTracking

open Assignment

namespace Tracker

/-! ### What is left over in another order -/

section LeftOver

variable {α : Type} [Scalar α] {observations observations' : List (Observation α)}
  {run run' : Assignment × CostMatrix α} {place : ℕ → ℕ}

theorem Relocated.unmatched_perm (h : Relocated place observations observations' run run')
    (hplace : Function.Bijective place) (hascending : run.1.unmatchedDetections.Pairwise (· < ·))
    (hascending' : run'.1.unmatchedDetections.Pairwise (· < ·)) :
    (run.1.unmatchedDetections.map place).Perm run'.1.unmatchedDetections := by
  have hnodup : run.1.unmatchedDetections.Nodup := hascending.imp Nat.ne_of_lt
  have hnodup' : run'.1.unmatchedDetections.Nodup := hascending'.imp Nat.ne_of_lt
  -- the places may be in any order, so only the members of the two lists can be compared
  rw [List.perm_ext_iff_of_nodup (hnodup.map hplace.injective) hnodup']
  intro i
  obtain ⟨j, rfl⟩ := hplace.surjective i
  rw [List.mem_map_of_injective hplace.injective]
  exact (h.mem_unmatched_iff j).symm

theorem Relocated.leftOver_perm (h : Relocated place observations observations' run run')
    (hplace : Function.Bijective place) (hascending : run.1.unmatchedDetections.Pairwise (· < ·))
    (hascending' : run'.1.unmatchedDetections.Pairwise (· < ·)) :
    (leftOver observations run).Perm (leftOver observations' run') := by
  rw [h.leftOver_eq]
  exact (h.unmatched_perm hplace hascending hascending').filterMap _

end LeftOver

/-! ### One frame in two orders -/

variable {K α : Type} [Field K] [LinearOrder K] [IsStrictOrderedRing K] [Scalar α]
  [ExactScalar K α] [SignedScalar α] {solver : Solver α}

/-- Where one matching alone is best, the same observations are matched at their new places. -/
theorem relocated_reordered (hs : solver.IsExact) {tr : Tracker α}
    (hconfig : tr.config.error? = none) {e : Epoch α} (he : tr.epoch = some e) {dt : α}
    {observations observations' : List (Observation α)} {place : ℕ → ℕ}
    (hplace : Function.Bijective place)
    (hobservations : ∀ k, observations[k]? = observations'[place k]?)
    (hone : (tr.costs dt observations).HasOneBest tr.config.matching.gate) :
    Relocated place observations observations' (tr.assigned solver dt observations)
      (tr.assigned solver dt observations') := by
  refine relocated_assigned he hplace.injective hobservations ?_
  rw [assigned_of_epoch solver he, assigned_of_epoch solver he]
  refine (isEmbedded_costs tr dt hplace.injective hobservations).toFinset_matched_image ?_ hs
    (isFinite_gate hconfig) (isNonneg_costs K hconfig dt observations' _) hone
  intro p hp
  exact mem_places_costs hplace.injective hobservations hp (hplace.surjective p.2)

/-- The order of the detections does not matter. In a frame of which one matching alone is best the
tracks that were live before become the same in any order of the detections. The new tracks are the
same and have the same ids, but which track has which id may differ. -/
theorem step_reordered (hs : solver.IsExact) {seen : List ℕ} {tr : Tracker α} {e : Epoch α}
    (h : Reachable seen tr) (he : tr.epoch = some e) {detections detections' : List (Detection α)}
    (hperm : detections.Perm detections') {timestamp : α} {options : FrameOptions α} {pose : Pose α}
    (haccept : options.accept timestamp = .ok pose)
    (hone : (tr.costs (tr.elapsed timestamp)
      (tr.observed detections timestamp pose options.lanes)).HasOneBest tr.config.matching.gate) :
    ∃ tr₁ tr₂ report₁ report₂,
      tr.step solver detections timestamp options = .ok (tr₁, report₁) ∧
      tr.step solver detections' timestamp options = .ok (tr₂, report₂) ∧
      tr.tracks.survivors tr₂.tracks = tr.tracks.survivors tr₁.tracks ∧
      (tr.tracks.newcomers tr₂.tracks).map Track.id =
        (tr.tracks.newcomers tr₁.tracks).map Track.id ∧
      ((tr.tracks.newcomers tr₁.tracks).map Track.anonymous).Perm
        ((tr.tracks.newcomers tr₂.tracks).map Track.anonymous) := by
  obtain ⟨place, hplace, hdetections⟩ := exists_place_of_perm hperm
  have hobservations := getElem?_observed_place hdetections tr timestamp pose options.lanes
  have hrelocated := relocated_reordered hs h.error?_config he hplace hobservations hone
  have hleftOver := hrelocated.leftOver_perm hplace
    (pairwise_unmatched_assigned solver tr _ _) (pairwise_unmatched_assigned solver tr _ _)
  refine ⟨_, _, _, _, h.kept.step_eq solver detections haccept,
    h.kept.step_eq solver detections' haccept, h.kept.survivors_accepted hrelocated, ?_, ?_⟩
  · rw [h.kept.newcomers_accepted, h.kept.newcomers_accepted, ids_startAll, ids_startAll,
      hleftOver.length_eq]
  · rw [h.kept.newcomers_accepted, h.kept.newcomers_accepted, anonymous_startAll,
      anonymous_startAll]
    exact hleftOver.map _

section Example

attribute [local instance] ExactRoots.real

theorem step_reordered_ahead :
    let tr := (⟨.standard, {}, none⟩ : Tracker ℝ).accepted (Solver.cheapest ℝ) [ahead 0] 0
      Mat.identity none
    ∃ tr₁ tr₂ report₁ report₂,
      tr.step (Solver.cheapest ℝ) [ahead 0, ahead 100] 1 ⟨some Mat.identity, none⟩ =
        .ok (tr₁, report₁) ∧
      tr.step (Solver.cheapest ℝ) [ahead 100, ahead 0] 1 ⟨some Mat.identity, none⟩ =
        .ok (tr₂, report₂) ∧
      tr.tracks.survivors tr₂.tracks = tr.tracks.survivors tr₁.tracks := by
  intro tr
  have hvalid := Config.error?_standard ℝ ℝ
  have hcreate : create (Config.standard : Config ℝ) = .ok ⟨.standard, {}, none⟩ :=
    create_standard ℝ
  have haccept : ∀ t : ℝ, FrameOptions.accept ⟨some Mat.identity, none⟩ t = .ok Mat.identity :=
    fun t => accept_of_pose rfl t
  have hstep := (kept_create hcreate).step_eq (Solver.cheapest ℝ) [ahead 0] (haccept 0)
  have hreachable := (Reachable.create hcreate).step hstep
  have hparked : tr = parked .standard [0] := by
    obtain ⟨report, hfirst⟩ := exists_step_first (Solver.cheapest ℝ) (c := .standard) rfl [0]
    exact congrArg Prod.fst (Except.ok.inj (hstep.symm.trans hfirst))
  have hobserved : tr.observed [ahead 0, ahead 100] 1 Mat.identity none =
      [0, 100].map observedAhead := by
    rw [hparked]
    exact observe_ahead [0, 100]
  have hone : (tr.costs (tr.elapsed 1) (tr.observed [ahead 0, ahead 100] 1 Mat.identity
      none)).HasOneBest tr.config.matching.gate := by
    refine CostMatrix.hasOneBest_of_one_gated (K := ℝ) (p := (0, 0)) (isFinite_gate hvalid)
      (isNonneg_costs ℝ hvalid _ _ _) ?_
    intro i hi j hj hgated
    rw [hobserved, hparked] at hi hj hgated
    rw [rows_parked] at hi
    rw [cols_costs] at hj
    have hi : i < 1 := hi
    have hj : j < 2 := hj
    interval_cases i
    interval_cases j
    · rfl
    · have hx : [(0 : ℝ)][0]? = some 0 := rfl
      have hy : [(0 : ℝ), 100][1]? = some 100 := rfl
      have hfar := not_isGated_parked (c := .standard) rfl hx hy (by norm_num)
      exact absurd ((hfar _).symm.trans hgated) Bool.false_ne_true
  obtain ⟨tr₁, tr₂, report₁, report₂, hstep₁, hstep₂, hsurvivors, -⟩ :=
    step_reordered (K := ℝ) Solver.isExact_cheapest hreachable rfl
      (List.Perm.swap (ahead 100) (ahead 0) []) (haccept 1) hone
  exact ⟨tr₁, tr₂, report₁, report₂, hstep₁, hstep₂, hsurvivors⟩

end Example

end Tracker

end ObstacleTracking
