import ObstacleTracking.Proofs.Association.Removal
import ObstacleTracking.Proofs.Tracker.Relocated

/-!
# Detections that are left over

A detection that starts a track of its own has no say in what becomes of the others. Without it the
matrix of a frame has a column less, and its connected blocks and what the solver is asked may be
others, but where no two largest matchings nearly tie the same pairs are matched.
-/

namespace ObstacleTracking

open Assignment

namespace Tracker

/-! ### What is left over besides -/

section LeftOver

variable {α : Type} [Scalar α] {observations observations' : List (Observation α)}
  {run run' : Assignment × CostMatrix α} {j k : ℕ}

theorem Relocated.unmatched_eq (h : Relocated (skip j) observations observations' run run')
    (hascending : run.1.unmatchedDetections.Pairwise (· < ·))
    (hascending' : run'.1.unmatchedDetections.Pairwise (· < ·))
    (hk : run'.1.unmatchedDetections[k]? = some j) :
    run.1.unmatchedDetections.map (skip j) = run'.1.unmatchedDetections.eraseIdx k := by
  rw [← filter_ne_eq_eraseIdx (hascending'.imp Nat.ne_of_lt) hk]
  -- skipping keeps the order, so both lists ascend and are equal if they have the same members
  refine List.Pairwise.eq_of_mem_iff ?_ (hascending'.filter _) ?_
  · exact List.pairwise_map.mpr (hascending.imp fun hlt => skip_strictMono j hlt)
  · intro i
    rw [List.mem_map, List.mem_filter, bne_iff_ne]
    constructor
    · intro hi
      obtain ⟨i', hi', rfl⟩ := hi
      exact ⟨(h.mem_unmatched_iff i').mpr hi', skip_ne j i'⟩
    · intro hi
      obtain ⟨hi, hne⟩ := hi
      obtain ⟨i', rfl⟩ := exists_skip_eq hne
      exact ⟨i', (h.mem_unmatched_iff i').mp hi, rfl⟩

theorem Relocated.leftOver_eraseIdx (h : Relocated (skip j) observations observations' run run')
    (hascending : run.1.unmatchedDetections.Pairwise (· < ·))
    (hascending' : run'.1.unmatchedDetections.Pairwise (· < ·))
    (hobserved : ∀ i ∈ run'.1.unmatchedDetections, (observations'[i]?).isSome = true)
    (hk : run'.1.unmatchedDetections[k]? = some j) :
    leftOver observations run = (leftOver observations' run').eraseIdx k := by
  rw [h.leftOver_eq, h.unmatched_eq hascending hascending' hk, leftOver]
  exact filterMap_eraseIdx hobserved k

theorem isSome_of_mem_unmatched {solver : Solver α} {tr : Tracker α} {e : Epoch α}
    (he : tr.epoch = some e) {dt : α} {i : ℕ}
    (hi : i ∈ (tr.assigned solver dt observations).1.unmatchedDetections) :
    (observations[i]?).isSome = true := by
  rw [assigned_of_epoch solver he, mem_unmatchedDetections_blockwise, cols_costs] at hi
  rw [List.getElem?_eq_getElem hi.1]
  rfl

end LeftOver

/-! ### One frame with and without it -/

variable {K α : Type} [Field K] [LinearOrder K] [IsStrictOrderedRing K] [Scalar α]
  [ExactScalar K α] [SignedScalar α] {solver : Solver α}

/-- Without a detection that is left over the same pairs are matched. -/
theorem relocated_eraseIdx (hs : solver.IsExact) {tr : Tracker α}
    (hconfig : tr.config.error? = none) {e : Epoch α} (he : tr.epoch = some e) {dt : α}
    {observations observations' : List (Observation α)} {j : ℕ}
    (hobservations : ∀ k, observations[k]? = observations'[skip j k]?)
    (hties : (tr.costs dt observations').HasNoNearTies tr.config.matching.gate)
    (hj : j ∈ (tr.assigned solver dt observations').1.unmatchedDetections) :
    Relocated (skip j) observations observations' (tr.assigned solver dt observations)
      (tr.assigned solver dt observations') := by
  have hinjective := (skip_strictMono j).injective
  refine relocated_assigned he hinjective hobservations ?_
  rw [assigned_of_epoch solver he, mem_unmatchedDetections_blockwise] at hj
  rw [assigned_of_epoch solver he, assigned_of_epoch solver he]
  refine (isEmbedded_costs tr dt hinjective hobservations).toFinset_matched_eq strictMono_id
    (skip_strictMono j) hs (isFinite_gate hconfig) (isNonneg_costs K hconfig dt observations' _)
    hties ?_
  intro p hp
  exact mem_places_costs hinjective hobservations
    ((isMatching_blockwise solver _ _).subset_places hp)
    (exists_skip_eq (hj.2 p (List.mem_toFinset.mp hp)))

/-- Whatever is left over does not disturb the others. In a matrix without near ties the other rows
keep their pairs when a row that was left over is deleted. In a frame without near ties the `k`th of
the detections that are left over starts the `k`th new track; without it the tracks that were live
before become the same, and the other new tracks are the same apart from their ids. -/
theorem undisturbed_by_left_over (hs : solver.IsExact) :
    (∀ (c : CostMatrix α) (gate : α) (i : ℕ), Scalar.isFinite gate = true →
      Block.IsNonneg c gate (Block.whole c) → c.HasNoNearTies gate →
      i ∈ (blockwise solver c gate).unmatchedTracks →
      (blockwise solver c gate).matched =
        (blockwise solver (c.eraseRow i) gate).matched.map fun p => (skip i p.1, p.2)) ∧
    ∀ (seen : List ℕ) (tr : Tracker α) (e : Epoch α) (detections : List (Detection α))
      (timestamp : α) (options : FrameOptions α) (pose : Pose α) (k j : ℕ),
      Reachable seen tr → tr.epoch = some e → options.accept timestamp = .ok pose →
      let dt := tr.elapsed timestamp
      let observations := tr.observed detections timestamp pose options.lanes
      (tr.costs dt observations).HasNoNearTies tr.config.matching.gate →
      (tr.assigned solver dt observations).1.unmatchedDetections[k]? = some j →
      ∃ tr₁ tr₂ report₁ report₂,
        tr.step solver detections timestamp options = .ok (tr₁, report₁) ∧
        tr.step solver (detections.eraseIdx j) timestamp options = .ok (tr₂, report₂) ∧
        tr.tracks.survivors tr₂.tracks = tr.tracks.survivors tr₁.tracks ∧
        (∃ o, observations[j]? = some o ∧ (tr.tracks.newcomers tr₁.tracks)[k]? =
          some (Track.start tr.config.filter tr.config.lifecycle.historyCapacity
            (tr.tracks.lastId + 1 + k) o)) ∧
        (tr.tracks.newcomers tr₂.tracks).map Track.anonymous =
          ((tr.tracks.newcomers tr₁.tracks).map Track.anonymous).eraseIdx k := by
  constructor
  · intro c gate i hfinite hc hties hi
    exact matched_eraseRow hs hfinite hc hties hi
  · intro seen tr e detections timestamp options pose k j h he haccept dt observations hties hk
    have hobservations := getElem?_observed_place (getElem?_eraseIdx_skip detections j) tr timestamp
      pose options.lanes
    have hrelocated := relocated_eraseIdx hs h.error?_config he hobservations hties
      (List.mem_of_getElem? hk)
    have hobserved : ∀ i ∈ (tr.assigned solver dt observations).1.unmatchedDetections,
        (observations[i]?).isSome = true := fun i hi => isSome_of_mem_unmatched he hi
    refine ⟨_, _, _, _, h.kept.step_eq solver detections haccept,
      h.kept.step_eq solver (detections.eraseIdx j) haccept,
      (h.kept.survivors_accepted hrelocated).symm, ?_, ?_⟩
    · obtain ⟨o, ho⟩ := Option.isSome_iff_exists.mp (hobserved j (List.mem_of_getElem? hk))
      refine ⟨o, ho, ?_⟩
      rw [h.kept.newcomers_accepted]
      refine getElem?_startAll _ _ ?_
      unfold leftOver
      rw [getElem?_filterMap hobserved, hk]
      exact ho
    · rw [h.kept.newcomers_accepted, h.kept.newcomers_accepted, anonymous_startAll,
        anonymous_startAll, List.eraseIdx_map, hrelocated.leftOver_eraseIdx
          (pairwise_unmatched_assigned solver tr _ _) (pairwise_unmatched_assigned solver tr _ _)
          hobserved hk]

/-- A tracker that stood at the origin in its first frame and saw one obstacle there. -/
noncomputable def afterFirstFrame (d : Detection ExactNumber) : Tracker ExactNumber :=
  { config := .standard
    tracks := (TrackSet.create .standard 5 {} (observe .standard (-Pose.origin Mat.identity)
      Mat.identity none [d])).1
    epoch := some ⟨-Pose.origin Mat.identity, .real 0, 1⟩ }

theorem accept_identity (x : ℝ) :
    FrameOptions.accept ⟨some Mat.identity, none⟩ (ExactNumber.real x) = .ok Mat.identity := by
  have hfinite : (Mat.identity : Pose ExactNumber).isFinite = true := by
    unfold Mat.isFinite Mat.identity Mat.diagonal Mat.ofFn
    rw [Vector.all_eq_true]
    intro i hi
    rw [Vector.getElem_ofFn, Vector.all_eq_true]
    intro j hj
    rw [Vector.getElem_ofFn]
    dsimp only
    split <;> rfl
  exact FrameOptions.accept_eq_ok_iff.mpr ⟨rfl, rfl, hfinite⟩

theorem reachable_afterFirstFrame (d : Detection ExactNumber) :
    Reachable ([] ++ (afterFirstFrame d).tracks.ids) (afterFirstFrame d) := by
  have hcreate : create (Config.standard : Config ExactNumber) = .ok ⟨.standard, {}, none⟩ :=
    create_standard ℝ
  have hstep : ∃ report, step (fun _ _ => none) ⟨.standard, {}, none⟩ [d] (.real 0)
      ⟨some Mat.identity, none⟩ = .ok (afterFirstFrame d, report) := by
    unfold step
    rw [accept_identity]
    exact ⟨_, rfl⟩
  obtain ⟨report, hstep⟩ := hstep
  exact .step (.create hcreate) hstep

theorem undisturbed_by_left_over_two :
    (∃ i, (blockwise (Solver.cheapest ExactNumber) CostMatrix.withGaps (.real 2)).matched =
      (blockwise (Solver.cheapest ExactNumber) (CostMatrix.withGaps.eraseRow i)
        (.real 2)).matched.map fun p => (skip i p.1, p.2)) ∧
    ∃ j tr₁ tr₂ report₁ report₂,
      let tr := afterFirstFrame ⟨[], [], 0, 0, 0, .vehicle⟩
      tr.step (Solver.cheapest ExactNumber)
        [⟨[], [], 0, 0, 0, .vehicle⟩, ⟨[], [], 0, 0, 0, .vehicle⟩] (.real 1)
        ⟨some Mat.identity, none⟩ = .ok (tr₁, report₁) ∧
      tr.step (Solver.cheapest ExactNumber)
        ([⟨[], [], 0, 0, 0, .vehicle⟩, ⟨[], [], 0, 0, 0, .vehicle⟩].eraseIdx j) (.real 1)
        ⟨some Mat.identity, none⟩ = .ok (tr₂, report₂) ∧
      tr.tracks.survivors tr₂.tracks = tr.tracks.survivors tr₁.tracks := by
  obtain ⟨hmatrix, hframe⟩ := undisturbed_by_left_over (K := ℝ) (α := ExactNumber)
    Solver.isExact_cheapest
  constructor
  · obtain ⟨i, hi⟩ := exists_unmatchedTracks_withGaps
    refine ⟨i, hmatrix CostMatrix.withGaps (.real 2) i rfl (CostMatrix.isNonneg_withGaps (.real 2))
      (CostMatrix.hasNoNearTies_of_const (x := .real 1) ?_) hi⟩
    intro t ht d hd hgated
    have htrack : t < 2 := ht
    have hdetection : d < 2 := hd
    interval_cases t <;> interval_cases d
    · rfl
    · cases hgated
    · rfl
    · cases hgated
  · set d : Detection ExactNumber := ⟨[], [], 0, 0, 0, .vehicle⟩
    set tr := afterFirstFrame d
    set dt := tr.elapsed (.real 1)
    set observations := tr.observed [d, d] (.real 1) Mat.identity none
    have hrows : (tr.costs dt observations).rows = 1 := rows_costs _ _ _
    have hcols : (tr.costs dt observations).cols = 2 := cols_costs _ _ _
    obtain ⟨j, hj⟩ : ∃ j, j ∈ (tr.assigned (Solver.cheapest ExactNumber) dt
        observations).1.unmatchedDetections := by
      refine exists_unmatchedDetections (c := tr.costs dt observations) _ ?_
      rw [hrows, hcols]
      exact Nat.one_lt_two
    obtain ⟨k, hk⟩ := List.getElem?_of_mem hj
    -- one track and two like observations
    have hties : (tr.costs dt observations).HasNoNearTies tr.config.matching.gate := by
      refine CostMatrix.hasNoNearTies_of_const (x := (tr.costs dt observations).entry 0 0) ?_
      intro i hi j hj _
      rw [hrows] at hi
      rw [hcols] at hj
      interval_cases i
      interval_cases j
      · rfl
      · exact (entry_costs rfl rfl).trans (entry_costs rfl rfl).symm
    obtain ⟨tr₁, tr₂, report₁, report₂, hstep₁, hstep₂, hsurvivors, -⟩ :=
      hframe _ tr _ [d, d] (.real 1) ⟨some Mat.identity, none⟩ Mat.identity k j
        (reachable_afterFirstFrame d) rfl (accept_identity 1) hties hk
    exact ⟨j, tr₁, tr₂, report₁, report₂, hstep₁, hstep₂, hsurvivors⟩

end Tracker

end ObstacleTracking
