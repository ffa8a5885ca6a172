import ObstacleTracking.Proofs.Track.Bookkeeping
import ObstacleTracking.Proofs.Tracker.Survival

/-!
# Bookkeeping between frames

After every frame that is accepted the books of all live tracks agree, whatever was hit, missed,
dropped and started before, and the frame reports the live tracks that are old enough and were not
missed too often, in the order of their ids.
-/

namespace ObstacleTracking

/-! ### Reports -/

namespace TrackSet

variable {α : Type} [Scalar α] {c : LifecycleConfig α} {offset : Vec3 α} {s : TrackSet α}

theorem ids_report (c : LifecycleConfig α) (offset : Vec3 α) (s : TrackSet α) :
    (s.report c offset).map TrackedObject.id =
      (s.tracks.toList.filter (Track.isReported c)).map Track.id := by
  unfold report
  rw [List.map_map]
  rfl

/-- Nothing is reported twice, and older tracks come first. -/
theorem Ordered.ascending_report (hs : s.Ordered) (c : LifecycleConfig α) (offset : Vec3 α) :
    ((s.report c offset).map TrackedObject.id).Pairwise (· < ·) := by
  rw [ids_report]
  exact List.Pairwise.sublist (List.filter_sublist.map Track.id) hs

theorem mem_report {o : TrackedObject α} :
    o ∈ s.report c offset ↔ ∃ t ∈ s.tracks.toList,
      (c.reportAgeMinimum ≤ t.age ∧ t.invisible ≤ c.reportInvisibleMaximum) ∧
        o = TrackedObject.ofTrack offset t := by
  unfold report Track.isReported
  simp only [List.mem_map, List.mem_filter, Bool.and_eq_true, decide_eq_true_iff]
  constructor
  · intro h
    obtain ⟨t, ⟨ht, hinvisible, hage⟩, rfl⟩ := h
    exact ⟨t, ht, ⟨hage, hinvisible⟩, rfl⟩
  · intro h
    obtain ⟨t, ht, ⟨hage, hinvisible⟩, rfl⟩ := h
    exact ⟨t, ⟨ht, hinvisible, hage⟩, rfl⟩

end TrackSet

namespace Tracker

variable {α : Type} [Scalar α]

/-! ### Books -/

section Frames

variable {c : Config α} {dt : α} {observations : List (Observation α)}
  {run : Assignment × CostMatrix α} {before after : TrackSet α} {followed started : List (Track α)}
  {n : ℕ}

theorem Followed.isLabelled {i : ℕ} {t t' : Track α} (h : Followed c dt observations run i t t')
    (ht : Track.Counted n t) (hn : n + 1 < 2 ^ 32) : t'.IsLabelled := by
  have hpredicted : Track.Counted n (t.predict c.filter dt) :=
    ⟨ht.age_lt, ht.visible_pos, ht.sum_le⟩
  cases h with
  | hit _ _ => exact hpredicted.isLabelled_hit hn _ _ _
  | miss _ => exact hpredicted.isLabelled_miss hn _

theorem invisible_le_of_not_isExpired {t : Track α}
    (h : TrackSet.isExpired c.lifecycle t = false) :
    t.invisible ≤ c.lifecycle.invisibleMaximum := by
  unfold TrackSet.isExpired at h
  rw [Bool.or_eq_false_iff, decide_eq_false_iff_not, UInt32.not_lt] at h
  exact h.1

variable (K : Type) [Field K] [LinearOrder K] [IsStrictOrderedRing K] [RoundedRatios K α]

include K

/-- One frame leaves the books of all live tracks in order. -/
theorem FrameAccount.bookkept
    (h : FrameAccount c dt observations run before followed started after) (hn : n + 1 < 2 ^ 32)
    (hc : c.error? = none) (hbefore : ∀ t ∈ before.tracks.toList, Track.Counted n t) :
    ∀ t ∈ after.tracks.toList, Track.Bookkept c.lifecycle t := by
  intro t' ht'
  have hcounted := h.counted hn hbefore t' ht'
  have hfraction := fraction_of_error?_eq_none hc
  rw [h.tracks_eq] at ht'
  rcases List.mem_append.mp ht' with ht' | ht'
  · obtain ⟨hmem, hkept⟩ := List.mem_filter.mp ht'
    have hkept : TrackSet.isExpired c.lifecycle t' = false := by simpa using hkept
    obtain ⟨i, t, ht, hfollowed⟩ := h.exists_followed hmem
    have hlabelled :=
      hfollowed.isLabelled (hbefore t (Array.mem_toList_iff.mpr (Array.mem_of_getElem? ht))) hn
    refine hcounted.bookkept K hn.le hlabelled (invisible_le_of_not_isExpired hkept) ?_
    intro hage
    exact hcounted.le_visibleRatio K hn.le hfraction (isOftenSeen_of_not_isExpired hkept hage)
  · -- a track that the frame starts was not there when expired ones were dropped
    obtain ⟨k, o, -, rfl⟩ := h.exists_started ht'
    refine hcounted.bookkept K hn.le (Track.isLabelled_start _ _ _ _) UInt32.zero_le ?_
    intro _
    rw [Track.visibleRatio_start K]
    unfold Requirement.holds at hfraction
    rw [Bool.and_eq_true, decide_eq_true_iff, decide_eq_true_iff] at hfraction
    exact hfraction.2

end Frames

/-- After each accepted frame of a tracker, up to the one before the `2 ^ 32`th, the books of all
live tracks are in order, and what is reported are the live tracks that are old enough and were not
missed too often, each once, in the order of their ids. -/
theorem step_bookkept (K : Type) [Field K] [LinearOrder K] [IsStrictOrderedRing K]
    [RoundedRatios K α] {seen : List ℕ} {tr tr' : Tracker α} (h : Reachable seen tr)
    {solver : Solver α} {detections : List (Detection α)} {timestamp : α}
    {options : FrameOptions α} {report : FrameReport α}
    (hstep : tr.step solver detections timestamp options = .ok (tr', report))
    (hframes : tr'.frameCount < 2 ^ 32) :
    (∀ t ∈ tr'.tracks.tracks.toList, Track.Bookkept tr'.config.lifecycle t) ∧
      (report.objects.map TrackedObject.id).Pairwise (· < ·) ∧
      ∀ o, o ∈ report.objects ↔ ∃ t ∈ tr'.tracks.tracks.toList,
        (tr'.config.lifecycle.reportAgeMinimum ≤ t.age ∧
          t.invisible ≤ tr'.config.lifecycle.reportInvisibleMaximum) ∧
        o = TrackedObject.ofTrack tr'.offset t := by
  obtain ⟨pose, haccept⟩ := exists_accept_of_step hstep
  obtain ⟨tr₁, followed, started, hstep₁, hconfig, hepoch, haccount⟩ :=
    h.kept.exists_frameAccount solver detections haccept
  rw [hstep, Except.ok.injEq, Prod.mk.injEq] at hstep₁
  obtain ⟨rfl, hreport⟩ := hstep₁
  have hcount := frameCount_nextEpoch hepoch
  rw [hcount] at hframes
  have hobjects : report.objects = tr'.tracks.report tr'.config.lifecycle tr'.offset := by
    rw [hreport]
    rfl
  rw [hobjects]
  refine ⟨?_, (h.step hstep).kept.ordered.ascending_report _ _, fun o => TrackSet.mem_report⟩
  rw [hconfig]
  exact haccount.bookkept K hframes h.error?_config (h.counted (by omega))

section Example

attribute [local instance] ExactRoots.real

/-- The books of three tracks are in order, and the one that was missed is reported too. -/
theorem step_bookkept_second :
    ∃ tr' report, (parked patient [0, 100]).step (Solver.cheapest ℝ) ([200, 0].map ahead) 1
        ⟨some Mat.identity, none⟩ = .ok (tr', report) ∧
      tr'.tracks.tracks.toList.map (fun t => (t.id, t.invisible)) = [(1, 0), (2, 1), (3, 0)] ∧
      (∀ t ∈ tr'.tracks.tracks.toList, Track.Bookkept patient.lifecycle t) ∧
      (report.objects.map TrackedObject.id).Pairwise (· < ·) ∧
      2 ∈ report.objects.map TrackedObject.id := by
  obtain ⟨seen, hreachable⟩ := exists_reachable_parked error?_patient rfl [0, 100]
  obtain ⟨tr', report, hstep, hconfig, hcount, htracks⟩ := exists_step_parked_two
  have hframes : tr'.frameCount < 2 ^ 32 := by
    rw [hcount]
    decide
  obtain ⟨hbooks, hascending, hreported⟩ := step_bookkept ℝ hreachable hstep hframes
  rw [hconfig] at hbooks hreported
  have hmissed : ((2, 1) : ℕ × UInt32) ∈
      tr'.tracks.tracks.toList.map fun t => (t.id, t.invisible) := by
    rw [htracks]
    decide
  obtain ⟨t, ht, heq⟩ := List.mem_map.mp hmissed
  obtain ⟨hid, hinvisible⟩ := Prod.mk.inj heq
  have hshown : patient.lifecycle.reportAgeMinimum ≤ t.age ∧
      t.invisible ≤ patient.lifecycle.reportInvisibleMaximum := by
    rw [hinvisible]
    exact ⟨UInt32.zero_le, by decide⟩
  have hobject := (hreported _).mpr ⟨t, ht, hshown, rfl⟩
  exact ⟨tr', report, hstep, htracks, hbooks, hascending, List.mem_map.mpr ⟨_, hobject, hid⟩⟩

end Example

end Tracker

end ObstacleTracking
