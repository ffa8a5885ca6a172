import ObstacleTracking.Proofs.Track.Visibility
import ObstacleTracking.Proofs.Tracker.Frames

/-!
# Matched tracks survive

A live track is counted without a wrap and was seen often enough in the latest frame in which that
was asked. So a hit can end a track only in the frame in which the question is asked of it first,
and if it is asked from the start, the tracks that a frame leaves with no missed frame are those
that it matched and those that it started.
-/

namespace ObstacleTracking

/-- The members of a list that pass a test, one by one at the places where it is passed. -/
theorem forall₂_filter_getElem? {β : Type} {l : List β} {p : β → Bool} {places : List ℕ}
    (hascending : places.Pairwise (· < ·)) (hlt : ∀ i ∈ places, i < l.length)
    (h : ∀ i b, l[i]? = some b → (p b = true ↔ i ∈ places)) :
    List.Forall₂ (fun i b => l[i]? = some b) places (l.filter p) := by
  have hmembers : (l.zipIdx.filter fun x => p x.1).map Prod.fst = l.filter p := by
    have hmap := List.filter_map (f := Prod.fst) (p := p) (l := l.zipIdx)
    rw [List.zipIdx_map_fst] at hmap
    exact hmap.symm
  have hplaces : (l.zipIdx.filter fun x => p x.1).map Prod.snd = places := by
    have hsub := (List.filter_sublist (p := fun x => p x.1) (l := l.zipIdx)).map Prod.snd
    rw [List.zipIdx_map_snd] at hsub
    refine List.Pairwise.eq_of_mem_iff (List.Pairwise.sublist hsub List.pairwise_lt_range')
      hascending ?_
    intro i
    simp only [List.mem_map, List.mem_filter, List.mem_zipIdx_iff_getElem?, Prod.exists]
    constructor
    · intro hi
      obtain ⟨b, k, ⟨hb, hp⟩, rfl⟩ := hi
      exact (h k b hb).mp hp
    · intro hi
      have hb := List.getElem?_eq_getElem (hlt i hi)
      exact ⟨_, i, ⟨hb, (h i _ hb).mpr hi⟩, rfl⟩
  rw [← hmembers, ← hplaces, List.forall₂_map_left_iff, List.forall₂_map_right_iff,
    List.forall₂_same]
  intro x hx
  exact List.mem_zipIdx_iff_getElem?.mp (List.mem_filter.mp hx).1

namespace Tracker

variable {α : Type} [Scalar α]

/-! ### Valid configurations -/

theorem Reachable.error?_config {seen : List ℕ} {tr : Tracker α} (h : Reachable seen tr) :
    tr.config.error? = none := by
  induction h with
  | @create config tr h =>
    obtain ⟨rfl, herror⟩ := eq_of_create h
    exact herror
  | @step seen tr tr' solver detections timestamp options report h hstep ih =>
    obtain ⟨pose, haccept⟩ := exists_accept_of_step hstep
    obtain ⟨tr₁, -, -, hstep₁, hconfig, -⟩ :=
      h.kept.exists_frameAccount solver detections haccept
    rw [hstep, Except.ok.injEq, Prod.mk.injEq] at hstep₁
    rw [hstep₁.1, hconfig]
    exact ih

theorem fraction_of_error?_eq_none {c : Config α} (h : c.error? = none) :
    Requirement.fraction.holds c.lifecycle.visibleRatioMinimum = true := by
  unfold Config.error? LifecycleConfig.error? at h
  simp only [Option.or_eq_none_iff] at h
  exact Requirement.holds_of_fault? h.2.2.2.1

theorem isFinite_gate {c : Config α} (h : c.error? = none) :
    Scalar.isFinite c.matching.gate = true := by
  unfold Config.error? MatchingConfig.error? at h
  simp only [Option.or_eq_none_iff] at h
  have hholds := Requirement.holds_of_fault? h.1.1
  unfold Requirement.holds at hholds
  rw [Bool.and_eq_true] at hholds
  exact hholds.1

/-! ### Live tracks are counted and often seen -/

variable {c : Config α} {dt : α} {observations : List (Observation α)}
  {run : Assignment × CostMatrix α} {before after : TrackSet α} {followed started : List (Track α)}
  {n : ℕ}

theorem Followed.counted {i : ℕ} {t t' : Track α} (h : Followed c dt observations run i t t')
    (ht : Track.Counted n t) (hn : n + 1 < 2 ^ 32) : Track.Counted (n + 1) t' := by
  have hpredicted : Track.Counted n (t.predict c.filter dt) :=
    ⟨ht.age_lt, ht.visible_pos, ht.sum_le⟩
  cases h with
  | hit _ _ => exact hpredicted.hit hn _ _ _
  | miss _ => exact hpredicted.miss hn _

/-- One frame leaves all live tracks counted. -/
theorem FrameAccount.counted
    (h : FrameAccount c dt observations run before followed started after) (hn : n + 1 < 2 ^ 32)
    (hbefore : ∀ t ∈ before.tracks.toList, Track.Counted n t) :
    ∀ t ∈ after.tracks.toList, Track.Counted (n + 1) t := by
  intro t' ht'
  rw [h.tracks_eq] at ht'
  rcases List.mem_append.mp ht' with ht' | ht'
  · obtain ⟨i, t, ht, hfollowed⟩ := h.exists_followed (List.mem_filter.mp ht').1
    have hcounted := hbefore t (Array.mem_toList_iff.mpr (Array.mem_of_getElem? ht))
    exact hfollowed.counted hcounted hn
  · obtain ⟨k, o, -, rfl⟩ := h.exists_started ht'
    exact Track.counted_start _ _ _ _ _

theorem Reachable.counted {seen : List ℕ} {tr : Tracker α} (h : Reachable seen tr)
    (hframes : tr.frameCount < 2 ^ 32) :
    ∀ t ∈ tr.tracks.tracks.toList, Track.Counted tr.frameCount t := by
  induction h with
  | create h =>
    intro t ht
    rw [(eq_of_create h).1] at ht
    exact absurd ht List.not_mem_nil
  | @step seen tr tr' solver detections timestamp options report h hstep ih =>
    obtain ⟨pose, haccept⟩ := exists_accept_of_step hstep
    obtain ⟨tr₁, followed, started, hstep₁, -, hepoch, haccount⟩ :=
      h.kept.exists_frameAccount solver detections haccept
    rw [hstep, Except.ok.injEq, Prod.mk.injEq] at hstep₁
    rw [← hstep₁.1] at hepoch haccount
    have hcount := frameCount_nextEpoch hepoch
    rw [hcount] at hframes ⊢
    exact haccount.counted hframes (ih (by omega))

theorem isOftenSeen_of_not_isExpired {t : Track α}
    (h : TrackSet.isExpired c.lifecycle t = false) : Track.IsOftenSeen c.lifecycle t := by
  intro hage hratio
  unfold TrackSet.isExpired at h
  simp [hage, hratio] at h

section Ratios

variable (K : Type) [Field K] [LinearOrder K] [IsStrictOrderedRing K] [ExactRatios K α]

include K

theorem isOftenSeen_start (hc : c.error? = none) (id : ℕ) (o : Observation α) :
    Track.IsOftenSeen c.lifecycle (Track.start c.filter c.lifecycle.historyCapacity id o) :=
  fun _ => Track.not_ratio_lt_of_visible_eq K (fraction_of_error?_eq_none hc) rfl

/-- One frame leaves all live tracks often seen. -/
theorem FrameAccount.isOftenSeen
    (h : FrameAccount c dt observations run before followed started after) (hc : c.error? = none) :
    ∀ t ∈ after.tracks.toList, Track.IsOftenSeen c.lifecycle t := by
  intro t' ht'
  rw [h.tracks_eq] at ht'
  rcases List.mem_append.mp ht' with ht' | ht'
  · refine isOftenSeen_of_not_isExpired ?_
    simpa using (List.mem_filter.mp ht').2
  · obtain ⟨k, o, -, rfl⟩ := h.exists_started ht'
    exact isOftenSeen_start K hc _ o

theorem Reachable.isOftenSeen {seen : List ℕ} {tr : Tracker α} (h : Reachable seen tr) :
    ∀ t ∈ tr.tracks.tracks.toList, Track.IsOftenSeen tr.config.lifecycle t := by
  cases h with
  | create h =>
    intro t ht
    rw [(eq_of_create h).1] at ht
    exact absurd ht List.not_mem_nil
  | @step seen tr tr' solver detections timestamp options report h hstep =>
    obtain ⟨pose, haccept⟩ := exists_accept_of_step hstep
    obtain ⟨tr₁, followed, started, hstep₁, hconfig, -, haccount⟩ :=
      h.kept.exists_frameAccount solver detections haccept
    rw [hstep, Except.ok.injEq, Prod.mk.injEq] at hstep₁
    rw [← hstep₁.1] at hconfig haccount
    rw [hconfig]
    exact haccount.isOftenSeen K h.error?_config

/-! ### What a hit may end -/

/-- A hit ends a track only when the track is just old enough. -/
theorem age_of_isExpired_hit (hc : c.error? = none) {t : Track α} (ht : Track.Counted n t)
    (hn : n + 1 < 2 ^ 32) (hoften : Track.IsOftenSeen c.lifecycle t) {o : Observation α} {score : α}
    (h : TrackSet.isExpired c.lifecycle
      ((t.predict c.filter dt).hit c.filter c.lifecycle o score dt).1 = true) :
    t.age.toNat + 1 = c.lifecycle.reportAgeMinimum.toNat ∧ 0 < t.age.toNat := by
  have hpredicted : Track.Counted n (t.predict c.filter dt) :=
    ⟨ht.age_lt, ht.visible_pos, ht.sum_le⟩
  have hage : ((t.predict c.filter dt).hit c.filter c.lifecycle o score dt).1.age.toNat =
      t.age.toNat + 1 := ht.age_succ hn
  have hvisible : ((t.predict c.filter dt).hit c.filter c.lifecycle o score dt).1.visible.toNat =
      t.visible.toNat + 1 := ht.visible_succ hn
  have hinvisible : ((t.predict c.filter dt).hit c.filter c.lifecycle o score dt).1.invisible = 0 :=
    rfl
  generalize hhit : ((t.predict c.filter dt).hit c.filter c.lifecycle o score dt).1 = t' at *
  have hfraction := fraction_of_error?_eq_none hc
  have hnever : ¬ c.lifecycle.invisibleMaximum < t'.invisible := by
    rw [hinvisible]
    exact UInt32.not_lt_zero
  unfold TrackSet.isExpired at h
  rw [decide_eq_false hnever, Bool.false_or, Bool.and_eq_true, decide_eq_true_iff,
    decide_eq_true_iff, UInt32.le_iff_toNat_le, hage] at h
  obtain ⟨hold, hratio⟩ := h
  constructor
  · by_contra hne
    have hle : c.lifecycle.reportAgeMinimum ≤ t.age := by
      rw [UInt32.le_iff_toNat_le]
      omega
    have hseen := hpredicted.not_ratio_lt_hit K hn hfraction (hoften hle) o score dt
      (f := c.filter) (c := c.lifecycle)
    rw [hhit] at hseen
    exact hseen hratio
  · refine Nat.pos_of_ne_zero ?_
    intro hzero
    have hsum := ht.sum_le
    have hpos := ht.visible_pos
    exact Track.not_ratio_lt_of_visible_eq K hfraction (by omega) hratio

end Ratios

/-- A track after a frame comes from the observation at a place: it was matched to it, or the
observation started it. -/
inductive ComesFrom (c : Config α) (dt : α) (observations : List (Observation α))
    (run : Assignment × CostMatrix α) (before : TrackSet α) (t' : Track α) (j : ℕ) : Prop
  | hit {i : ℕ} {t : Track α} {o : Observation α} (ht : before.tracks[i]? = some t)
      (hmatched : (i, j) ∈ run.1.matched) (ho : observations[j]? = some o)
      (heq : t' = follow c dt t (some (o, run.2.entry i j)))
  | started {k : ℕ} {o : Observation α} (hleft : run.1.unmatchedDetections[k]? = some j)
      (ho : observations[j]? = some o)
      (heq : t' = Track.start c.filter c.lifecycle.historyCapacity (before.lastId + 1 + k) o)

namespace FrameAccount

theorem exists_observation
    (h : FrameAccount c dt observations run before followed started after) {j : ℕ}
    (hj : j ∈ run.1.matched.map Prod.snd ++ run.1.unmatchedDetections) :
    ∃ o, observations[j]? = some o :=
  ⟨_, List.getElem?_eq_getElem (List.mem_range.mp (h.observations_once.mem_iff.mp hj))⟩

theorem exists_track (h : FrameAccount c dt observations run before followed started after) {i : ℕ}
    (hi : i ∈ run.1.matched.map Prod.fst) : ∃ t, before.tracks[i]? = some t :=
  ⟨_, Array.getElem?_eq_getElem
    (List.mem_range.mp (h.tracks_once.mem_iff.mp (List.mem_append_left _ hi)))⟩

theorem exists_before (h : FrameAccount c dt observations run before followed started after) {i : ℕ}
    {t' : Track α} (ht' : followed[i]? = some t') :
    ∃ t, before.tracks[i]? = some t ∧ Followed c dt observations run i t t' := by
  have hi : i < before.tracks.size := by
    rw [← h.length_followed]
    exact (List.getElem?_eq_some_iff.mp ht').1
  have ht := Array.getElem?_eq_getElem hi
  obtain ⟨t'', ht'', hfollowed⟩ := h.follows i _ ht
  rw [ht', Option.some_inj] at ht''
  rw [← ht''] at hfollowed
  exact ⟨_, ht, hfollowed⟩

theorem followed_of_matched
    (h : FrameAccount c dt observations run before followed started after) {i j : ℕ} {t : Track α}
    {o : Observation α} (ht : before.tracks[i]? = some t) (hpair : (i, j) ∈ run.1.matched)
    (ho : observations[j]? = some o) :
    followed[i]? = some (follow c dt t (some (o, run.2.entry i j))) := by
  obtain ⟨hmatched, -, -⟩ := List.nodup_append'.mp h.nodup_matched
  rw [h.followed_eq, followAll, List.getElem?_mapIdx, Array.getElem?_toList, ht,
    matchOf?_of_matched hmatched hpair ho, Option.map_some]

/-- A track that is followed has no missed frame exactly if it is matched, and then it is kept. -/
theorem seen_iff (h : FrameAccount c dt observations run before followed started after)
    (hbefore : ∀ t ∈ before.tracks.toList, Track.Counted n t) (hn : n + 1 < 2 ^ 32)
    (hhit : ∀ i j t', (i, j) ∈ run.1.matched → followed[i]? = some t' →
      TrackSet.isExpired c.lifecycle t' = false)
    {i : ℕ} {t' : Track α} (ht' : followed[i]? = some t') :
    (t'.invisible == 0 && !TrackSet.isExpired c.lifecycle t') = true ↔
      i ∈ run.1.matched.map Prod.fst := by
  obtain ⟨-, -, hapart⟩ := List.nodup_append'.mp h.nodup_matched
  obtain ⟨t, ht, hfollowed⟩ := h.exists_before ht'
  cases hfollowed with
  | @hit j o hpair ho =>
    rw [hhit i j _ hpair ht']
    exact iff_of_true rfl (List.mem_map_of_mem hpair)
  | miss hunmatched =>
    refine iff_of_false ?_ fun hmem => hapart hmem hunmatched
    have hcounted := hbefore t (Array.mem_toList_iff.mpr (Array.mem_of_getElem? ht))
    have hsucc := hcounted.invisible_succ hn
    intro hzero
    have hzero : t.invisible + 1 = 0 := beq_iff_eq.mp (Bool.and_eq_true_iff.mp hzero).1
    rw [hzero] at hsucc
    exact absurd hsucc.symm (Nat.succ_ne_zero _)

theorem forall₂_hit (h : FrameAccount c dt observations run before followed started after)
    (hascending : run.1.matched.Pairwise fun p q => p.1 < q.1)
    (hbefore : ∀ t ∈ before.tracks.toList, Track.Counted n t) (hn : n + 1 < 2 ^ 32)
    (hhit : ∀ i j t', (i, j) ∈ run.1.matched → followed[i]? = some t' →
      TrackSet.isExpired c.lifecycle t' = false) :
    List.Forall₂ (fun j t' => ComesFrom c dt observations run before t' j)
      (run.1.matched.map Prod.snd)
      (followed.filter fun t => t.invisible == 0 && !TrackSet.isExpired c.lifecycle t) := by
  have hplaces : ∀ i ∈ run.1.matched.map Prod.fst, i < followed.length := by
    intro i hi
    obtain ⟨t, ht⟩ := h.exists_track hi
    rw [h.length_followed]
    exact (Array.getElem?_eq_some_iff.mp ht).1
  have hfilter := forall₂_filter_getElem? (List.pairwise_map.mpr hascending) hplaces
    fun i t' ht' => h.seen_iff hbefore hn hhit ht'
  rw [List.forall₂_map_left_iff] at hfilter ⊢
  have hmembers := (List.forall₂_and_left (p := fun p => p ∈ run.1.matched) run.1.matched _).mpr
    ⟨fun p hp => hp, hfilter⟩
  refine hmembers.imp ?_
  intro p t' hp
  obtain ⟨hpair, ht'⟩ := hp
  obtain ⟨t, ht⟩ := h.exists_track (List.mem_map_of_mem hpair)
  obtain ⟨o, ho⟩ := h.exists_observation (List.mem_append_left _ (List.mem_map_of_mem hpair))
  rw [h.followed_of_matched ht hpair ho, Option.some_inj] at ht'
  exact .hit ht hpair ho ht'.symm

theorem forall₂_started (h : FrameAccount c dt observations run before followed started after) :
    List.Forall₂ (fun j t' => ComesFrom c dt observations run before t' j)
      run.1.unmatchedDetections (started.filter fun t => t.invisible == 0) := by
  have hall : (started.filter fun t => t.invisible == 0) = started := by
    refine List.filter_eq_self.mpr ?_
    intro t ht
    obtain ⟨k, o, -, rfl⟩ := h.exists_started ht
    rfl
  rw [hall]
  refine List.forall₂_iff_get.mpr ⟨h.length_started.symm, ?_⟩
  intro k hk hk'
  obtain ⟨o, ho, hstart⟩ := h.starts k _ (List.getElem?_eq_getElem hk)
  rw [List.getElem?_eq_getElem hk', Option.some_inj] at hstart
  exact .started (List.getElem?_eq_getElem hk) ho hstart

/-- Where the tracks come from that a frame leaves with no missed frame, if no hit ended a track. -/
theorem forall₂_comesFrom (h : FrameAccount c dt observations run before followed started after)
    (hascending : run.1.matched.Pairwise fun p q => p.1 < q.1)
    (hbefore : ∀ t ∈ before.tracks.toList, Track.Counted n t) (hn : n + 1 < 2 ^ 32)
    (hhit : ∀ i j t', (i, j) ∈ run.1.matched → followed[i]? = some t' →
      TrackSet.isExpired c.lifecycle t' = false) :
    List.Forall₂ (fun j t' => ComesFrom c dt observations run before t' j)
      (run.1.matched.map Prod.snd ++ run.1.unmatchedDetections)
      (after.tracks.toList.filter fun t => t.invisible == 0) := by
  rw [h.tracks_eq, List.filter_append, List.filter_filter]
  exact List.rel_append (h.forall₂_hit hascending hbefore hn hhit) h.forall₂_started

end FrameAccount

theorem pairwise_assigned (solver : Solver α) (tr : Tracker α) (dt : α)
    (observations : List (Observation α)) :
    (tr.assigned solver dt observations).1.matched.Pairwise fun p q => p.1 < q.1 := by
  unfold assigned
  cases tr.epoch with
  | none => exact List.Pairwise.nil
  | some e => exact pairwise_matched_blockwise solver _ _

/-- A frame drops a track that it matched only if the track is then just as old as a reported one
has to be. So if that is an age of one or less, the tracks without a missed frame after the frame
are those that its observations hit or started, one for each. -/
theorem step_keeps_seen (K : Type) [Field K] [LinearOrder K] [IsStrictOrderedRing K]
    [ExactRatios K α] {seen : List ℕ} {tr tr' : Tracker α} (h : Reachable seen tr)
    {solver : Solver α} {detections : List (Detection α)} {timestamp : α}
    {options : FrameOptions α} {report : FrameReport α}
    (hstep : tr.step solver detections timestamp options = .ok (tr', report))
    (hframes : tr'.frameCount < 2 ^ 32) :
    ∃ pose, options.accept timestamp = .ok pose ∧
      let dt := tr.elapsed timestamp
      let observations := tr.observed detections timestamp pose options.lanes
      let run := tr.assigned solver dt observations
      (∀ i j t, (i, j) ∈ run.1.matched → tr.tracks.tracks[i]? = some t → t.id ∉ tr'.tracks.ids →
        t.age.toNat + 1 = tr.config.lifecycle.reportAgeMinimum.toNat) ∧
      (tr.config.lifecycle.reportAgeMinimum ≤ 1 →
        ∃ sources, sources.Perm (List.range detections.length) ∧
          List.Forall₂ (fun j t' => ComesFrom tr.config dt observations run tr.tracks t' j) sources
            (tr'.tracks.tracks.toList.filter fun t => t.invisible == 0)) := by
  obtain ⟨pose, haccept⟩ := exists_accept_of_step hstep
  refine ⟨pose, haccept, ?_⟩
  intro dt observations run
  obtain ⟨tr₁, followed, started, hstep₁, -, hepoch, haccount⟩ :=
    h.kept.exists_frameAccount solver detections haccept
  rw [hstep, Except.ok.injEq, Prod.mk.injEq] at hstep₁
  rw [← hstep₁.1] at hepoch haccount
  have hcount := frameCount_nextEpoch hepoch
  rw [hcount] at hframes
  have hcounts := h.counted (by omega)
  have hseen := h.isOftenSeen K
  -- if the hit of a matched track expires, its age is the least age that is reported
  have hexpired : ∀ i j t, (i, j) ∈ run.1.matched → tr.tracks.tracks[i]? = some t →
      ∀ t', followed[i]? = some t' → TrackSet.isExpired tr.config.lifecycle t' = true →
        t.age.toNat + 1 = tr.config.lifecycle.reportAgeMinimum.toNat ∧ 0 < t.age.toNat := by
    intro i j t hpair ht t' ht' hexp
    have hmem := Array.mem_toList_iff.mpr (Array.mem_of_getElem? ht)
    obtain ⟨o, ho⟩ := haccount.exists_observation
      (List.mem_append_left _ (List.mem_map_of_mem hpair))
    rw [haccount.followed_of_matched ht hpair ho, Option.some_inj] at ht'
    rw [← ht'] at hexp
    exact age_of_isExpired_hit K h.error?_config (hcounts t hmem) hframes (hseen t hmem) hexp
  constructor
  · intro i j t hpair ht hgone
    obtain ⟨t', ht', hfollowed⟩ := haccount.follows i t ht
    refine (hexpired i j t hpair ht t' ht' ?_).1
    by_contra hkept
    refine hgone ?_
    rw [haccount.ids_after, ← hfollowed.id_eq]
    refine List.mem_append_left _ (List.mem_map_of_mem (List.mem_filter.mpr ?_))
    exact ⟨List.mem_of_getElem? ht', by simpa using hkept⟩
  · intro hyoung
    refine ⟨run.1.matched.map Prod.snd ++ run.1.unmatchedDetections, ?_, ?_⟩
    · have honce := haccount.observations_once
      rw [length_observed] at honce
      exact honce
    · refine haccount.forall₂_comesFrom (pairwise_assigned solver tr dt observations)
        hcounts hframes ?_
      intro i j t' hpair ht'
      obtain ⟨t, ht, -⟩ := haccount.exists_before ht'
      rw [← Bool.not_eq_true]
      intro hexp
      obtain ⟨hage, hpos⟩ := hexpired i j _ hpair ht t' ht' hexp
      rw [UInt32.le_iff_toNat_le] at hyoung
      have hone : (1 : UInt32).toNat = 1 := rfl
      omega

section Example

attribute [local instance] ExactRoots.real

theorem isExpired_patient (t : Track ℝ) :
    TrackSet.isExpired patient.lifecycle t = decide (1 < t.invisible) := by
  have hratio : ¬ t.visibleRatio < patient.lifecycle.visibleRatioMinimum :=
    not_lt.mpr t.visibleRatio_nonneg
  unfold TrackSet.isExpired
  rw [decide_eq_false hratio, Bool.and_false, Bool.or_false]
  rfl

/-- A second frame in which one vehicle is hit, one is missed and one is new. -/
theorem exists_step_parked_two :
    ∃ tr' report, (parked patient [0, 100]).step (Solver.cheapest ℝ) ([200, 0].map ahead) 1
        ⟨some Mat.identity, none⟩ = .ok (tr', report) ∧
      tr'.config = patient ∧ tr'.frameCount = 2 ∧
      tr'.tracks.tracks.toList.map (fun t => (t.id, t.invisible)) = [(1, 0), (2, 1), (3, 0)] := by
  obtain ⟨seen, hreachable⟩ := exists_reachable_parked error?_patient rfl [0, 100]
  have haccept : FrameOptions.accept ⟨some Mat.identity, none⟩ (1 : ℝ) = .ok Mat.identity :=
    accept_of_pose rfl 1
  refine ⟨_, _, hreachable.kept.step_eq _ _ haccept, rfl, rfl, ?_⟩
  have hobserved : (parked patient [0, 100]).observed ([200, 0].map ahead) 1 Mat.identity none =
      [200, 0].map observedAhead := observe_ahead [200, 0]
  have hepoch : (parked patient [0, 100]).epoch = some ⟨-Pose.origin Mat.identity, 0, 1⟩ := rfl
  have hassigned := (assigned_of_epoch (Solver.cheapest ℝ) hepoch
    ((parked patient [0, 100]).elapsed 1) ([200, 0].map observedAhead)).trans
      (congrArg (·, _) (blockwise_parked_two rfl Solver.isExact_cheapest _))
  unfold accepted
  dsimp only
  rw [hobserved, hassigned, show (parked patient [0, 100]).config = patient from rfl]
  unfold advanced
  simp only [isExpired_patient]
  rfl

/-- Of the three tracks the one that was missed does not come from a detection. -/
theorem step_keeps_seen_second :
    ∃ tr' report, (parked patient [0, 100]).step (Solver.cheapest ℝ) ([200, 0].map ahead) 1
        ⟨some Mat.identity, none⟩ = .ok (tr', report) ∧
      tr'.tracks.tracks.toList.map (fun t => (t.id, t.invisible)) = [(1, 0), (2, 1), (3, 0)] ∧
      (tr'.tracks.tracks.toList.filter fun t => t.invisible == 0).length = 2 := by
  obtain ⟨seen, hreachable⟩ := exists_reachable_parked error?_patient rfl [0, 100]
  obtain ⟨tr', report, hstep, -, hcount, htracks⟩ := exists_step_parked_two
  have hframes : tr'.frameCount < 2 ^ 32 := by
    rw [hcount]
    decide
  obtain ⟨pose, -, -, hyoung⟩ := step_keeps_seen ℝ hreachable hstep hframes
  obtain ⟨sources, hsources, hcomes⟩ := hyoung (by decide)
  refine ⟨tr', report, hstep, htracks, ?_⟩
  rw [← hcomes.length_eq, hsources.length_eq, List.length_range]
  rfl

end Example

end Tracker

end ObstacleTracking
