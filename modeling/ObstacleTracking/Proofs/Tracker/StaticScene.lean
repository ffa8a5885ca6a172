import ObstacleTracking.Proofs.Scalar.Field
import ObstacleTracking.Proofs.Association.Diagonal
import ObstacleTracking.Proofs.Association.Standing
import ObstacleTracking.Proofs.Track.Standing
import ObstacleTracking.Proofs.Track.Visibility
import ObstacleTracking.Proofs.Tracker.Live

/-!
# Scenes in which nothing moves

The same detections are seen from the same pose in every frame. The first frame starts a track for
each of them, and every later one matches each track to its own detection: the identity is a
cheapest matching because no pair costs less than a repeated one, and it comes first of all that
tie with it. So no track moves, no track is missed, and none is started. Only when the counters of
the tracks go round, after `2 ^ 32` frames, are they taken for ones that were never seen.
-/

namespace ObstacleTracking.Tracker

open ExactRoots

variable {K : Type} [Field K] [LinearOrder K] [IsStrictOrderedRing K] [ExactRoots K]
  {c : Config K} {pose : Pose K} {detections : List (Detection K)} {seen : List ℕ}
  {tr : Tracker K} {n : ℕ}

/-- The track that a detection started, seen in each of `n` frames. -/
structure Settled (c : Config K) (pose : Pose K) (n i : ℕ) (d : Detection K) (t : Track K) :
    Prop where
  id_eq : t.id = i + 1
  stands : Track.Stands (localView c pose d) t
  invisible_eq : t.invisible = 0
  visible_eq : t.visible = t.age + 1
  age_eq : t.age + 1 = UInt32.ofNat n

/-- What holds after `n` frames of a scene in which nothing moves. -/
structure IsStill (pose : Pose K) (detections : List (Detection K)) (n : ℕ) (tr : Tracker K) :
    Prop where
  epoch_eq : ∃ timestamp, tr.epoch = some ⟨-pose.origin, timestamp, n⟩
  lastId_eq : tr.tracks.lastId = detections.length
  length_eq : tr.tracks.tracks.toList.length = detections.length
  settled : ∀ (i : ℕ) (d : Detection K) (t : Track K), detections[i]? = some d →
    tr.tracks.tracks.toList[i]? = some t → Settled tr.config pose n i d t

/-! ### Observations -/

omit [IsStrictOrderedRing K] in
theorem getElem?_observed {timestamp : K}
    (h : (nextEpoch tr.epoch pose timestamp).offset = -pose.origin)
    (lanes : Option (LaneMap K)) {i : ℕ} {d : Detection K} (hd : detections[i]? = some d) :
    ∃ lane, (tr.observed detections timestamp pose lanes)[i]? =
      some { localView tr.config pose d with lane } := by
  unfold observed observe
  dsimp only
  rw [h, List.getElem?_map, hd, Option.map_some]
  exact ⟨_, rfl⟩

omit [IsStrictOrderedRing K] in
theorem Settled.hit {i : ℕ} {d : Detection K} {t : Track K} (h : Settled c pose n i d t)
    (hc : c.Bounds) (hd : directionTolerance < (pose.turn d.direction).horizontal.norm)
    (lane : Vec3 K) (score dt : K) :
    Settled c pose (n + 1) i d ((t.predict c.filter dt).hit c.filter c.lifecycle
      { localView c pose d with lane } score dt).1 := by
  have hdirection : directionTolerance <
      (localView c pose d).detection.direction.horizontal.norm := by
    have hturn : (localView c pose d).detection.direction = pose.turn d.direction :=
      Pose.turn_displace pose _ _
    rw [hturn]
    exact hd
  have hpredicted : Track.Stands (localView c pose d) (t.predict c.filter dt) :=
    ⟨h.stands.mean_eq, h.stands.anchor_eq, h.stands.detection_eq, h.stands.shape_eq,
      h.stands.velocity_eq⟩
  constructor
  · exact h.id_eq
  · exact hpredicted.hit hc.velocityCorrectionMaximum hc.speedNoiseMaximum hdirection lane score dt
  · rfl
  · exact congrArg (· + 1) h.visible_eq
  · rw [UInt32.ofNat_add]
    exact congrArg (· + 1) h.age_eq

/-! ### Survival -/

/-- A track that was seen in all its frames is kept, unless its counters wrap. -/
theorem not_isExpired_of_seen (hc : c.Bounds) {t : Track K} (hinvisible : t.invisible = 0)
    (hvisible : t.visible = t.age + 1)
    (hcount : t.age.toNat + 1 < 2 ^ 32 ∨ c.lifecycle.visibleRatioMinimum = 0) :
    TrackSet.isExpired c.lifecycle t = false := by
  have hratio : ¬ t.visibleRatio < c.lifecycle.visibleRatioMinimum := by
    rcases hcount with hlt | hzero
    · refine Track.not_ratio_lt_of_visible_eq K hc.visibleRatioMinimum ?_
      rw [hvisible]
      exact toNat_succ hlt
    · rw [hzero]
      exact not_lt.mpr t.visibleRatio_nonneg
  have hseen : ¬ c.lifecycle.invisibleMaximum < t.invisible := by
    rw [hinvisible]
    exact UInt32.not_lt_zero
  unfold TrackSet.isExpired
  simp [hseen, hratio]

omit [IsStrictOrderedRing K] in
/-- A track whose count of sightings went round is as old as its age can tell, and does not seem to
have been seen at all. -/
theorem isExpired_of_wrapped (hratio : 0 < c.lifecycle.visibleRatioMinimum) {t : Track K}
    (hvisible : t.visible = t.age + 1) (hwrapped : t.age + 1 = 0) :
    TrackSet.isExpired c.lifecycle t = true := by
  have hage : t.age.toNat = 2 ^ 32 - 1 := by
    have hzero : (t.age + 1).toNat = 0 := congrArg UInt32.toNat hwrapped
    have hlt := t.age.toNat_lt
    rw [UInt32.toNat_add, UInt32.toNat_one] at hzero
    omega
  have hold : c.lifecycle.reportAgeMinimum ≤ t.age := by
    rw [UInt32.le_iff_toNat_le, hage]
    exact Nat.le_pred_of_lt c.lifecycle.reportAgeMinimum.toNat_lt
  have hunseen : t.visibleRatio = 0 := by
    unfold Track.visibleRatio
    rw [hvisible, hwrapped, UInt32.toNat_zero]
    exact (congrArg (· / _) Nat.cast_zero).trans (zero_div _)
  unfold TrackSet.isExpired
  rw [hunseen]
  simp [hold, hratio]

/-! ### Matching -/

/-- What the configuration and the detections have to satisfy. -/
structure IsScene (c : Config K) (pose : Pose K) (detections : List (Detection K)) : Prop where
  valid : c.error? = none
  gate : 6 / 1000 * c.matching.weights.direction ≤ c.matching.gate
  directed : ∀ d ∈ detections, directionTolerance < (pose.turn d.direction).horizontal.norm

namespace IsStill

variable (h : IsStill pose detections n tr)

include h

omit [IsStrictOrderedRing K] in
theorem offset_nextEpoch (timestamp : K) :
    (nextEpoch tr.epoch pose timestamp).offset = -pose.origin := by
  obtain ⟨t₀, he⟩ := h.epoch_eq
  rw [he]
  rfl

omit [IsStrictOrderedRing K] in
theorem frameCount_eq : tr.frameCount = n := by
  obtain ⟨timestamp, he⟩ := h.epoch_eq
  rw [frameCount, he]
  rfl

omit [IsStrictOrderedRing K] in
theorem exists_settled {i : ℕ} {d : Detection K} (hd : detections[i]? = some d) :
    ∃ t, tr.tracks.tracks.toList[i]? = some t ∧ Settled tr.config pose n i d t := by
  have hi : i < tr.tracks.tracks.toList.length := by
    rw [h.length_eq]
    exact (List.getElem?_eq_some_iff.mp hd).1
  have ht := List.getElem?_eq_getElem hi
  exact ⟨_, ht, h.settled i d _ hd ht⟩

theorem isLeastOnDiagonal (hscene : IsScene tr.config pose detections) (timestamp dt : K)
    (lanes : Option (LaneMap K)) :
    IsLeastOnDiagonal (tr.costs dt (tr.observed detections timestamp pose lanes))
      tr.config.matching.gate (Dissimilarity.standing tr.config.matching.weights)
      detections.length := by
  have hbounds := Config.bounds hscene.valid
  have hentry : ∀ i < detections.length, ∀ j < detections.length,
      ∃ t, ∃ di ∈ detections, ∃ dj ∈ detections, ∃ lane,
        detections[i]? = some di ∧ detections[j]? = some dj ∧
        Settled tr.config pose n i di t ∧
        (tr.costs dt (tr.observed detections timestamp pose lanes)).entry i j =
          Dissimilarity.total tr.config.matching.weights t.current
            (t.predict tr.config.filter dt).expected
            { localView tr.config pose dj with lane } dt := by
    intro i hi j hj
    obtain ⟨t, ht, hsettled⟩ := h.exists_settled (List.getElem?_eq_getElem hi)
    obtain ⟨lane, ho⟩ := getElem?_observed (h.offset_nextEpoch timestamp) lanes
      (List.getElem?_eq_getElem hj)
    exact ⟨t, _, List.getElem_mem hi, _, List.getElem_mem hj, lane, List.getElem?_eq_getElem hi,
      List.getElem?_eq_getElem hj, hsettled, entry_costs ht ho⟩
  constructor
  · rw [rows_costs, h.length_eq]
  · rw [cols_costs, length_observed]
  · intro i hi
    obtain ⟨t, d, hmem, d', -, lane, hd, hd', hsettled, heq⟩ := hentry i hi i hi
    rw [hd, Option.some_inj] at hd'
    rw [heq, ← hd']
    have hstands := hsettled.stands
    refine Dissimilarity.total_standing (Filter.mean_predict_standing hstands.mean_eq dt)
      hstands.velocity_eq hstands.detection_eq hstands.shape_eq ?_ dt
    have hturn : (localView tr.config pose d).detection.direction = pose.turn d.direction :=
      Pose.turn_displace pose _ _
    rw [hturn]
    exact hscene.directed d hmem
  · intro i hi j hj
    obtain ⟨t, di, -, dj, -, lane, -, -, hsettled, heq⟩ := hentry i hi j hj
    rw [heq]
    refine Dissimilarity.standing_le_total hbounds.weights ?_ dt
    exact congrArg MotionState.velocity
      (Filter.mean_predict_standing hsettled.stands.mean_eq dt)
  · exact Dissimilarity.standing_nonneg hbounds.weights
  · exact (Dissimilarity.standing_le hbounds.weights).trans hscene.gate

/-- In every later frame each track takes its own detection, and none is left over. -/
theorem assigned_eq (hscene : IsScene tr.config pose detections) {solver : Solver K}
    (hs : solver.IsExact) (timestamp dt : K) (lanes : Option (LaneMap K)) :
    (tr.assigned solver dt (tr.observed detections timestamp pose lanes)).1 =
      ⟨(List.range detections.length).map fun i => (i, i), [], []⟩ := by
  obtain ⟨t₀, he⟩ := h.epoch_eq
  rw [assigned_of_epoch solver he]
  exact (h.isLeastOnDiagonal hscene timestamp dt lanes).blockwise_eq hs

end IsStill

/-! ### The first frame -/

omit [IsStrictOrderedRing K] in
theorem filterMap_getElem?_range {β : Type} (l : List β) :
    ((List.range l.length).filterMap fun j => l[j]?) = l := by
  have hmap : ((List.range l.length).map fun j => l[j]?) = l.map some := by
    refine List.ext_getElem (by simp) ?_
    intro i hi hi'
    rw [List.length_map] at hi'
    simp [hi']
  calc ((List.range l.length).filterMap fun j => l[j]?)
      = ((List.range l.length).map fun j => l[j]?).filterMap id := by
        rw [List.filterMap_map]
        rfl
    _ = (l.map some).filterMap id := by rw [hmap]
    _ = l := by rw [List.filterMap_map, Function.id_comp, List.filterMap_some]

omit [IsStrictOrderedRing K] in
/-- The first frame starts a track for each detection. -/
theorem isStill_first (hkept : Kept seen tr) (he : tr.epoch = none) (hlast : tr.tracks.lastId = 0)
    (solver : Solver K) (timestamp : K) (lanes : Option (LaneMap K)) :
    IsStill pose detections 1 (tr.accepted solver detections timestamp pose lanes) := by
  have hoffset : (nextEpoch tr.epoch pose timestamp).offset = -pose.origin := by
    rw [he]
    rfl
  have hleft : leftOver (tr.observed detections timestamp pose lanes)
      (tr.assigned solver (tr.elapsed timestamp) (tr.observed detections timestamp pose lanes)) =
      tr.observed detections timestamp pose lanes := by
    rw [assigned_of_none solver he]
    exact filterMap_getElem?_range _
  have htracks : (tr.accepted solver detections timestamp pose lanes).tracks.tracks.toList =
      startAll tr.config 0 (tr.observed detections timestamp pose lanes) := by
    unfold accepted advanced
    dsimp only
    rw [hkept.tracks_eq_nil he, hleft, hlast]
    rfl
  constructor
  · refine ⟨timestamp, ?_⟩
    unfold accepted
    rw [he]
    rfl
  · unfold accepted advanced
    dsimp only
    rw [hleft, hlast, length_observed, Nat.zero_add]
  · rw [htracks, length_startAll, length_observed]
  · intro i d t hd ht
    obtain ⟨lane, ho⟩ := getElem?_observed hoffset lanes hd
    rw [htracks, getElem?_startAll tr.config 0 ho, Option.some_inj] at ht
    rw [← ht]
    constructor
    · exact Nat.zero_add 1 ▸ Nat.add_comm 1 i
    · exact Track.stands_start _ _ (localView tr.config pose d) lane
    · rfl
    · rfl
    · rfl

/-! ### Later frames -/

section Later

variable {observations : List (Observation K)} {run : Assignment × CostMatrix K}

omit [IsStrictOrderedRing K] in
theorem matchOf?_of_diagonal {m i : ℕ}
    (hrun : run.1 = ⟨(List.range m).map fun i => (i, i), [], []⟩) (hi : i < m)
    {o : Observation K} (ho : observations[i]? = some o) :
    matchOf? observations run i = some (o, run.2.entry i i) := by
  have hfst : (Prod.fst ∘ fun i : ℕ => (i, i)) = id := rfl
  have hnodup : (run.1.matched.map Prod.fst).Nodup := by
    rw [hrun, List.map_map, hfst, List.map_id]
    exact List.nodup_range
  have hpair : (i, i) ∈ run.1.matched := by
    rw [hrun]
    exact List.mem_map.mpr ⟨i, List.mem_range.mpr hi, rfl⟩
  exact matchOf?_of_matched hnodup hpair ho

variable {timestamp dt : K} {lanes : Option (LaneMap K)}

omit [IsStrictOrderedRing K] in
/-- Each track is hit by the observation at its own place. -/
theorem IsStill.settled_follow (h : IsStill pose detections n tr)
    (hscene : IsScene tr.config pose detections)
    (hobserved : tr.observed detections timestamp pose lanes = observations)
    (hrun : run.1 = ⟨(List.range detections.length).map fun i => (i, i), [], []⟩) {i : ℕ}
    {d : Detection K} {t : Track K} (hd : detections[i]? = some d)
    (ht : tr.tracks.tracks.toList[i]? = some t) :
    Settled tr.config pose (n + 1) i d
      (follow tr.config dt t (matchOf? observations run i)) := by
  obtain ⟨lane, ho⟩ := getElem?_observed (h.offset_nextEpoch timestamp) lanes hd
  rw [hobserved] at ho
  rw [matchOf?_of_diagonal hrun (List.getElem?_eq_some_iff.mp hd).1 ho]
  exact (h.settled i d t hd ht).hit (Config.bounds hscene.valid)
    (hscene.directed d (List.mem_of_getElem? hd)) lane _ _

/-- A further frame starts no track, and the tracks there are have settled for one frame more when
the expired ones are dropped. -/
theorem IsStill.exists_followed (h : IsStill pose detections n tr)
    (hscene : IsScene tr.config pose detections) {solver : Solver K} (hs : solver.IsExact)
    (timestamp : K) (lanes : Option (LaneMap K)) :
    let tr' := tr.accepted solver detections timestamp pose lanes
    ∃ followed : List (Track K),
      followed.length = detections.length ∧
      (∀ (i : ℕ) (d : Detection K) (t : Track K), detections[i]? = some d →
        followed[i]? = some t → Settled tr.config pose (n + 1) i d t) ∧
      tr'.tracks.tracks.toList =
        followed.filter (fun t => !TrackSet.isExpired tr.config.lifecycle t) ∧
      tr'.tracks.lastId = tr.tracks.lastId := by
  intro tr'
  have hrun := h.assigned_eq hscene hs timestamp (tr.elapsed timestamp) lanes
  generalize hobserved : tr.observed detections timestamp pose lanes = observations at hrun
  generalize hassigned : tr.assigned solver (tr.elapsed timestamp) observations = run at hrun
  have hleft : leftOver observations run = [] := by
    unfold leftOver
    rw [hrun]
    rfl
  refine ⟨followAll tr.config (tr.elapsed timestamp) observations run tr.tracks.tracks.toList,
    ?_, ?_, ?_, ?_⟩
  · rw [followAll, List.length_mapIdx, h.length_eq]
  · intro i d t' hd ht'
    obtain ⟨t, ht, -⟩ := h.exists_settled hd
    rw [followAll, List.getElem?_mapIdx, ht, Option.map_some, Option.some_inj] at ht'
    rw [← ht']
    exact h.settled_follow hscene hobserved hrun hd ht
  · unfold tr' Tracker.accepted advanced
    dsimp only
    rw [hobserved, hassigned, hleft]
    exact List.append_nil _
  · unfold tr' Tracker.accepted advanced
    dsimp only
    rw [hobserved, hassigned, hleft]
    rfl

end Later

omit [IsStrictOrderedRing K] in
theorem exists_settled_of_mem {followed : List (Track K)}
    (hlength : followed.length = detections.length)
    (hsettled : ∀ (i : ℕ) (d : Detection K) (t : Track K), detections[i]? = some d →
      followed[i]? = some t → Settled c pose n i d t) {t : Track K} (ht : t ∈ followed) :
    ∃ i d, Settled c pose n i d t := by
  obtain ⟨i, hi, rfl⟩ := List.mem_iff_getElem.mp ht
  exact ⟨i, detections[i], hsettled i _ _ (List.getElem?_eq_getElem (hlength ▸ hi))
    (List.getElem?_eq_getElem hi)⟩

/-- Every later frame leaves the scene as it is. -/
theorem IsStill.accepted (h : IsStill pose detections n tr)
    (hscene : IsScene tr.config pose detections) {solver : Solver K} (hs : solver.IsExact)
    (hn : n + 1 < 2 ^ 32 ∨ tr.config.lifecycle.visibleRatioMinimum = 0) (timestamp : K)
    (lanes : Option (LaneMap K)) :
    IsStill pose detections (n + 1) (tr.accepted solver detections timestamp pose lanes) := by
  obtain ⟨t₀, he⟩ := h.epoch_eq
  obtain ⟨followed, hlength, hsettled, htracks, hlast⟩ :=
    h.exists_followed hscene hs timestamp lanes
  have hkeeps : followed.filter (fun t => !TrackSet.isExpired tr.config.lifecycle t) =
      followed := by
    refine List.filter_eq_self.mpr ?_
    intro t ht
    obtain ⟨i, d, hone⟩ := exists_settled_of_mem hlength hsettled ht
    have hage : t.age = UInt32.ofNat n := by
      have hsucc := hone.age_eq
      rw [UInt32.ofNat_add] at hsucc
      exact (UInt32.add_left_inj _).mp hsucc
    rw [not_isExpired_of_seen (Config.bounds hscene.valid) hone.invisible_eq hone.visible_eq,
      Bool.not_false]
    refine hn.imp_left ?_
    intro hlt
    rw [hage, UInt32.toNat_ofNat', Nat.mod_eq_of_lt (Nat.lt_of_succ_lt hlt)]
    exact hlt
  rw [hkeeps] at htracks
  constructor
  · refine ⟨timestamp, ?_⟩
    unfold Tracker.accepted
    rw [he]
    rfl
  · rw [hlast, h.lastId_eq]
  · rw [htracks, hlength]
  · intro i d t hd ht
    rw [htracks] at ht
    exact hsettled i d t hd ht

/-- In the frame in which the count of sightings goes round every track is dropped. -/
theorem IsStill.accepted_eq_nil (h : IsStill pose detections n tr)
    (hscene : IsScene tr.config pose detections) {solver : Solver K} (hs : solver.IsExact)
    (hratio : 0 < tr.config.lifecycle.visibleRatioMinimum) (hn : UInt32.ofNat (n + 1) = 0)
    (timestamp : K) (lanes : Option (LaneMap K)) :
    (tr.accepted solver detections timestamp pose lanes).tracks.tracks.toList = [] := by
  obtain ⟨followed, hlength, hsettled, htracks, -⟩ := h.exists_followed hscene hs timestamp lanes
  rw [htracks, List.filter_eq_nil_iff]
  intro t ht
  obtain ⟨i, d, hone⟩ := exists_settled_of_mem hlength hsettled ht
  rw [isExpired_of_wrapped hratio hone.visible_eq (hone.age_eq.trans hn)]
  exact Bool.false_ne_true

/-! ### Runs -/

theorem IsStill.feedAll (hscene : IsScene c pose detections) {solver : Solver K}
    (hs : solver.IsExact) {frames : List (Frame K)}
    (hframes : ∀ f ∈ frames, f.detections = detections ∧ f.options.pose = some pose)
    (h : IsStill pose detections n tr) (hkept : Kept seen tr) (hconfig : tr.config = c)
    (hn : n + frames.length < 2 ^ 32 ∨ c.lifecycle.visibleRatioMinimum = 0) :
    (tr.feedAll solver frames).config = c ∧
      IsStill pose detections (n + frames.length) (tr.feedAll solver frames) := by
  -- the invariant counts the frames, so what the counters leave room for is used up one by one
  induction frames generalizing tr seen n with
  | nil => exact ⟨hconfig, h⟩
  | cons f frames ih =>
    obtain ⟨hdetections, hpose⟩ := hframes f List.mem_cons_self
    have hfeed := hkept.feed_of_accept solver (accept_of_pose hpose f.timestamp)
    obtain ⟨seen', hkept'⟩ := hkept.feed solver f
    rw [List.length_cons] at hn
    have hstill : IsStill pose detections (n + 1) (tr.feed solver f).1 := by
      rw [hfeed, hdetections]
      refine h.accepted (hconfig ▸ hscene) hs ?_ f.timestamp f.options.lanes
      rcases hn with hlt | hzero
      · exact Or.inl (by omega)
      · exact Or.inr (hconfig ▸ hzero)
    have hconfig' : (tr.feed solver f).1.config = c := by
      rw [hfeed]
      exact hconfig
    rw [feedAll_cons, List.length_cons, Nat.add_comm frames.length 1, ← Nat.add_assoc]
    refine ih (fun f' hf' => hframes f' (List.mem_cons_of_mem f hf')) hstill hkept' hconfig' ?_
    rcases hn with hlt | hzero
    · exact Or.inl (by omega)
    · exact Or.inr hzero

omit [IsStrictOrderedRing K] in
theorem IsStill.ids_eq (h : IsStill pose detections n tr) :
    tr.tracks.ids = List.range' 1 detections.length := by
  refine List.ext_getElem ?_ ?_
  · rw [TrackSet.ids, List.length_map, h.length_eq, List.length_range']
  · intro i hi hi'
    rw [List.length_range'] at hi'
    obtain ⟨t, ht, hsettled⟩ := h.exists_settled (List.getElem?_eq_getElem hi')
    obtain ⟨hlt, heq⟩ := List.getElem?_eq_some_iff.mp ht
    simp only [TrackSet.ids, List.getElem_map, List.getElem_range']
    rw [heq, hsettled.id_eq]
    omega

/-- The invariant holds after every run of such a scene that is not empty. -/
theorem isStill_feedAll (h : create c = .ok tr) (hscene : IsScene c pose detections)
    {solver : Solver K} (hs : solver.IsExact) {frames : List (Frame K)} (hne : frames ≠ [])
    (hframes : ∀ f ∈ frames, f.detections = detections ∧ f.options.pose = some pose)
    (hcount : frames.length < 2 ^ 32 ∨ c.lifecycle.visibleRatioMinimum = 0) :
    (tr.feedAll solver frames).config = c ∧
      IsStill pose detections frames.length (tr.feedAll solver frames) := by
  obtain ⟨htr, -⟩ := eq_of_create h
  have hkept := kept_create h
  cases frames with
  | nil => exact absurd rfl hne
  | cons f frames =>
    obtain ⟨hdetections, hpose⟩ := hframes f List.mem_cons_self
    have hfeed := hkept.feed_of_accept solver (accept_of_pose hpose f.timestamp)
    obtain ⟨seen', hkept'⟩ := hkept.feed solver f
    have hfirst : IsStill pose detections 1 (tr.feed solver f).1 := by
      rw [hfeed, hdetections]
      exact isStill_first hkept (by rw [htr]) (by rw [htr]) solver f.timestamp f.options.lanes
    have hconfig : (tr.feed solver f).1.config = c := by
      rw [hfeed, htr]
      rfl
    rw [List.length_cons, Nat.add_comm] at hcount ⊢
    exact hfirst.feedAll hscene hs (fun f' hf' => hframes f' (List.mem_cons_of_mem f hf')) hkept'
      hconfig hcount

/-- In the `2 ^ 32`-th frame of such a scene every track is dropped, if tracks have to be seen now
and then. -/
theorem ids_feedAll_eq_nil (h : create c = .ok tr) (hscene : IsScene c pose detections)
    {solver : Solver K} (hs : solver.IsExact) {frames : List (Frame K)}
    (hframes : ∀ f ∈ frames, f.detections = detections ∧ f.options.pose = some pose)
    (hratio : 0 < c.lifecycle.visibleRatioMinimum) (hlength : frames.length = 2 ^ 32) :
    (tr.feedAll solver frames).tracks.ids = [] := by
  obtain ⟨earlier, f, rfl⟩ : ∃ earlier f, frames = earlier ++ [f] := by
    refine (List.eq_nil_or_concat' frames).resolve_left ?_
    rintro rfl
    simp at hlength
  rw [List.length_append, List.length_singleton] at hlength
  have hne : earlier ≠ [] := by
    rintro rfl
    simp at hlength
  obtain ⟨hconfig, hstill⟩ := isStill_feedAll h hscene hs hne
    (fun f' hf' => hframes f' (List.mem_append_left _ hf')) (Or.inl (by omega))
  obtain ⟨hdetections, hpose⟩ := hframes f (List.mem_append_right _ (List.mem_singleton_self f))
  obtain ⟨seen', hkept⟩ := (kept_create h).feedAll solver earlier
  have hwrapped : UInt32.ofNat (earlier.length + 1) = 0 := by
    rw [hlength]
    rfl
  have hnil := hstill.accepted_eq_nil (hconfig ▸ hscene) hs (hconfig ▸ hratio) hwrapped
    f.timestamp f.options.lanes
  rw [feedAll_concat, hkept.feed_of_accept solver (accept_of_pose hpose f.timestamp), hdetections]
  unfold TrackSet.ids
  rw [hnil, List.map_nil]

/-- After any number of frames in which the same detections are seen from the same pose, the
tracks are those that the first frame started, each standing still at the anchor of its detection.
A further frame matches each track to its own detection and leaves nothing over. Only that the
counters of a track do not wrap limits the number of frames. -/
theorem feedAll_static {config : Config K} (h : create config = .ok tr) {solver : Solver K}
    (hs : solver.IsExact)
    (hgate : 6 / 1000 * config.matching.weights.direction ≤ config.matching.gate)
    (hdirected : ∀ d ∈ detections, directionTolerance < (pose.turn d.direction).horizontal.norm)
    {frames : List (Frame K)} (hne : frames ≠ [])
    (hframes : ∀ f ∈ frames, f.detections = detections ∧ f.options.pose = some pose)
    (hcount : frames.length < 2 ^ 32 ∨ config.lifecycle.visibleRatioMinimum = 0) :
    let tr' := tr.feedAll solver frames
    tr'.frameCount = frames.length ∧ tr'.tracks.lastId = detections.length ∧
    tr'.tracks.ids = List.range' 1 detections.length ∧
    (∀ (i : ℕ) (d : Detection K) (t : Track K), detections[i]? = some d →
      tr'.tracks.tracks[i]? = some t → t.estimate.velocity = 0 ∧
        t.estimate.position = (Observation.ofDetection (pose.displace (-pose.origin))
          config.matching.bins? d).anchor) ∧
    ∀ (timestamp : K) (lanes : Option (LaneMap K)),
      (tr'.assigned solver (tr'.elapsed timestamp)
        (tr'.observed detections timestamp pose lanes)).1 =
        ⟨(List.range detections.length).map fun i => (i, i), [], []⟩ := by
  intro tr'
  have hscene : IsScene config pose detections := ⟨(eq_of_create h).2, hgate, hdirected⟩
  obtain ⟨hconfig, hstill⟩ := isStill_feedAll h hscene hs hne hframes hcount
  refine ⟨hstill.frameCount_eq, hstill.lastId_eq, hstill.ids_eq, ?_, ?_⟩
  · intro i d t hd ht
    rw [← Array.getElem?_toList] at ht
    have hmean := (hstill.settled i d t hd ht).stands.mean_eq
    rw [hconfig] at hmean
    exact ⟨congrArg MotionState.velocity hmean, congrArg MotionState.position hmean⟩
  · intro timestamp lanes
    exact hstill.assigned_eq (hconfig ▸ hscene) hs timestamp _ lanes

section Example

attribute [local instance] ExactRoots.real

theorem isScene_forward {ds : List (Detection ℝ)} (h : ∀ d ∈ ds, d.direction = Vec3.forward) :
    IsScene (Config.standard : Config ℝ) Mat.identity ds := by
  constructor
  · exact Config.error?_standard ℝ ℝ
  · simp only [Config.standard, MatchingConfig.standard, Weights.standard, Scalar.ratio]
    norm_num
  · intro d hd
    have hturn : (Pose.turn (Mat.identity : Pose ℝ) Vec3.forward).horizontal = ⟨1, 0⟩ := by
      simp [Pose.turn, Vec3.forward, Vec3.horizontal]
    rw [h d hd, hturn]
    unfold Vec2.norm Vec2.dot directionTolerance Scalar.ratio
    norm_num

/-- Two obstacles in one place keep their ids over three frames. -/
theorem feedAll_static_two :
    let d : Detection ℝ := ⟨[], [], 0, Vec3.forward, 0, .vehicle⟩
    let f : ℝ → Frame ℝ := fun t => ⟨[d, d], t, ⟨some Mat.identity, none⟩⟩
    (feedAll (Solver.cheapest ℝ) (⟨.standard, {}, none⟩ : Tracker ℝ)
      [f 0, f 1, f 2]).tracks.ids = [1, 2] := by
  intro d f
  have hcreate : create (Config.standard : Config ℝ) = .ok ⟨.standard, {}, none⟩ :=
    create_standard ℝ
  have hforward : ∀ d' ∈ [d, d], d'.direction = Vec3.forward := by
    intro d' hd'
    simp only [List.mem_cons, List.not_mem_nil, or_false, or_self] at hd'
    rw [hd']
  have hscene := isScene_forward hforward
  have hframes : ∀ f' ∈ [f 0, f 1, f 2], f'.detections = [d, d] ∧
      f'.options.pose = some Mat.identity := by
    intro f' hf'
    simp only [List.mem_cons, List.not_mem_nil, or_false] at hf'
    rcases hf' with rfl | rfl | rfl
    · exact ⟨rfl, rfl⟩
    · exact ⟨rfl, rfl⟩
    · exact ⟨rfl, rfl⟩
  exact (feedAll_static hcreate Solver.isExact_cheapest hscene.gate hscene.directed
    (List.cons_ne_nil _ _) hframes (Or.inl (by decide))).2.2.1

/-- An obstacle that is seen standing still in each of `2 ^ 32` frames loses its track in the
last of them. -/
theorem feedAll_static_wrapped :
    let d : Detection ℝ := ⟨[], [], 0, Vec3.forward, 0, .vehicle⟩
    let frames : List (Frame ℝ) :=
      (List.range (2 ^ 32)).map fun k : ℕ => ⟨[d], (k : ℝ), ⟨some Mat.identity, none⟩⟩
    let tr : Tracker ℝ := ⟨.standard, {}, none⟩
    create .standard = .ok tr ∧ (Solver.cheapest ℝ).IsExact ∧
      IsScene .standard Mat.identity [d] ∧
      (tr.feedAll (Solver.cheapest ℝ) frames).tracks.ids = [] ∧
      (tr.feedAll (Solver.cheapest ℝ) frames).tracks.ids ≠ List.range' 1 [d].length := by
  intro d frames tr
  have hcreate : create .standard = .ok tr := create_standard ℝ
  have hscene : IsScene .standard Mat.identity [d] :=
    isScene_forward fun d' hd' => congrArg Detection.direction (List.mem_singleton.mp hd')
  have hframes : ∀ f ∈ frames, f.detections = [d] ∧ f.options.pose = some Mat.identity := by
    intro f hf
    obtain ⟨k, -, rfl⟩ := List.mem_map.mp hf
    exact ⟨rfl, rfl⟩
  have hratio : 0 < (Config.standard : Config ℝ).lifecycle.visibleRatioMinimum := by
    simp only [Config.standard, LifecycleConfig.standard, Scalar.ratio]
    norm_num
  have hlength : frames.length = 2 ^ 32 := by
    rw [List.length_map, List.length_range]
  have hnil := ids_feedAll_eq_nil hcreate hscene Solver.isExact_cheapest hframes hratio hlength
  refine ⟨hcreate, Solver.isExact_cheapest, hscene, hnil, ?_⟩
  rw [hnil]
  exact (List.cons_ne_nil 1 []).symm

end Example

end ObstacleTracking.Tracker
