import ObstacleTracking.Proofs.Tracker.StaticScene
import ObstacleTracking.Proofs.Association.Bounds
import ObstacleTracking.Proofs.Filter.Applied

/-!
# Frames without a time step

A frame may have the timestamp of the one before it, or an earlier one. The filter then leaves every
estimate, whatever is matched. Only the velocity of a matched track may still be taken for noise, as
no acceleration can be told without a time step: if it is low it is set to zero, while position and
covariance stay. This needs no law of the arithmetic. Over the reals, a vehicle that starts slowly
is seen to be stopped by a repeated timestamp.
-/

namespace ObstacleTracking

/-- The estimate with the same position, at rest. -/
def Estimate.stopped {α : Type} [Scalar α] (e : Estimate α) : Estimate α :=
  { e with mean := MotionState.ofParts e.position 0 }

variable {α : Type} [Scalar α] {dt : α}

/-! ### The filter -/

namespace Filter

theorem isStep_eq_false (hdt : ¬ Scalar.doubleSpacing < dt) : isStep dt = false := by
  unfold isStep
  rw [decide_eq_false hdt, Bool.and_false]

theorem predict_of_not_isStep (hdt : isStep dt = false) (c : FilterConfig α) (e : Estimate α) :
    predict c e dt = e := by
  unfold predict
  rw [hdt]
  rfl

theorem update_of_not_isStep (hdt : isStep dt = false) (c : FilterConfig α) (e : Estimate α)
    (anchor : Vec3 α) (score : α) : update c e anchor score dt = ⟨e, .skipped⟩ := by
  unfold update
  rw [hdt]
  rfl

end Filter

/-! ### The track -/

namespace Track

/-- A velocity that comes from a real acceleration is not taken for noise. -/
theorem settleVelocity_of_accelerates (hdt : Scalar.doubleSpacing < dt) {l : LifecycleConfig α}
    {previous : Vec3 α} {e : Estimate α}
    (h : l.accelerationNoiseMaximum < ((e.velocity - previous) / dt).norm) :
    settleVelocity l previous dt e = e := by
  unfold settleVelocity
  dsimp only
  rw [decide_eq_true hdt, decide_eq_true h]
  rfl

/-- Without a time step every low velocity is noise. -/
theorem settleVelocity_of_short (hdt : ¬ Scalar.doubleSpacing < dt) (l : LifecycleConfig α)
    (previous : Vec3 α) (e : Estimate α) :
    settleVelocity l previous dt e =
      if e.velocity.norm < l.speedNoiseMaximum then e.stopped else e := by
  unfold settleVelocity
  dsimp only
  rw [decide_eq_false hdt, Bool.false_and, Bool.not_false, Bool.true_and]
  simp only [decide_eq_true_eq]
  rfl

/-- Without points no box is fitted again. -/
theorem size_orient_of_nil {l : LifecycleConfig α} {velocity lane : Vec3 α} {d : Detection α}
    (h : d.cloud = []) : (orient l velocity lane d).size = d.size := by
  unfold orient
  split
  · cases velocity.unitHorizontal? with
    | none => rfl
    | some heading =>
      dsimp only
      rw [h]
      rfl
  · split
    · rfl
    · rfl

end Track

namespace Tracker

theorem estimate_follow_none (hdt : ¬ Scalar.doubleSpacing < dt) (c : Config α) (t : Track α) :
    (follow c dt t none).estimate = t.estimate :=
  Filter.predict_of_not_isStep (Filter.isStep_eq_false hdt) c.filter t.estimate

theorem estimate_follow_some (hdt : ¬ Scalar.doubleSpacing < dt) (c : Config α) (t : Track α)
    (o : Observation α) (score : α) :
    (follow c dt t (some (o, score))).estimate =
      if t.estimate.velocity.norm < c.lifecycle.speedNoiseMaximum then t.estimate.stopped
      else t.estimate := by
  have hupdate := Filter.update_of_not_isStep (Filter.isStep_eq_false hdt) c.filter t.estimate
    o.anchor score
  show Track.settleVelocity c.lifecycle t.estimate.velocity dt
    (Filter.update c.filter t.estimate o.anchor score dt).estimate = _
  rw [hupdate]
  exact Track.settleVelocity_of_short hdt c.lifecycle _ t.estimate

/-! ### A single track -/

section Single

variable {K : Type} [Field K] [LinearOrder K] [ExactRoots K] {tr : Tracker K} {t : Track K}
  {o : Observation K} {dt : K} {solver : Solver K}

/-- A tracker that has accepted a frame and whose only track was seen in each of its frames. -/
structure FollowsOne (tr : Tracker K) (t : Track K) : Prop where
  valid : tr.config.error? = none
  epoch_ne : tr.epoch ≠ none
  tracks_eq : tr.tracks.tracks.toList = [t]
  visible_eq : t.visible = t.age + 1

/-- What it costs to match an observation to a track, `dt` after the frame before. -/
def cost (c : Config K) (dt : K) (t : Track K) (o : Observation K) : K :=
  Dissimilarity.total c.matching.weights t.current (t.predict c.filter dt).expected o dt

namespace FollowsOne

theorem mem (h : FollowsOne tr t) : t ∈ tr.tracks.tracks.toList := by
  rw [h.tracks_eq]
  exact List.mem_singleton_self t

theorem entry_eq (h : FollowsOne tr t) (dt : K) (o : Observation K) :
    (tr.costs dt [o]).entry 0 0 = cost tr.config dt t o :=
  entry_costs (by rw [h.tracks_eq]; rfl) rfl

variable [IsStrictOrderedRing K]

theorem assigned_eq (h : FollowsOne tr t) (hs : solver.IsExact)
    (hgate : cost tr.config dt t o ≤ tr.config.matching.gate) :
    tr.assigned solver dt [o] = (⟨[(0, 0)], [], []⟩, tr.costs dt [o]) := by
  obtain ⟨e, he⟩ := Option.ne_none_iff_exists'.mp h.epoch_ne
  have hleast : IsLeastOnDiagonal (tr.costs dt [o]) tr.config.matching.gate
      (cost tr.config dt t o) 1 := by
    have hbounds := Config.bounds h.valid
    constructor
    · rw [rows_costs, h.tracks_eq]
      rfl
    · exact cols_costs tr dt [o]
    · intro i hi
      obtain rfl := Nat.lt_one_iff.mp hi
      exact h.entry_eq dt o
    · intro i hi j hj
      obtain rfl := Nat.lt_one_iff.mp hi
      obtain rfl := Nat.lt_one_iff.mp hj
      exact (h.entry_eq dt o).ge
    · refine le_trans ?_ (Dissimilarity.le_total hbounds.weights t.current _ o dt)
      exact mul_nonneg (div_nonneg (Weights.counted_nonneg hbounds.weights.location) zero_le_two)
        (Vec2.norm_nonneg _)
    · exact hgate
  rw [assigned_of_epoch solver he]
  exact congrArg (·, tr.costs dt [o]) (hleast.blockwise_eq hs)

/-- A frame with one observation that passes the gate hits the only track. -/
theorem accepted (h : FollowsOne tr t) (hs : solver.IsExact) (hcount : t.age.toNat + 2 < 2 ^ 32)
    {detections : List (Detection K)} {timestamp : K} {pose : Pose K} {lanes : Option (LaneMap K)}
    (ho : tr.observed detections timestamp pose lanes = [o]) (hdt : tr.elapsed timestamp = dt)
    (hgate : cost tr.config dt t o ≤ tr.config.matching.gate) :
    FollowsOne (tr.accepted solver detections timestamp pose lanes)
      (follow tr.config dt t (some (o, cost tr.config dt t o))) := by
  have hmatch : matchOf? [o] (⟨[(0, 0)], [], []⟩, tr.costs dt [o]) 0 =
      some (o, cost tr.config dt t o) := by
    rw [← h.entry_eq]
    exact matchOf?_of_diagonal (m := 1) rfl Nat.one_pos rfl
  have hfollowed : followAll tr.config dt [o] (⟨[(0, 0)], [], []⟩, tr.costs dt [o]) [t] =
      [follow tr.config dt t (some (o, cost tr.config dt t o))] := by
    unfold followAll
    rw [List.mapIdx_cons, List.mapIdx_nil, hmatch]
  have hvisible : (follow tr.config dt t (some (o, cost tr.config dt t o))).visible =
      t.age + 1 + 1 := congrArg (· + 1) h.visible_eq
  have hage : (t.age + 1).toNat = t.age.toNat + 1 := toNat_succ (by omega)
  have hkept : TrackSet.isExpired tr.config.lifecycle
      (follow tr.config dt t (some (o, cost tr.config dt t o))) = false := by
    refine not_isExpired_of_seen (Config.bounds h.valid) rfl hvisible (Or.inl ?_)
    rw [age_follow, hage]
    exact hcount
  refine ⟨h.valid, Option.some_ne_none _, ?_, hvisible⟩
  unfold Tracker.accepted advanced
  dsimp only
  rw [ho, hdt, h.assigned_eq hs hgate, h.tracks_eq, hfollowed, List.filter_singleton, hkept]
  rfl

end FollowsOne

end Single

/-! ### The frame -/

variable {seen : List ℕ} {tr : Tracker α} {c : Config α} {observations : List (Observation α)}
  {run : Assignment × CostMatrix α} {before after : TrackSet α} {followed started : List (Track α)}

/-- A track after a frame that has the id of one before it is what has become of that one. -/
theorem FrameAccount.followed_of_id_eq
    (h : FrameAccount c dt observations run before followed started after)
    (hordered : before.Ordered) (hle : ∀ t ∈ before.tracks.toList, t.id ≤ before.lastId) {i : ℕ}
    {t t' : Track α}
    (ht : before.tracks[i]? = some t) (ht' : t' ∈ after.tracks.toList) (hid : t'.id = t.id) :
    Followed c dt observations run i t t' := by
  rw [h.tracks_eq] at ht'
  rcases List.mem_append.mp ht' with hkept | hstarted
  · obtain ⟨k, u, hu, hfollowed⟩ := h.exists_followed (List.mem_filter.mp hkept).1
    have hik : k = i := hordered.index_eq hu ht (hfollowed.id_eq.symm.trans hid)
    rw [hik, ht, Option.some_inj] at hu
    rw [hik, ← hu] at hfollowed
    exact hfollowed
  · -- the ids of new tracks were not issued before
    obtain ⟨k, o, -, rfl⟩ := h.exists_started hstarted
    have hold := hle t (Array.mem_toList_iff.mpr (Array.mem_of_getElem? ht))
    have hnew : before.lastId + 1 + k = t.id := hid
    omega

/-- An accepted frame without a time step since the one before leaves the estimate of every track
that it keeps, up to the velocity of those that it matches: a matched track that is slower than the
maximum for noise is set to rest. Positions and covariances all stay. -/
theorem step_leaves_estimates (h : Reachable seen tr) {e : Epoch α} (he : tr.epoch = some e)
    (solver : Solver α) (detections : List (Detection α)) {timestamp : α}
    {options : FrameOptions α} {pose : Pose α} (haccept : options.accept timestamp = .ok pose)
    (hdt : ¬ Scalar.doubleSpacing < timestamp - e.timestamp) :
    let run := tr.assigned solver (timestamp - e.timestamp)
      (tr.observed detections timestamp pose options.lanes)
    ∃ tr' report, tr.step solver detections timestamp options = .ok (tr', report) ∧
      ∀ i t, tr.tracks.tracks[i]? = some t → ∀ t' ∈ tr'.tracks.tracks.toList, t'.id = t.id →
        t'.estimate.covariance = t.estimate.covariance ∧
        t'.estimate.position = t.estimate.position ∧
        (i ∈ run.1.unmatchedTracks ∧ t'.estimate = t.estimate ∨
          (∃ j, (i, j) ∈ run.1.matched) ∧ t'.estimate =
            if t.estimate.velocity.norm < tr.config.lifecycle.speedNoiseMaximum then
              t.estimate.stopped
            else t.estimate) := by
  intro run
  have helapsed : tr.elapsed timestamp = timestamp - e.timestamp := by
    unfold elapsed
    rw [he]
  obtain ⟨tr', followed, started, hstep, -, -, haccount⟩ :=
    h.kept.exists_frameAccount solver detections haccept
  rw [helapsed] at haccount
  refine ⟨tr', _, hstep, ?_⟩
  intro i t ht t' ht' hid
  cases haccount.followed_of_id_eq h.kept.ordered h.kept.id_le ht ht' hid with
  | miss hunmatched =>
    have hestimate := estimate_follow_none hdt tr.config t
    exact ⟨congrArg Estimate.covariance hestimate, congrArg Estimate.position hestimate,
      Or.inl ⟨hunmatched, hestimate⟩⟩
  | @hit j o hmatched ho =>
    have hestimate := estimate_follow_some hdt tr.config t o (run.2.entry i j)
    have hsame : ∀ p : Prop, [Decidable p] →
        (if p then t.estimate.stopped else t.estimate).covariance = t.estimate.covariance ∧
          (if p then t.estimate.stopped else t.estimate).position = t.estimate.position := by
      intro p _
      split
      · exact ⟨rfl, rfl⟩
      · exact ⟨rfl, rfl⟩
    obtain ⟨hcovariance, hposition⟩ :=
      hsame (t.estimate.velocity.norm < tr.config.lifecycle.speedNoiseMaximum)
    exact ⟨(congrArg Estimate.covariance hestimate).trans hcovariance,
      (congrArg Estimate.position hestimate).trans hposition, Or.inr ⟨⟨j, hmatched⟩, hestimate⟩⟩

end Tracker

/-! ### A vehicle that moves slowly -/

namespace Filter

section Example

attribute [local instance] ExactRoots.real

theorem doubleSpacing_lt_hundredth : Scalar.doubleSpacing < (1 / 100 : ℝ) := by
  unfold Scalar.doubleSpacing Scalar.ratio
  norm_num

/-- The prediction for an obstacle that was seen once, a hundredth of a second ago. -/
theorem predict_seenOnce (k : Fin 3) :
    (predict .standard (initiate .standard 0) (1 / 100 : ℝ)).onAxis k =
      ⟨![0, 0], !![120151 / 300000, 101 / 2000; 101 / 2000, 51 / 10]⟩ := by
  rw [predict_standard (isStep_of_lt doubleSpacing_lt_hundredth)]
  norm_num

theorem noise_standard_bounds {score : ℝ}
    (hscore : ¬ (FilterConfig.standard : FilterConfig ℝ).scoreMaximum < score) :
    0 < (FilterConfig.standard : FilterConfig ℝ).measurementNoise * noiseScale .standard score ∧
      (FilterConfig.standard : FilterConfig ℝ).measurementNoise * noiseScale .standard score ≤
        4 / 5 := by
  have hc := FilterConfig.error?_standard ℝ ℝ
  have hpos := noiseScale_pos hc hscore
  have hle := noiseScale_le_two hc hscore
  rw [measurementNoise_standard]
  constructor
  · positivity
  · linarith

theorem gains_seenOnce {r : ℝ} (hr : 0 < r) (hle : r ≤ 4 / 5) :
    let p : ℝ := 120151 / 300000
    let q : ℝ := 101 / 2000
    let s : ℝ := 51 / 10
    AxisEstimate.positionGain p q s r (1 / 100) ∈ Set.Icc 0 1 ∧
      AxisEstimate.velocityGain p q s r (1 / 100) ∈ Set.Ioo 50 400 := by
  intro p q s
  have hdet := AxisEstimate.innovationDet_pos (p := p) (q := q) (s := s) (by norm_num [p])
    (by norm_num [s]) (by norm_num [p, q, s]) hr
  refine ⟨⟨?_, ?_⟩, ?_, ?_⟩
  · exact (AxisEstimate.positionGain_pos (by norm_num [p]) (by norm_num [s])
      (by norm_num [p, q, s]) hr (by norm_num [q]) (by norm_num)).le
  · rw [AxisEstimate.positionGain_le_one_iff hdet hr (by norm_num)]
    norm_num [q, s]
    linarith
  · unfold AxisEstimate.velocityGain
    rw [lt_div_iff₀ hdet]
    unfold AxisEstimate.innovationDet
    norm_num [p, q, s]
    nlinarith
  · unfold AxisEstimate.velocityGain
    rw [div_lt_iff₀ hdet]
    unfold AxisEstimate.innovationDet
    norm_num [p, q, s]
    nlinarith

/-- A correction takes every axis the same part of the distance. -/
theorem exists_gains_seenOnce {score : ℝ}
    (hscore : ¬ (FilterConfig.standard : FilterConfig ℝ).scoreMaximum < score) (anchor : Vec3 ℝ) :
    ∃ g ∈ Set.Icc (0 : ℝ) 1, ∃ g' ∈ Set.Ioo (50 : ℝ) 400, ∀ k,
      (correctedOnAxis .standard (initiate .standard 0) anchor score (1 / 100) k).mean =
        ![g * anchor.onAxis k, g' * anchor.onAxis k] := by
  have hsound := isSound_initiate (K := ℝ) (FilterConfig.error?_standard ℝ ℝ) (0 : Vec3 ℝ)
  obtain ⟨hr, hle⟩ := noise_standard_bounds hscore
  obtain ⟨hposition, hvelocity⟩ := gains_seenOnce hr hle
  refine ⟨_, hposition, _, hvelocity, ?_⟩
  intro k
  have hpredicted := predict_seenOnce k
  rw [onAxis_predict _ hsound] at hpredicted
  have hmean := mean_correctedOnAxis anchor score (isStep_of_lt doubleSpacing_lt_hundredth)
    (congrArg AxisEstimate.covariance hpredicted)
  dsimp only at hmean
  rw [hmean, hpredicted]
  ext i
  fin_cases i <;> simp

/-- The correction by a point a millimeter ahead gives a low velocity. -/
theorem exists_update_seenOnce {score : ℝ}
    (hscore : ¬ (FilterConfig.standard : FilterConfig ℝ).scoreMaximum < score) :
    let e := (update .standard (initiate .standard 0) ⟨1 / 1000, 0, 0⟩ score (1 / 100)).estimate
    ∃ x ∈ Set.Icc (0 : ℝ) (1 / 1000), ∃ v ∈ Set.Ioo (1 / 20 : ℝ) (2 / 5),
      e.position = ⟨x, 0, 0⟩ ∧ e.velocity = ⟨v, 0, 0⟩ := by
  intro e
  have hc := FilterConfig.error?_standard ℝ ℝ
  have hsound := isSound_initiate (K := ℝ) hc (0 : Vec3 ℝ)
  obtain ⟨g, ⟨hg, hg1⟩, g', ⟨hlow, hhigh⟩, hcorrected⟩ :=
    exists_gains_seenOnce hscore ⟨1 / 1000, 0, 0⟩
  have hchange : IsVelocityChange .standard (initiate .standard 0) ⟨1 / 1000, 0, 0⟩ score (1 / 100)
      ⟨g' * (1 / 1000), 0, 0⟩ := by
    intro k
    rw [hcorrected, predict_seenOnce]
    fin_cases k <;> simp [Vec3.onAxis]
  have houtcome : (update .standard (initiate .standard 0) ⟨1 / 1000, 0, 0⟩ score
      (1 / 100)).outcome = .corrected := by
    rw [outcome_update_eq hc hsound (isStep_of_lt doubleSpacing_lt_hundredth) hscore hchange,
      velocityCorrectionMaximum_standard, norm_along (by positivity), if_neg (by linarith)]
  have hmean : ∀ k, (e.onAxis k).mean =
      ![g * (⟨1 / 1000, 0, 0⟩ : Vec3 ℝ).onAxis k, g' * (⟨1 / 1000, 0, 0⟩ : Vec3 ℝ).onAxis k] := by
    intro k
    rw [← hcorrected k]
    exact congrArg AxisEstimate.mean (onAxis_update_of_corrected hc hsound houtcome k)
  have hposition : ∀ k, e.position.onAxis k = g * (⟨1 / 1000, 0, 0⟩ : Vec3 ℝ).onAxis k := by
    intro k
    rw [Estimate.position_onAxis, hmean]
    rfl
  have hvelocity : ∀ k, e.velocity.onAxis k = g' * (⟨1 / 1000, 0, 0⟩ : Vec3 ℝ).onAxis k := by
    intro k
    rw [Estimate.velocity_onAxis, hmean]
    rfl
  refine ⟨g * (1 / 1000), ⟨by positivity, by linarith⟩, g' * (1 / 1000),
    ⟨by linarith, by linarith⟩, ?_, ?_⟩
  · exact Vec3.ext (hposition 0) ((hposition 1).trans (mul_zero g))
      ((hposition 2).trans (mul_zero g))
  · exact Vec3.ext (hvelocity 0) ((hvelocity 1).trans (mul_zero g'))
      ((hvelocity 2).trans (mul_zero g'))

end Example

end Filter

namespace Tracker

section Example

attribute [local instance] ExactRoots.real

/-- The vehicle appears at the origin. -/
noncomputable def seenOnce : Tracker ℝ :=
  accepted (Solver.cheapest ℝ) ⟨.standard, {}, none⟩ [ahead 0] 0 Mat.identity none

/-- Some time later it is a little ahead. -/
noncomputable def seenTwice (x t : ℝ) : Tracker ℝ :=
  seenOnce.accepted (Solver.cheapest ℝ) [ahead x] t Mat.identity none

theorem accept_origin (t : ℝ) :
    (⟨some Mat.identity, none⟩ : FrameOptions ℝ).accept t = .ok Mat.identity :=
  accept_of_pose rfl t

theorem exists_reachable_seenTwice (x t : ℝ) : ∃ seen, Reachable seen (seenTwice x t) := by
  have hcreate := create_standard (α := ℝ) ℝ
  obtain ⟨seen, hfirst⟩ := (Reachable.create hcreate).accepted (Solver.cheapest ℝ) [ahead 0]
    (accept_origin 0)
  have hsecond := hfirst.accepted (Solver.cheapest ℝ) [ahead x] (accept_origin t)
  exact hsecond

theorem isMeasured_observedAhead (x : ℝ) : (observedAhead x).IsMeasured := by
  have hmeasured : (localView .standard Mat.identity (ahead x)).IsMeasured :=
    Observation.isMeasured_ofDetection _ _ (le_refl (0 : ℝ)) (le_refl (0 : ℝ))
  exact ⟨hmeasured.length_nonneg, hmeasured.width_nonneg, hmeasured.shape_eq⟩

theorem followsOne_seenOnce :
    FollowsOne seenOnce (Track.start .standard 5 1 (observedAhead 0)) :=
  ⟨Config.error?_standard ℝ ℝ, Option.some_ne_none _, rfl, rfl⟩

/-- Such an observation passes the gate of every track that is expected near it. -/
theorem cost_observedAhead_le {t : Track ℝ} (ht : t.current.IsMeasured) {x dt : ℝ}
    (hdistance : horizontalDistance (t.predict .standard dt).expected (observedAhead x) ≤ 2) :
    cost .standard dt t (observedAhead x) ≤ (Config.standard : Config ℝ).matching.gate := by
  have hle := Dissimilarity.total_le (Config.bounds (Config.error?_standard ℝ ℝ)).weights ht
    (isMeasured_observedAhead x) (t.predict .standard dt).expected dt
  have henabled : ∀ w : ℝ, 1 / 10 ≤ w → Weights.counted w = w := by
    intro w hw
    refine Weights.counted_of_isEnabled (decide_eq_true ?_)
    refine lt_of_lt_of_le ?_ hw
    norm_num [Scalar.singleSpacing, Scalar.ratio]
  refine hle.trans ?_
  simp only [Config.standard, MatchingConfig.standard, Weights.standard, Scalar.ratio, Scalar.half]
  rw [henabled _ (by norm_num), henabled _ (by norm_num), henabled _ (by norm_num),
    henabled _ (by norm_num)]
  norm_num
  linarith

/-- The vehicle after its second frame. -/
noncomputable def slowTrack (x t : ℝ) : Track ℝ :=
  let start := Track.start .standard 5 1 (observedAhead 0)
  follow .standard t start (some (observedAhead x, cost .standard t start (observedAhead x)))

theorem cost_second_le :
    cost .standard (1 / 100) (Track.start .standard 5 1 (observedAhead 0))
      (observedAhead (1 / 1000)) ≤ (Config.standard : Config ℝ).matching.gate := by
  have hfirst := isMeasured_observedAhead 0
  refine cost_observedAhead_le ⟨hfirst.length_nonneg, hfirst.width_nonneg, hfirst.shape_eq⟩ ?_
  have hexpected : ((Track.start .standard 5 1 (observedAhead 0)).predict .standard
      (1 / 100)).expected = MotionState.ofParts (observedAhead 0).anchor 0 :=
    Filter.mean_predict_standing rfl (1 / 100)
  unfold horizontalDistance
  rw [hexpected, MotionState.position_ofParts, anchor_observedAhead, anchor_observedAhead]
  refine ExactRoots.sqrt_le (Vec2.dot_self_nonneg _) zero_le_two ?_
  norm_num [Vec2.dot, Vec3.horizontal]

theorem followsOne_seenTwice :
    FollowsOne (seenTwice (1 / 1000) (1 / 100)) (slowTrack (1 / 1000) (1 / 100)) :=
  followsOne_seenOnce.accepted Solver.isExact_cheapest (by decide) rfl (sub_zero _) cost_second_le

/-- It was accelerated too much for its velocity to be noise. -/
theorem exists_slowTrack :
    let e := (slowTrack (1 / 1000) (1 / 100)).estimate
    ∃ x ∈ Set.Icc (0 : ℝ) (1 / 1000), ∃ v ∈ Set.Ioo (1 / 20 : ℝ) (2 / 5),
      e.position = ⟨x, 0, 0⟩ ∧ e.velocity = ⟨v, 0, 0⟩ := by
  intro e
  obtain ⟨x, hx, v, hv, hposition, hvelocity⟩ :=
    Filter.exists_update_seenOnce (not_lt.mpr cost_second_le)
  have hestimate : e = Track.settleVelocity .standard 0 (1 / 100)
      (Filter.update .standard (Filter.initiate .standard (observedAhead 0).anchor)
        (observedAhead (1 / 1000)).anchor (cost .standard (1 / 100)
          (Track.start .standard 5 1 (observedAhead 0)) (observedAhead (1 / 1000)))
        (1 / 100)).estimate := rfl
  have hacceleration : (LifecycleConfig.standard : LifecycleConfig ℝ).accelerationNoiseMaximum <
      (((⟨v, 0, 0⟩ : Vec3 ℝ) - 0) / (1 / 100 : ℝ)).norm := by
    have hquotient : ((⟨v, 0, 0⟩ : Vec3 ℝ) - 0) / (1 / 100 : ℝ) = ⟨v * 100, 0, 0⟩ := by
      apply Vec3.ext <;> simp
    have hmaximum : (LifecycleConfig.standard : LifecycleConfig ℝ).accelerationNoiseMaximum = 5 :=
      Nat.cast_ofNat
    rw [hquotient, hmaximum, Filter.norm_along (by linarith [hv.1])]
    linarith [hv.1]
  have horigin : (observedAhead 0).anchor = 0 := anchor_observedAhead 0
  rw [horigin, anchor_observedAhead] at hestimate
  rw [← hvelocity] at hacceleration
  rw [Track.settleVelocity_of_accelerates Filter.doubleSpacing_lt_hundredth hacceleration]
    at hestimate
  rw [hestimate]
  exact ⟨x, hx, v, hv, hposition, hvelocity⟩

theorem isMeasured_slowTrack (x t : ℝ) : (slowTrack x t).current.IsMeasured := by
  have hmeasured := isMeasured_observedAhead x
  have hsize : (slowTrack x t).current.detection.size = (observedAhead x).detection.size :=
    Track.size_orient_of_nil rfl
  constructor
  · rw [hsize]
    exact hmeasured.length_nonneg
  · rw [hsize]
    exact hmeasured.width_nonneg
  · exact hmeasured.shape_eq

/-- The third frame has the time of the second. -/
theorem cost_third_le :
    cost .standard 0 (slowTrack (1 / 1000) (1 / 100)) (observedAhead (1 / 1000)) ≤
      (Config.standard : Config ℝ).matching.gate := by
  refine cost_observedAhead_le (isMeasured_slowTrack _ _) ?_
  obtain ⟨x, ⟨hlow, hhigh⟩, v, -, hposition, -⟩ := exists_slowTrack
  generalize slowTrack (1 / 1000) (1 / 100) = t at hposition
  have hexpected : (t.predict .standard 0).expected = t.estimate.mean := by
    refine congrArg Estimate.mean (Filter.predict_of_not_isStep (Filter.isStep_eq_false ?_) _ _)
    exact not_lt.mpr Filter.doubleSpacing_pos.le
  have hplace : MotionState.position t.estimate.mean = ⟨x, 0, 0⟩ := hposition
  unfold horizontalDistance
  rw [hexpected, hplace, anchor_observedAhead]
  refine ExactRoots.sqrt_le (Vec2.dot_self_nonneg _) zero_le_two ?_
  simp only [Vec2.dot, Vec3.horizontal, Vec3.x_sub, Vec3.y_sub, sub_self, mul_zero, add_zero]
  nlinarith

/-- A further frame with the time and the detection of the second. -/
noncomputable def seenAgain (x t : ℝ) : Tracker ℝ :=
  (seenTwice x t).accepted (Solver.cheapest ℝ) [ahead x] t Mat.identity none

/-- The vehicle after that frame. -/
noncomputable def settledTrack (x t : ℝ) : Track ℝ :=
  follow .standard 0 (slowTrack x t)
    (some (observedAhead x, cost .standard 0 (slowTrack x t) (observedAhead x)))

theorem followsOne_seenAgain :
    FollowsOne (seenAgain (1 / 1000) (1 / 100)) (settledTrack (1 / 1000) (1 / 100)) :=
  followsOne_seenTwice.accepted Solver.isExact_cheapest (by decide) rfl (sub_self _) cost_third_le

theorem exists_step_seenTwice (x t : ℝ) :
    ∃ report, (seenTwice x t).step (Solver.cheapest ℝ) [ahead x] t ⟨some Mat.identity, none⟩ =
      .ok (seenAgain x t, report) := by
  obtain ⟨seen, hreachable⟩ := exists_reachable_seenTwice x t
  exact ⟨_, hreachable.kept.step_eq (Solver.cheapest ℝ) [ahead x] (accept_origin t)⟩

theorem not_doubleSpacing_lt_sub_self (t : ℝ) : ¬ Scalar.doubleSpacing < t - t := by
  rw [sub_self]
  exact not_lt.mpr Filter.doubleSpacing_pos.le

/-- A repeated timestamp leaves position and covariance of the vehicle. -/
theorem step_leaves_estimates_repeated :
    let tr := seenTwice (1 / 1000) (1 / 100)
    ∃ tr' report t t',
      tr.step (Solver.cheapest ℝ) [ahead (1 / 1000)] (1 / 100) ⟨some Mat.identity, none⟩ =
        .ok (tr', report) ∧
      t ∈ tr.tracks.tracks.toList ∧ t' ∈ tr'.tracks.tracks.toList ∧ t'.id = t.id ∧
      t'.estimate.covariance = t.estimate.covariance ∧
      t'.estimate.position = t.estimate.position := by
  intro tr
  obtain ⟨seen, hreachable⟩ := exists_reachable_seenTwice (1 / 1000) (1 / 100)
  obtain ⟨tr', report, hstep, hleaves⟩ := step_leaves_estimates hreachable rfl
    (Solver.cheapest ℝ) [ahead (1 / 1000)] (accept_origin (1 / 100))
    (not_doubleSpacing_lt_sub_self _)
  obtain ⟨report', hstep'⟩ := exists_step_seenTwice (1 / 1000) (1 / 100)
  have hpair := hstep.symm.trans hstep'
  rw [Except.ok.injEq, Prod.mk.injEq] at hpair
  obtain ⟨rfl, -⟩ := hpair
  obtain ⟨i, hi⟩ := List.getElem?_of_mem followsOne_seenTwice.mem
  obtain ⟨hcovariance, hposition, -⟩ :=
    hleaves i _ (Array.getElem?_toList.symm.trans hi) _ followsOne_seenAgain.mem rfl
  exact ⟨_, report, _, _, hstep, followsOne_seenTwice.mem, followsOne_seenAgain.mem, rfl,
    hcovariance, hposition⟩

/-- The same frame stops the vehicle, which was slow but moving. -/
theorem step_stops_slow :
    let tr := seenTwice (1 / 1000) (1 / 100)
    ∃ seen e tr' report t t', Reachable seen tr ∧ tr.epoch = some e ∧
      ¬ Scalar.doubleSpacing < 1 / 100 - e.timestamp ∧
      tr.step (Solver.cheapest ℝ) [ahead (1 / 1000)] (1 / 100) ⟨some Mat.identity, none⟩ =
        .ok (tr', report) ∧
      t ∈ tr.tracks.tracks.toList ∧ t' ∈ tr'.tracks.tracks.toList ∧ t'.id = t.id ∧
      t'.estimate.mean ≠ t.estimate.mean := by
  intro tr
  obtain ⟨seen, hreachable⟩ := exists_reachable_seenTwice (1 / 1000) (1 / 100)
  obtain ⟨report, hstep⟩ := exists_step_seenTwice (1 / 1000) (1 / 100)
  refine ⟨seen, _, _, report, _, _, hreachable, rfl, not_doubleSpacing_lt_sub_self _, hstep,
    followsOne_seenTwice.mem, followsOne_seenAgain.mem, rfl, ?_⟩
  obtain ⟨x, -, v, ⟨hlow, hhigh⟩, -, hvelocity⟩ := exists_slowTrack
  have hstopped := estimate_follow_some (not_lt.mpr Filter.doubleSpacing_pos.le) .standard
    (slowTrack (1 / 1000) (1 / 100)) (observedAhead (1 / 1000))
    (cost .standard 0 (slowTrack (1 / 1000) (1 / 100)) (observedAhead (1 / 1000)))
  have hslow : (slowTrack (1 / 1000) (1 / 100)).estimate.velocity.norm <
      (LifecycleConfig.standard : LifecycleConfig ℝ).speedNoiseMaximum := by
    have hmaximum : (LifecycleConfig.standard : LifecycleConfig ℝ).speedNoiseMaximum = 2 / 5 := by
      norm_num [LifecycleConfig.standard, Scalar.ratio]
    rw [hvelocity, Filter.norm_along (by linarith), hmaximum]
    exact hhigh
  rw [Config.standard, if_pos hslow] at hstopped
  intro hsame
  have hrest : (settledTrack (1 / 1000) (1 / 100)).estimate.velocity = 0 :=
    (congrArg Estimate.velocity hstopped).trans (MotionState.velocity_ofParts _ _)
  have hzero := (congrArg MotionState.velocity hsame).symm.trans hrest
  have hspeed : v = 0 := congrArg Vec3.x (hvelocity.symm.trans hzero)
  linarith

end Example

end Tracker

end ObstacleTracking
