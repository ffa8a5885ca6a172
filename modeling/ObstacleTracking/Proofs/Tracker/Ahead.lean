import ObstacleTracking.Proofs.Association.Agreement
import ObstacleTracking.Proofs.Association.Standing
import ObstacleTracking.Proofs.Track.Standing
import ObstacleTracking.Proofs.Tracker.Accounting

/-!
# Vehicles straight ahead

Vehicles without points are seen straight ahead of a sensor at the origin. To a track that one of
them started, another observation costs what their distance costs. So the distances alone tell which
pairs of a second frame are gated.
-/

namespace ObstacleTracking.Tracker

section Views

variable {K : Type} [Field K] [LinearOrder K] [ExactRoots K]

/-- A detection in the local frame of the pose it is seen from. -/
def localView (c : Config K) (pose : Pose K) (d : Detection K) : Observation K :=
  Observation.ofDetection (pose.displace (-pose.origin)) c.matching.bins? d

end Views

section Ahead

attribute [local instance] ExactRoots.real

/-! ### Observations -/

/-- An obstacle without points, seen straight ahead. -/
noncomputable def ahead (x : ℝ) : Detection ℝ := ⟨[], [], ⟨x, 0, 0⟩, 0, 0, .vehicle⟩

theorem anchor_ahead (c : Config ℝ) (x : ℝ) :
    (localView c Mat.identity (ahead x)).anchor = ⟨x, 0, 0⟩ := by
  have hmove : (Pose.displace (Mat.identity : Pose ℝ) (-Pose.origin Mat.identity)).move ⟨x, 0, 0⟩ =
      ⟨x, 0, 0⟩ := by
    unfold Pose.move
    rw [Pose.turn_displace, Pose.origin_displace]
    apply Vec3.ext <;> simp [Pose.turn, Pose.origin]
  exact hmove

/-- What is observed of an obstacle ahead from the origin. -/
noncomputable def observedAhead (x : ℝ) : Observation ℝ :=
  { localView .standard Mat.identity (ahead x) with
    lane := (Pose.displace Mat.identity (-Pose.origin Mat.identity)).turn Vec3.forward }

theorem anchor_observedAhead (x : ℝ) : (observedAhead x).anchor = ⟨x, 0, 0⟩ :=
  anchor_ahead .standard x

theorem observe_ahead (xs : List ℝ) :
    observe .standard (-Pose.origin Mat.identity) Mat.identity none (xs.map ahead) =
      xs.map observedAhead := by
  unfold observe
  rw [List.map_map]
  rfl

theorem norm_horizontal_along (x y : ℝ) :
    ((⟨y, 0, 0⟩ : Vec3 ℝ) - ⟨x, 0, 0⟩).horizontal.norm = |y - x| := by
  have hnorm : ((⟨y, 0, 0⟩ : Vec3 ℝ) - ⟨x, 0, 0⟩).horizontal.norm =
      Real.sqrt ((y - x) * (y - x) + (0 - 0) * (0 - 0)) := rfl
  rw [hnorm, sub_zero, mul_zero, add_zero, Real.sqrt_mul_self_eq_abs]

/-! ### Costs -/

variable {c : Config ℝ} {x y : ℝ} {i j : ℕ}

theorem total_ahead (c : Config ℝ) (id : ℕ) (x y dt : ℝ) :
    let t := Track.start c.filter c.lifecycle.historyCapacity id (observedAhead x)
    Dissimilarity.total c.matching.weights t.current (t.predict c.filter dt).expected
        (observedAhead y) dt =
      Dissimilarity.addTerm (Dissimilarity.addTerm 0 c.matching.weights.location |y - x|)
        c.matching.weights.direction (6 / 1000) := by
  intro t
  have hmean : (t.predict c.filter dt).expected =
      MotionState.ofParts (observedAhead x).anchor 0 := Filter.mean_predict_standing rfl dt
  have hstill : MotionState.velocity (t.predict c.filter dt).expected = 0 := by
    rw [hmean, MotionState.velocity_ofParts]
  have hbox : Dissimilarity.boxSize t.current (observedAhead y) = 0 :=
    Dissimilarity.boxChange_zero _ _
  have hcount : Dissimilarity.pointCount t.current (observedAhead y) = 0 :=
    Dissimilarity.relativeChange_self _
  have hdistance : ((observedAhead y).anchor - MotionState.position
      (t.predict c.filter dt).expected).horizontal.norm = |y - x| := by
    rw [hmean, MotionState.position_ofParts, anchor_observedAhead, anchor_observedAhead,
      norm_horizontal_along]
  rw [Dissimilarity.total_alike rfl hstill hbox hcount rfl, hdistance]

/-! ### Second frames -/

/-- Tracks are never given up for being seen too seldom, and are reported while they are missed. -/
noncomputable def patient : Config ℝ :=
  { Config.standard with
    lifecycle := { LifecycleConfig.standard with
      visibleRatioMinimum := 0
      reportInvisibleMaximum := 1 } }

theorem error?_patient : patient.error? = none := by
  have hstandard := Config.error?_standard ℝ ℝ
  unfold Config.error? LifecycleConfig.error? at hstandard ⊢
  simp only [Option.or_eq_none_iff] at hstandard ⊢
  obtain ⟨hmatching, hfilter, hcapacity, -, hacceleration, hspeed⟩ := hstandard
  exact ⟨hmatching, hfilter, hcapacity, fraction_fault?_eq_none le_rfl zero_le_one _, hacceleration,
    hspeed⟩

/-- The tracker that stood at the origin in its first frame and saw vehicles ahead at some places. -/
noncomputable def parked (c : Config ℝ) (xs : List ℝ) : Tracker ℝ where
  config := c
  tracks := (TrackSet.create c.filter c.lifecycle.historyCapacity {} (xs.map observedAhead)).1
  epoch := some ⟨-Pose.origin Mat.identity, 0, 1⟩

variable {xs ys : List ℝ}

theorem tracks_parked (c : Config ℝ) (xs : List ℝ) :
    (parked c xs).tracks.tracks.toList = startAll c 0 (xs.map observedAhead) :=
  tracks_create c {} _

theorem rows_parked (c : Config ℝ) (xs : List ℝ) (dt : ℝ) (os : List (Observation ℝ)) :
    ((parked c xs).costs dt os).rows = xs.length := by
  rw [rows_costs, tracks_parked, length_startAll, List.length_map]

theorem entry_parked (hc : c.matching = .standard) (hx : xs[i]? = some x) (hy : ys[j]? = some y)
    (dt : ℝ) :
    ((parked c xs).costs dt (ys.map observedAhead)).entry i j = 3 / 5 * |y - x| + 3 / 2500 := by
  have hxs : (xs.map observedAhead)[i]? = some (observedAhead x) := by
    rw [List.getElem?_map, hx, Option.map_some]
  have hys : (ys.map observedAhead)[j]? = some (observedAhead y) := by
    rw [List.getElem?_map, hy, Option.map_some]
  have htrack := getElem?_startAll c 0 hxs
  rw [← tracks_parked] at htrack
  have hentry : ((parked c xs).costs dt (ys.map observedAhead)).entry i j =
      Dissimilarity.addTerm (Dissimilarity.addTerm 0 c.matching.weights.location |y - x|)
        c.matching.weights.direction (6 / 1000) :=
    (entry_costs htrack hys).trans (total_ahead c _ x y dt)
  rw [hentry, hc]
  unfold Dissimilarity.addTerm Weights.isEnabled
  simp only [MatchingConfig.standard, Weights.standard, Scalar.ratio, Scalar.singleSpacing]
  norm_num

/-- Under the standard settings a pair is gated if it is at most six meters and some apart. -/
theorem isGated_parked (hc : c.matching = .standard) (hx : xs[i]? = some x) (hy : ys[j]? = some y)
    (dt : ℝ) :
    ((parked c xs).costs dt (ys.map observedAhead)).isGated c.matching.gate i j =
      decide (3 / 5 * |y - x| + 3 / 2500 ≤ 4) := by
  have hgate : (MatchingConfig.standard : MatchingConfig ℝ).gate = 4 := Nat.cast_ofNat
  unfold CostMatrix.isGated CostMatrix.passes
  rw [entry_parked hc hx hy, hc, hgate]
  exact Bool.true_and _

theorem not_isGated_parked (hc : c.matching = .standard) (hx : xs[i]? = some x)
    (hy : ys[j]? = some y) (hfar : 7 ≤ |y - x|) (dt : ℝ) :
    ((parked c xs).costs dt (ys.map observedAhead)).isGated c.matching.gate i j = false := by
  rw [isGated_parked hc hx hy, decide_eq_false_iff_not]
  linarith

/-- Of two vehicles the first is seen again, after a third one, and the second is missed. -/
theorem blockwise_parked_two (hc : c.matching = .standard) {solver : Solver ℝ} (hs : solver.IsExact)
    (dt : ℝ) :
    Assignment.blockwise solver ((parked c [0, 100]).costs dt ([200, 0].map observedAhead))
      c.matching.gate = ⟨[(0, 1)], [1], [0]⟩ := by
  have hrows := rows_parked c [0, 100] dt ([200, 0].map observedAhead)
  have hcols := cols_costs (parked c [0, 100]) dt ([200, 0].map observedAhead)
  have hone : Assignment.blockwise solver
      ((parked c [0, 100]).costs dt ([200, 0].map observedAhead)) c.matching.gate =
      Assignment.ofMatches
        (Block.whole ((parked c [0, 100]).costs dt ([200, 0].map observedAhead))) [(0, 1)] := by
    refine blockwise_eq_singleton ℝ hs rfl ?_ ?_ ?_ ?_ ?_
    · rw [hrows]
      exact Nat.two_pos
    · rw [hcols]
      exact Nat.one_lt_two
    · rw [isGated_parked (x := 0) (y := 0) hc rfl rfl, decide_eq_true_iff]
      norm_num
    · rw [entry_parked (x := 0) (y := 0) hc rfl rfl]
      positivity
    · intro i hi j hj hij
      rw [hrows] at hi
      rw [hcols] at hj
      have hi : i < 2 := hi
      have hj : j < 2 := hj
      interval_cases i <;> interval_cases j
      · rw [not_isGated_parked (x := 0) (y := 200) hc rfl rfl (by norm_num)] at hij
        cases hij
      · rfl
      · rw [not_isGated_parked (x := 100) (y := 200) hc rfl rfl (by norm_num)] at hij
        cases hij
      · rw [not_isGated_parked (x := 100) (y := 0) hc rfl rfl (by norm_num)] at hij
        cases hij
  rw [hone]
  unfold Assignment.ofMatches Block.whole
  rw [hrows, hcols]
  rfl

end Ahead

end ObstacleTracking.Tracker
