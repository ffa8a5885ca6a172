import Mathlib.Tactic.Linarith
import ObstacleTracking.Association.Matching
import ObstacleTracking.Proofs.Association.Blockwise
import ObstacleTracking.Proofs.Association.Standing
import ObstacleTracking.Proofs.Detection.Histogram
import ObstacleTracking.Proofs.Linear.Length

/-!
# Bounds of costs

The term of the location lies between half the horizontal distance and its double, and every other
term between zero and a constant. So a cost says how far an observation is from where the track is
expected, and the gate limits the distance of the pairs that are matched.
-/

namespace ObstacleTracking

open ExactRoots

/-! ### Matched pairs -/

/-- A matched pair is a track and an observation whose cost is not above the gate. -/
theorem Matching.exists_of_mem_matched {α : Type} [Scalar α] {solver : Solver α}
    {c : MatchingConfig α} {tracks : Array (Track α)} {observations : Array (Observation α)}
    {dt : α} {p : ℕ × ℕ} (hp : p ∈ (run solver c tracks observations dt).1.matched) :
    ∃ t o, tracks[p.1]? = some t ∧ observations[p.2]? = some o ∧
      Dissimilarity.total c.weights t.current t.expected o dt ≤ c.gate := by
  have hmatching := isMatching_blockwise solver (costs c.weights tracks observations dt) c.gate
  have hp := List.mem_toFinset.mpr hp
  have htrack : p.1 < tracks.size :=
    (List.mem_range.mp (hmatching.track_mem p hp)).trans_eq Array.size_map
  have hobservation : p.2 < observations.size := List.mem_range.mp (hmatching.detection_mem p hp)
  have ht := Array.getElem?_eq_getElem htrack
  have ho := Array.getElem?_eq_getElem hobservation
  have hgated := hmatching.gated p hp
  unfold CostMatrix.isGated CostMatrix.passes at hgated
  rw [entry_costs ht ho, Bool.and_eq_true] at hgated
  exact ⟨_, _, ht, ho, of_decide_eq_true hgated.2⟩

variable {K : Type} [Field K] [LinearOrder K] [ExactRoots K]

/-! ### Distance and measurement -/

/-- The horizontal distance of an observation from where a track is expected. -/
def horizontalDistance (expected : MotionState K) (o : Observation K) : K :=
  (o.anchor - MotionState.position expected).horizontal.norm

/-- An observation with a box that can exist and with the histogram of some cloud, if any. -/
structure Observation.IsMeasured (o : Observation K) : Prop where
  length_nonneg : 0 ≤ o.detection.size.x
  width_nonneg : 0 ≤ o.detection.size.y
  shape_eq : ∀ shape, o.shape = some shape → ∃ bins cloud, shape = Histogram.ofCloud bins cloud

/-- The tracker measures whatever detections with sizes it is given. -/
theorem Observation.isMeasured_ofDetection (pose : Pose K) (bins : Option ℕ) {d : Detection K}
    (hlength : 0 ≤ d.size.x) (hwidth : 0 ≤ d.size.y) : (ofDetection pose bins d).IsMeasured := by
  constructor
  · exact hlength
  · exact hwidth
  · intro shape hshape
    obtain ⟨b, -, rfl⟩ := Option.map_eq_some_iff.mp hshape
    exact ⟨b, d.cloud, rfl⟩

/-- The weight with which a term counts: none if it is not enabled. -/
def Weights.counted (weight : K) : K := if isEnabled weight then weight else 0

theorem Weights.counted_of_isEnabled {weight : K} (h : isEnabled weight = true) :
    counted weight = weight := if_pos h

theorem Weights.pos_of_isEnabled [IsStrictOrderedRing K] {weight : K}
    (h : isEnabled weight = true) : 0 < weight := by
  have hspacing : (0 : K) ≤ Scalar.singleSpacing :=
    div_nonneg (Nat.cast_nonneg _) (Nat.cast_nonneg _)
  exact hspacing.trans_lt (of_decide_eq_true h)

theorem Weights.counted_nonneg {weight : K} (h : 0 ≤ weight) : 0 ≤ counted weight := by
  unfold counted
  split
  · exact h
  · exact le_rfl

theorem Dissimilarity.addTerm_eq (sum weight term : K) :
    addTerm sum weight term = sum + Weights.counted weight * term := by
  unfold addTerm Weights.counted
  split
  · rfl
  · rw [zero_mul, add_zero]

/-! ### Location -/

namespace Vec2

/-- What a vector has along a unit vector and across it makes up its length. -/
theorem dot_mul_self_add_clockwise (v : Vec2 K) {unit : Vec2 K} (hunit : unit.dot unit = 1) :
    v.dot unit * v.dot unit + v.dot unit.clockwise * v.dot unit.clockwise = v.dot v := by
  have hparts : v.dot unit * v.dot unit + v.dot unit.clockwise * v.dot unit.clockwise =
      v.dot v * unit.dot unit := by
    unfold dot clockwise
    ring
  rw [hparts, hunit, mul_one]

variable [IsStrictOrderedRing K]

theorem dot_div_norm_self {v : Vec2 K} (hv : 0 < v.norm) : (v / v.norm).dot (v / v.norm) = 1 := by
  have hquotient : (v / v.norm).dot (v / v.norm) = v.dot v / (v.norm * v.norm) := by
    simp only [dot, x_div, y_div]
    ring
  rw [hquotient, norm_mul_self, div_self]
  rw [← norm_mul_self]
  exact (mul_pos hv hv).ne'

end Vec2

variable [IsStrictOrderedRing K]

namespace Dissimilarity

/-- Along the motion a deviation counts half and across it twice. -/
theorem deviation_bounds (motion difference : Vec2 K) :
    difference.norm / 2 ≤ deviation motion difference ∧
      deviation motion difference ≤ 2 * difference.norm := by
  have hnonneg := difference.norm_nonneg
  unfold deviation
  dsimp only
  split
  case isFalse => exact ⟨half_le_self hnonneg, by linarith⟩
  case isTrue hfast =>
    have hspeed : 0 < motion.norm := (Nat.cast_nonneg 2).trans_lt hfast
    have hlength := difference.dot_mul_self_add_clockwise (Vec2.dot_div_norm_self hspeed)
    rw [← Vec2.norm_mul_self difference] at hlength
    set along := difference.dot (motion / motion.norm)
    set across := difference.dot (motion / motion.norm).clockwise
    have halong := mul_self_nonneg along
    have hacross := mul_self_nonneg across
    have hhalf : (Scalar.half : K) = 1 / 2 := ExactScalar.half_eq
    have hsquare : Vec2.dot ⟨along * Scalar.half, across * ((2 : ℕ) : K)⟩
        ⟨along * Scalar.half, across * ((2 : ℕ) : K)⟩ =
          along * along / 4 + 4 * (across * across) := by
      rw [hhalf, Nat.cast_ofNat]
      unfold Vec2.dot
      ring
    constructor
    · refine le_sqrt (div_nonneg hnonneg zero_le_two) ?_
      rw [hsquare]
      linarith
    · refine sqrt_le (Vec2.dot_self_nonneg _) (mul_nonneg zero_le_two hnonneg) ?_
      rw [hsquare]
      linarith

/-! ### Direction -/

theorem neg_one_le_cosHorizontal (v w : Vec3 K) : -1 ≤ v.cosHorizontal w := by
  have hneg : (-1 : K) ≤ 0 := neg_nonpos.mpr zero_le_one
  unfold Vec3.cosHorizontal Scalar.clamp
  dsimp only
  split
  · exact hneg
  · split
    case isTrue => exact le_rfl
    case isFalse hlow =>
      split
      · exact hneg.trans zero_le_one
      · exact not_lt.mp hlow

theorem direction_le_two (last : Observation K) (expected : MotionState K) (o : Observation K)
    (dt : K) : direction last expected o dt ≤ 2 := by
  unfold direction
  dsimp only
  split
  · have hnonneg : (0 : K) ≤ undirectedCosine := div_nonneg (Nat.cast_nonneg _) (Nat.cast_nonneg _)
    linarith
  · linarith [neg_one_le_cosHorizontal (o.anchor - last.anchor)
      (MotionState.velocity expected * dt)]

/-! ### Size -/

theorem relativeChange_le_one {a b : K} (ha : 0 ≤ a) (hb : 0 ≤ b) : relativeChange a b ≤ 1 := by
  unfold relativeChange
  dsimp only
  split
  · exact zero_le_one
  · rw [maxNum_eq, ExactRoots.abs_eq]
    exact div_le_one_of_le₀ (abs_sub_le_of_nonneg_of_le ha (le_max_left a b) hb (le_max_right a b))
      (ha.trans (le_max_left a b))

theorem boxChange_le_one (u v : Vec2 K) {old new : Vec3 K} (hold : 0 ≤ old.x) (hlength : 0 ≤ new.x)
    (hwidth : 0 ≤ new.y) : boxChange u v old new ≤ 1 := by
  unfold boxChange
  split
  · rw [minNum_eq]
    exact min_le_of_left_le (relativeChange_le_one hold hlength)
  · rw [minNum_eq]
    exact min_le_of_left_le (relativeChange_le_one hold hwidth)

theorem boxSize_le_one {last o : Observation K} (hlast : last.IsMeasured) (ho : o.IsMeasured) :
    boxSize last o ≤ 1 :=
  boxChange_le_one _ _ hlast.length_nonneg ho.length_nonneg ho.width_nonneg

theorem pointCount_le_one (last o : Observation K) : pointCount last o ≤ 1 :=
  relativeChange_le_one (Nat.cast_nonneg _) (Nat.cast_nonneg _)

/-! ### Shape -/

/-- Fractions differ by no more than their sum. -/
theorem sum_zipWith_abs_sub_le {old new : List K} (hold : ∀ x ∈ old, 0 ≤ x)
    (hnew : ∀ x ∈ new, 0 ≤ x) :
    (List.zipWith (fun a b => Scalar.abs (a - b)) old new).sum ≤ old.sum + new.sum := by
  induction old generalizing new with
  | nil =>
    rw [List.zipWith_nil_left, List.sum_nil, zero_add]
    exact List.sum_nonneg hnew
  | cons a old ih =>
    cases new with
    | nil =>
      rw [List.zipWith_nil_right, List.sum_nil, add_zero]
      exact List.sum_nonneg hold
    | cons b new =>
      have ha := hold a List.mem_cons_self
      have hb := hnew b List.mem_cons_self
      have hhead : Scalar.abs (a - b) ≤ a + b := by
        rw [ExactRoots.abs_eq]
        exact abs_le.mpr ⟨by linarith, by linarith⟩
      have htail := ih (fun x hx => hold x (List.mem_cons_of_mem a hx))
        fun x hx => hnew x (List.mem_cons_of_mem b hx)
      rw [List.zipWith_cons_cons, List.sum_cons, List.sum_cons, List.sum_cons]
      linarith

theorem shape_le_two {last o : Observation K}
    (hlast : ∀ old, last.shape = some old → ∃ bins cloud, old = Histogram.ofCloud bins cloud)
    (ho : ∀ new, o.shape = some new → ∃ bins cloud, new = Histogram.ofCloud bins cloud) :
    shape last o ≤ 2 := by
  unfold shape
  split
  case h_2 => exact zero_le_two
  case h_1 old new hold hnew =>
    split
    case isFalse => exact zero_le_two
    case isTrue =>
      obtain ⟨bins, cloud, rfl⟩ := hlast old hold
      obtain ⟨bins', cloud', rfl⟩ := ho new hnew
      have hdifference := sum_zipWith_abs_sub_le (Histogram.ofCloud_nonneg bins cloud)
        (Histogram.ofCloud_nonneg bins' cloud')
      have hold := Histogram.sum_ofCloud_le bins cloud
      have hnew := Histogram.sum_ofCloud_le bins' cloud'
      have hthree : ((3 : ℕ) : K) = 3 := Nat.cast_ofNat
      unfold histogramDistance
      rw [← List.sum_eq_foldl, hthree, div_le_iff₀ zero_lt_three]
      linarith

/-! ### The weighted sum -/

variable {w : Weights K}

theorem le_total (hw : w.Bounds) (last : Observation K) (expected : MotionState K)
    (o : Observation K) (dt : K) :
    Weights.counted w.location / 2 * horizontalDistance expected o ≤
      total w last expected o dt := by
  have hlocation : horizontalDistance expected o / 2 ≤ location last expected o :=
    (deviation_bounds _ _).1
  calc Weights.counted w.location / 2 * horizontalDistance expected o
      = Weights.counted w.location * (horizontalDistance expected o / 2) := by ring
    _ ≤ Weights.counted w.location * location last expected o :=
        mul_le_mul_of_nonneg_left hlocation (Weights.counted_nonneg hw.location)
    _ = addTerm 0 w.location (location last expected o) := by rw [addTerm_eq, zero_add]
    _ ≤ total w last expected o dt := location_le_total hw last expected o dt

theorem total_le (hw : w.Bounds) {last o : Observation K} (hlast : last.IsMeasured)
    (ho : o.IsMeasured) (expected : MotionState K) (dt : K) :
    total w last expected o dt ≤
      2 * Weights.counted w.location * horizontalDistance expected o +
        2 * Weights.counted w.direction + Weights.counted w.boxSize +
        Weights.counted w.pointCount + 2 * Weights.counted w.histogram := by
  have hlocation : location last expected o ≤ 2 * horizontalDistance expected o :=
    (deviation_bounds _ _).2
  have hlocation := mul_le_mul_of_nonneg_left hlocation (Weights.counted_nonneg hw.location)
  have hdirection := mul_le_mul_of_nonneg_left (direction_le_two last expected o dt)
    (Weights.counted_nonneg hw.direction)
  have hboxSize := mul_le_mul_of_nonneg_left (boxSize_le_one hlast ho)
    (Weights.counted_nonneg hw.boxSize)
  have hpointCount := mul_le_mul_of_nonneg_left (pointCount_le_one last o)
    (Weights.counted_nonneg hw.pointCount)
  have hhistogram := mul_le_mul_of_nonneg_left (shape_le_two hlast.shape_eq ho.shape_eq)
    (Weights.counted_nonneg hw.histogram)
  unfold total
  dsimp only
  rw [addTerm_eq, addTerm_eq, addTerm_eq, addTerm_eq, addTerm_eq]
  linarith

end Dissimilarity

/-! ### Costs and distances -/

namespace Matching

/-- A cost is at least half the weighted distance, and at most twice that and what the other terms
can add. So with an enabled location no pair is matched over a distance that the gate forbids,
whatever its other terms are. -/
theorem distance_bounds {c : MatchingConfig K} (hw : c.weights.Bounds) :
    (∀ (last o : Observation K) (expected : MotionState K) (dt : K),
      let distance := horizontalDistance expected o
      let cost := Dissimilarity.total c.weights last expected o dt
      Weights.counted c.weights.location / 2 * distance ≤ cost ∧
        (last.IsMeasured → o.IsMeasured → cost ≤
          2 * Weights.counted c.weights.location * distance +
            2 * Weights.counted c.weights.direction + Weights.counted c.weights.boxSize +
            Weights.counted c.weights.pointCount + 2 * Weights.counted c.weights.histogram)) ∧
    ∀ (solver : Solver K) (tracks : Array (Track K)) (observations : Array (Observation K))
      (dt : K), Weights.isEnabled c.weights.location = true →
      ∀ p ∈ (run solver c tracks observations dt).1.matched,
        ∃ t o, tracks[p.1]? = some t ∧ observations[p.2]? = some o ∧
          horizontalDistance t.expected o ≤ 2 * c.gate / c.weights.location := by
  refine ⟨?_, ?_⟩
  · intro last o expected dt distance cost
    refine ⟨Dissimilarity.le_total hw last expected o dt, ?_⟩
    intro hlast ho
    exact Dissimilarity.total_le hw hlast ho expected dt
  · intro solver tracks observations dt henabled p hp
    obtain ⟨t, o, ht, ho, hgate⟩ := exists_of_mem_matched hp
    refine ⟨t, o, ht, ho, ?_⟩
    have hle := (Dissimilarity.le_total hw t.current t.expected o dt).trans hgate
    rw [Weights.counted_of_isEnabled henabled] at hle
    rw [le_div_iff₀ (Weights.pos_of_isEnabled henabled)]
    linarith

section Example

attribute [local instance] ExactRoots.real

/-- One track and one observation that pass the gate are matched, and no solver is asked. -/
theorem mem_matched_one {α : Type} [Scalar α] {c : CostMatrix α} {gate : α} (solver : Solver α)
    (hrows : c.rows = 1) (hcols : c.cols = 1) (hgated : c.isGated gate 0 0 = true) :
    (0, 0) ∈ (Assignment.blockwise solver c gate).matched := by
  have hcomponents : Block.components c gate = [⟨[0], [0]⟩] := by
    unfold Block.components
    rw [hrows, hcols]
    simp [Block.componentsOf, Block.joins, Block.unreached, Block.neighbours, Block.without, hgated,
      List.range_one]
  refine mem_matched_blockwise.mpr ⟨⟨[0], [0]⟩, ?_, List.mem_singleton_self _⟩
  rw [hcomponents]
  exact List.mem_singleton_self _

/-- With weights of one, an obstacle that moves ahead by one meter always passes a gate of eight. -/
theorem distance_bounds_ahead :
    let seen (x : ℝ) := Observation.ofDetection Mat.identity (some 10)
      (⟨[], [], ⟨x, 0, 0⟩, Vec3.forward, ⟨4, 2, 1⟩, .vehicle⟩ : Detection ℝ)
    let t := Track.start .standard 5 1 (seen 0)
    let c : MatchingConfig ℝ := ⟨8, ⟨1, 1, 1, 1, 1⟩, 10⟩
    let cost := Dissimilarity.total c.weights t.current t.expected (seen 1) 1
    1 / 2 ≤ cost ∧ cost ≤ 8 ∧ ∀ solver, (0, 0) ∈ (run solver c #[t] #[seen 1] 1).1.matched ∧
      horizontalDistance t.expected (seen 1) ≤ 16 := by
  intro seen t c cost
  have hanchor : ∀ x, (seen x).anchor = ⟨x, 0, 0⟩ := by
    intro x
    show Pose.move Mat.identity ⟨x, 0, 0⟩ = _
    apply Vec3.ext <;> simp [Pose.move, Pose.turn, Pose.origin]
  have hexpected : MotionState.position t.expected = (seen 0).anchor :=
    MotionState.position_ofParts _ _
  have hdistance : horizontalDistance t.expected (seen 1) = 1 := by
    unfold horizontalDistance
    rw [hexpected, hanchor, hanchor]
    exact sqrt_eq zero_le_one (by norm_num [Vec2.dot, Vec3.horizontal])
  have hmeasured : ∀ x, (seen x).IsMeasured := fun x =>
    Observation.isMeasured_ofDetection _ _ (by norm_num) (by norm_num)
  have hcurrent : t.current.IsMeasured :=
    ⟨(hmeasured 0).length_nonneg, (hmeasured 0).width_nonneg, (hmeasured 0).shape_eq⟩
  have henabled : Weights.isEnabled (1 : ℝ) = true := by
    unfold Weights.isEnabled
    norm_num [Scalar.singleSpacing, Scalar.ratio]
  have hcounted := Weights.counted_of_isEnabled henabled
  have hw : c.weights.Bounds := ⟨zero_le_one, zero_le_one, zero_le_one, zero_le_one, zero_le_one⟩
  obtain ⟨hcost, hmatched⟩ := distance_bounds hw
  obtain ⟨hlow, hhigh⟩ := hcost t.current (seen 1) t.expected 1
  have hhigh : cost ≤ 8 := by
    refine (hhigh hcurrent (hmeasured 1)).trans_eq ?_
    rw [hdistance, hcounted]
    norm_num
  rw [hdistance, hcounted, mul_one] at hlow
  refine ⟨hlow, hhigh, ?_⟩
  intro solver
  have hmem : (0, 0) ∈ (run solver c #[t] #[seen 1] 1).1.matched := by
    refine mem_matched_one solver Array.size_map rfl ?_
    unfold CostMatrix.isGated CostMatrix.passes
    rw [entry_costs (t := t) (o := seen 1) rfl rfl]
    exact decide_eq_true hhigh
  refine ⟨hmem, ?_⟩
  obtain ⟨_, _, ht, ho, hle⟩ := hmatched solver #[t] #[seen 1] 1 henabled (0, 0) hmem
  cases ht
  cases ho
  refine hle.trans_eq ?_
  norm_num

end Example

end Matching

end ObstacleTracking
