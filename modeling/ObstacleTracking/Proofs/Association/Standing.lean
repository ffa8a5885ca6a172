import ObstacleTracking.Proofs.Association.Signs
import ObstacleTracking.Proofs.Config.Settings
import ObstacleTracking.Proofs.Geometry.Heading

/-!
# The cost of standing still

Against a track that stands still the term of the direction has the same value for every
observation, and the other terms, none of them negative, are zero for an observation that repeats
the last one. So no observation costs less than the repeated one.
-/

namespace ObstacleTracking.Dissimilarity

open ExactRoots ExactScalar

variable {K : Type} [Field K] [LinearOrder K] [ExactRoots K]
  {w : Weights K} {last o : Observation K} {expected : MotionState K}

/-! ### What repeats costs nothing -/

theorem relativeChange_self (a : K) : relativeChange a a = 0 := by
  unfold relativeChange Scalar.abs
  simp

theorem boxChange_self {u : Vec2 K} (hu : 0 < u.dot u) (size : Vec3 K) :
    boxChange u u size size = 0 := by
  have hcross : u.cross u = 0 := by
    unfold Vec2.cross
    ring
  have hlt : Scalar.abs (u.cross u) < Scalar.abs (u.dot u) := by
    rw [hcross]
    unfold Scalar.abs
    rw [if_neg (lt_irrefl 0), if_neg (not_lt.mpr hu.le)]
    exact hu
  unfold boxChange
  rw [if_pos hlt, relativeChange_self, relativeChange_self, minNum_eq, min_self]

theorem boxChange_zero (u v : Vec2 K) : boxChange u v 0 0 = 0 := by
  have hmin : Scalar.minNum (relativeChange (0 : K) 0) (relativeChange 0 0) = 0 := by
    rw [relativeChange_self, minNum_eq, min_self]
  unfold boxChange
  exact (ite_self _).trans hmin

theorem histogramDistance_self (l : List K) : histogramDistance l l = 0 := by
  have hzero : List.zipWith (fun a b => Scalar.abs (a - b)) l l = List.replicate l.length 0 := by
    refine List.ext_getElem (by simp) ?_
    intro i hi hi'
    rw [List.getElem_zipWith, List.getElem_replicate, sub_self]
    unfold Scalar.abs
    rw [if_neg (lt_irrefl 0)]
  have hsum : ∀ n : ℕ, (List.replicate n (0 : K)).foldl (· + ·) 0 = 0 := by
    intro n
    induction n with
    | zero => rfl
    | succ n ih => rw [List.replicate_succ, List.foldl_cons, add_zero, ih]
  unfold histogramDistance
  rw [hzero, hsum, zero_div]

theorem shape_self (h : last.shape = o.shape) : shape last o = 0 := by
  unfold shape
  rw [h]
  cases o.shape with
  | none => rfl
  | some l =>
    dsimp only
    rw [if_pos rfl, histogramDistance_self]

theorem addTerm_zero (sum weight : K) : addTerm sum weight 0 = sum := by
  unfold addTerm
  rw [mul_zero, add_zero, ite_self]

variable [IsStrictOrderedRing K]

theorem location_slow (hvelocity : last.velocity = 0) :
    location last expected o = (o.anchor - MotionState.position expected).horizontal.norm := by
  have hslow : ¬ (fastSpeed : K) < 0 := not_lt.mpr (Nat.cast_nonneg 2)
  unfold location deviation
  dsimp only
  rw [hvelocity, Vec3.norm_horizontal_zero, if_neg hslow]

omit [IsStrictOrderedRing K] in
theorem norm_horizontal_sub_self (v : Vec3 K) : (v - v).horizontal.norm = 0 := by
  unfold Vec2.norm Vec2.dot Vec3.horizontal
  simp

/-! ### The direction of a track that stands still -/

/-- Against a track that stands still no observation has a direction. -/
theorem direction_standing (h : MotionState.velocity expected = 0) (dt : K) :
    direction last expected o dt = 6 / 1000 := by
  have hmotion : (MotionState.velocity expected * dt).horizontal.norm = 0 := by
    rw [h]
    unfold Vec2.norm Vec2.dot Vec3.horizontal
    simp
  have hnone : (MotionState.velocity expected * dt).unitHorizontal? = none := by
    unfold Vec3.unitHorizontal?
    dsimp only
    rw [hmotion, if_neg (not_lt.mpr directionTolerance_pos.le)]
  unfold direction undirectedCosine Scalar.ratio
  dsimp only
  rw [hnone, Option.isNone_none, Bool.or_true, if_pos rfl]
  norm_num

/-! ### The weighted sum -/

theorem addTerm_le {sum sum' weight term term' : K} (hw : 0 ≤ weight) (hsum : sum ≤ sum')
    (hterm : term ≤ term') : addTerm sum weight term ≤ addTerm sum' weight term' := by
  unfold addTerm
  split
  · exact add_le_add hsum (mul_le_mul_of_nonneg_left hterm hw)
  · exact hsum

theorem le_addTerm {sum weight term : K} (hw : 0 ≤ weight) (hterm : 0 ≤ term) :
    sum ≤ addTerm sum weight term := by
  have hle := addTerm_le hw (le_refl sum) hterm
  rw [addTerm_zero] at hle
  exact hle

/-- An observation costs at least what its location costs. -/
theorem location_le_total (hw : w.Bounds) (last : Observation K) (expected : MotionState K)
    (o : Observation K) (dt : K) :
    addTerm 0 w.location (location last expected o) ≤ total w last expected o dt := by
  have hdirection : 0 ≤ direction last expected o dt := not_lt.mp (not_direction_lt K _ _ _ _)
  have hbox : 0 ≤ boxSize last o := not_lt.mp (not_boxChange_lt K _ _ _ _)
  have hcount : 0 ≤ pointCount last o := not_lt.mp (not_relativeChange_lt K _ _)
  have hshape : 0 ≤ shape last o := not_lt.mp (not_shape_lt K last o)
  exact (((le_addTerm hw.direction hdirection).trans (le_addTerm hw.boxSize hbox)).trans
    (le_addTerm hw.pointCount hcount)).trans (le_addTerm hw.histogram hshape)

/-- What an observation costs that only lacks a direction. -/
def standing (w : Weights K) : K := addTerm 0 w.direction (6 / 1000)

theorem standing_nonneg (hw : w.Bounds) : 0 ≤ standing w := by
  exact le_addTerm hw.direction (by norm_num)

theorem standing_le (hw : w.Bounds) : standing w ≤ 6 / 1000 * w.direction := by
  have hnonneg := hw.direction
  unfold standing addTerm
  split
  · linarith
  · linarith

theorem standing_le_total (hw : w.Bounds) (h : MotionState.velocity expected = 0) (dt : K) :
    standing w ≤ total w last expected o dt := by
  have hlocation : 0 ≤ addTerm 0 w.location (location last expected o) :=
    le_addTerm hw.location (not_lt.mp (not_deviation_lt
      last.velocity.horizontal (o.anchor - MotionState.position expected).horizontal))
  unfold total standing
  dsimp only
  rw [direction_standing h]
  calc addTerm 0 w.direction (6 / 1000)
      ≤ addTerm (addTerm 0 w.location (location last expected o)) w.direction (6 / 1000) :=
        addTerm_le hw.direction hlocation le_rfl
    _ = addTerm (addTerm (addTerm (addTerm (addTerm 0 w.location (location last expected o))
          w.direction (6 / 1000)) w.boxSize 0) w.pointCount 0) w.histogram 0 := by
        rw [addTerm_zero, addTerm_zero, addTerm_zero]
    _ ≤ _ := addTerm_le hw.histogram (addTerm_le hw.pointCount
        (addTerm_le hw.boxSize le_rfl (not_lt.mp (not_boxChange_lt K _ _ _ _)))
        (not_lt.mp (not_relativeChange_lt K _ _))) (not_lt.mp (not_shape_lt K last o))

/-- To a track that stands still an observation with the same box, number of points and shape costs
what its distance costs, and that it lacks a direction. -/
theorem total_alike (hvelocity : last.velocity = 0) (hstill : MotionState.velocity expected = 0)
    (hbox : boxSize last o = 0) (hcount : pointCount last o = 0) (hshape : last.shape = o.shape)
    (dt : K) :
    total w last expected o dt =
      addTerm (addTerm 0 w.location (o.anchor - MotionState.position expected).horizontal.norm)
        w.direction (6 / 1000) := by
  unfold total
  dsimp only
  rw [location_slow hvelocity, direction_standing hstill, hbox, hcount, shape_self hshape,
    addTerm_zero, addTerm_zero, addTerm_zero]

/-- A repeated observation costs no more than that it lacks a direction. -/
theorem total_standing (hmean : expected = MotionState.ofParts o.anchor 0)
    (hvelocity : last.velocity = 0) (hdetection : last.detection = o.detection)
    (hshape : last.shape = o.shape)
    (hdirection : directionTolerance < o.detection.direction.horizontal.norm) (dt : K) :
    total w last expected o dt = standing w := by
  have hposition : MotionState.position expected = o.anchor := by
    rw [hmean, MotionState.position_ofParts]
  have hstill : MotionState.velocity expected = 0 := by
    rw [hmean, MotionState.velocity_ofParts]
  have hdot : 0 < o.detection.direction.horizontal.dot o.detection.direction.horizontal := by
    have hpos := directionTolerance_pos.trans hdirection
    rw [← sqrt_mul_self o.detection.direction.horizontal.dot_self_nonneg]
    exact mul_pos hpos hpos
  have hbox : boxSize last o = 0 := by
    unfold boxSize
    rw [hdetection]
    exact boxChange_self hdot _
  have hcount : pointCount last o = 0 := by
    unfold pointCount Observation.pointCount
    rw [hdetection]
    exact relativeChange_self _
  rw [total_alike hvelocity hstill hbox hcount hshape, hposition, norm_horizontal_sub_self,
    addTerm_zero]
  rfl

end ObstacleTracking.Dissimilarity
