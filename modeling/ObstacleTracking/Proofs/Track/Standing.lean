import ObstacleTracking.Proofs.Scalar.Field
import ObstacleTracking.Proofs.Config.Settings
import ObstacleTracking.Proofs.Filter.Mean
import ObstacleTracking.Proofs.Geometry.Heading
import ObstacleTracking.Track.Basic

/-!
# Tracks that stand still

A track stands for an observation if it is expected at the anchor without a velocity and was last
seen just so. The innovation of the same observation is then zero whatever the time step, the
score and the covariance are, so the track stands for it again.
-/

namespace ObstacleTracking

open ExactRoots

variable {K : Type} [Field K] [LinearOrder K] [ExactRoots K]

/-! ### The filter -/

namespace Filter

variable {c : FilterConfig K} {e : Estimate K} {p : Vec3 K}

theorem mean_predict_standing (he : e.mean = MotionState.ofParts p 0) (dt : K) :
    (predict c e dt).mean = MotionState.ofParts p 0 := by
  unfold predict
  split
  · dsimp only
    rw [he, transition_mul]
    apply MotionState.ext_parts
    · apply Vec3.ext <;> simp
    · rfl
  · exact he

theorem mul_zero_mean (a : Mat 6 6 K) :
    a * (MotionState.ofParts 0 0 : MotionState K) = MotionState.ofParts 0 0 := by
  have hzero : ∀ l : Fin 6, (MotionState.ofParts 0 0 : MotionState K)[l] = 0 := by
    intro l
    fin_cases l <;> rfl
  apply Vector.ext
  intro i hi
  have hentry := Mat.get_mulVec a (MotionState.ofParts 0 0) ⟨i, hi⟩
  rw [sum_eq, Finset.sum_eq_zero fun l _ => by rw [hzero, mul_zero]] at hentry
  exact hentry.trans (hzero ⟨i, hi⟩).symm

theorem limit_zero (hc : 0 < c.velocityCorrectionMaximum) :
    limit c (MotionState.ofParts 0 0) = (MotionState.ofParts 0 0, .corrected) := by
  unfold limit
  dsimp only
  rw [MotionState.velocity_ofParts, Vec3.norm_zero, if_neg (not_lt.mpr hc.le)]

theorem mean_correct_standing (hc : 0 < c.velocityCorrectionMaximum)
    (he : e.mean = MotionState.ofParts p 0) (innovation inverse : Mat 6 6 K) :
    (correct c e innovation inverse (MotionState.ofParts p 0)).estimate.mean =
      MotionState.ofParts p 0 := by
  have hminus : MotionState.minus (MotionState.ofParts p 0) e.mean =
      (MotionState.ofParts 0 0 : MotionState K) := by
    rw [he]
    apply MotionState.ext_parts
    · rw [MotionState.position_minus]
      apply Vec3.ext <;> simp
    · rw [MotionState.velocity_minus]
      apply Vec3.ext <;> simp
  unfold correct
  dsimp only
  rw [hminus, mul_zero_mean, limit_zero hc, he]
  apply MotionState.ext_parts
  · rw [MotionState.position_plus]
    apply Vec3.ext <;> simp
  · rw [MotionState.velocity_plus]
    apply Vec3.ext <;> simp

/-- A point that stands still where it is observed stays there. -/
theorem mean_update_standing (hc : 0 < c.velocityCorrectionMaximum)
    (he : e.mean = MotionState.ofParts p 0) (score dt : K) :
    (update c e p score dt).estimate.mean = MotionState.ofParts p 0 := by
  have hpredicted := mean_predict_standing (c := c) he dt
  have hobserved : (p - e.position) / dt = 0 := by
    unfold Estimate.position
    rw [he, MotionState.position_ofParts]
    apply Vec3.ext <;> simp
  unfold update
  split
  · dsimp only
    split
    · exact hpredicted
    · rw [hobserved]
      split
      · exact hpredicted
      · exact mean_correct_standing hc hpredicted _ _
  · exact he

end Filter

/-! ### The track -/

namespace Track

/-- The track stands still where an observation has its anchor, and was last seen like it. -/
structure Stands (o : Observation K) (t : Track K) : Prop where
  mean_eq : t.estimate.mean = MotionState.ofParts o.anchor 0
  anchor_eq : t.current.anchor = o.anchor
  detection_eq : t.current.detection = o.detection
  shape_eq : t.current.shape = o.shape
  velocity_eq : t.current.velocity = 0

variable {f : FilterConfig K} {c : LifecycleConfig K} {o : Observation K} {t : Track K}

theorem stands_start (capacity id : ℕ) (o : Observation K) (lane : Vec3 K) :
    Stands o (start f capacity id { o with lane }) :=
  ⟨rfl, rfl, rfl, rfl, rfl⟩

theorem mean_settleVelocity_standing {e : Estimate K} {p : Vec3 K}
    (he : e.mean = MotionState.ofParts p 0) (previous : Vec3 K) (dt : K) :
    (settleVelocity c previous dt e).mean = MotionState.ofParts p 0 := by
  unfold settleVelocity
  dsimp only
  split
  · unfold Estimate.position
    rw [he, MotionState.position_ofParts]
  · exact he

theorem orient_standing (hc : 0 ≤ c.speedNoiseMaximum) {d : Detection K}
    (hd : directionTolerance < d.direction.horizontal.norm) (lane : Vec3 K) :
    orient c 0 lane d = d := by
  obtain ⟨u, hu⟩ := Vec3.exists_unitHorizontal? hd
  unfold orient
  rw [Vec3.norm_zero, if_neg (not_lt.mpr hc), hu]

theorem Stands.hit (hf : 0 < f.velocityCorrectionMaximum) (hc : 0 ≤ c.speedNoiseMaximum)
    (h : Stands o t) (ho : directionTolerance < o.detection.direction.horizontal.norm)
    (lane : Vec3 K) (score dt : K) : Stands o (t.hit f c { o with lane } score dt).1 := by
  have hmean := mean_settleVelocity_standing (c := c)
    (Filter.mean_update_standing hf h.mean_eq score dt) t.estimate.velocity dt
  have hposition := congrArg MotionState.position hmean
  have hvelocity := congrArg MotionState.velocity hmean
  rw [MotionState.position_ofParts] at hposition
  rw [MotionState.velocity_ofParts] at hvelocity
  constructor
  · exact hmean
  · exact hposition
  · refine Eq.trans ?_ (orient_standing hc ho lane)
    exact congrArg (fun v => orient c v lane o.detection) hvelocity
  · rfl
  · exact hvelocity

end Track

end ObstacleTracking
