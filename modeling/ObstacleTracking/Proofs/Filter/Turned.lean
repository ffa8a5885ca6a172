import ObstacleTracking.Proofs.Scalar.Field
import ObstacleTracking.Proofs.Filter.Covariance
import ObstacleTracking.Proofs.Filter.Mean
import ObstacleTracking.Proofs.Geometry.Yaw

/-!
# The filter and turns

A gain that does not mix the axes and treats the horizontal ones alike commutes with turns. Sound
covariances have such gains, so a turned estimate that is corrected by a turned observation becomes
the turned corrected estimate, with the same covariance.
-/

namespace ObstacleTracking

variable {K : Type} [Field K] [LinearOrder K] [ExactRoots K]

def MotionState.turned (r : Yaw K) (s : MotionState K) : MotionState K :=
  ofParts (r.turn s.position) (r.turn s.velocity)

def Estimate.turned (r : Yaw K) (e : Estimate K) : Estimate K := { e with mean := e.mean.turned r }

variable (r : Yaw K)

/-! ### Motion states -/

namespace MotionState

@[simp] theorem position_turned (s : MotionState K) : (s.turned r).position = r.turn s.position :=
  position_ofParts _ _

@[simp] theorem velocity_turned (s : MotionState K) : (s.turned r).velocity = r.turn s.velocity :=
  velocity_ofParts _ _

theorem turned_ofParts (p v : Vec3 K) : (ofParts p v).turned r = ofParts (r.turn p) (r.turn v) := by
  unfold turned
  rw [position_ofParts, velocity_ofParts]

theorem plus_turned (s t : MotionState K) :
    (s.turned r).plus (t.turned r) = (s.plus t).turned r := by
  apply ext_parts <;> simp

theorem minus_turned (s t : MotionState K) :
    (s.turned r).minus (t.turned r) = (s.minus t).turned r := by
  apply ext_parts <;> simp

end MotionState

namespace Estimate

@[simp] theorem position_turned (e : Estimate K) : (e.turned r).position = r.turn e.position :=
  MotionState.position_turned r e.mean

@[simp] theorem velocity_turned (e : Estimate K) : (e.turned r).velocity = r.turn e.velocity :=
  MotionState.velocity_turned r e.mean

end Estimate

theorem AlikeAxes.mul_turned {a : Matrix (Fin 6) (Fin 6) K} (h : AlikeAxes a) (s : MotionState K) :
    (Mat.ofField a : Mat 6 6 K) * s.turned r =
      MotionState.turned r ((Mat.ofField a : Mat 6 6 K) * s) := by
  obtain ⟨m, hm, rfl⟩ := h
  apply MotionState.ext_parts
  · rw [MotionState.position_turned, position_ofAxes_mul, position_ofAxes_mul]
    apply Vec3.ext <;> simp [Yaw.turn, hm] <;> ring
  · rw [MotionState.velocity_turned, velocity_ofAxes_mul, velocity_ofAxes_mul]
    apply Vec3.ext <;> simp [Yaw.turn, hm] <;> ring

/-! ### Prediction and correction -/

namespace Filter

theorem initiate_turned (c : FilterConfig K) (anchor : Vec3 K) :
    initiate c (r.turn anchor) = (initiate c anchor).turned r := by
  unfold initiate Estimate.turned
  dsimp only
  rw [MotionState.turned_ofParts, Yaw.turn_zero]

theorem predict_turned (c : FilterConfig K) (e : Estimate K) (dt : K) :
    predict c (e.turned r) dt = (predict c e dt).turned r := by
  unfold predict
  split
  · unfold Estimate.turned
    dsimp only
    rw [transition_mul, transition_mul, MotionState.turned_ofParts]
    simp
  · rfl

theorem limit_turned (c : FilterConfig K) (change : MotionState K) :
    limit c (change.turned r) = ((limit c change).1.turned r, (limit c change).2) := by
  unfold limit
  dsimp only
  rw [MotionState.velocity_turned, Yaw.norm_turn, MotionState.position_turned]
  split
  · rw [MotionState.turned_ofParts, Yaw.turn_mul]
  · rfl

theorem correct_turned {a b : Matrix (Fin 6) (Fin 6) K} (h : AlikeAxes (a * b))
    (c : FilterConfig K) {e : Estimate K} (he : e.covariance = Mat.ofField a)
    (innovation : Mat 6 6 K) (observed : MotionState K) :
    correct c (e.turned r) innovation (Mat.ofField b) (observed.turned r) =
      ⟨(correct c e innovation (Mat.ofField b) observed).estimate.turned r,
        (correct c e innovation (Mat.ofField b) observed).outcome⟩ := by
  have hchange : limit c ((Mat.ofField (a * b) : Mat 6 6 K) *
      MotionState.minus (observed.turned r) (e.mean.turned r)) =
      ((limit c ((Mat.ofField (a * b) : Mat 6 6 K) *
        MotionState.minus observed e.mean)).1.turned r,
      (limit c ((Mat.ofField (a * b) : Mat 6 6 K) * MotionState.minus observed e.mean)).2) := by
    rw [MotionState.minus_turned, h.mul_turned, limit_turned]
  unfold correct Estimate.turned
  dsimp only
  rw [he, Mat.ofField_mul, hchange, MotionState.plus_turned]

variable [IsStrictOrderedRing K] {c : FilterConfig K}

/-- The inverse of the innovation covariance treats the horizontal axes alike. -/
theorem exists_alike_inverse (hc : c.error? = none) {a : Matrix (Fin 6) (Fin 6) K}
    (hpositive : IsPositive a) (halike : AlikeAxes a) {score : K}
    (hscore : ¬ c.scoreMaximum < score) :
    ∃ b : Matrix (Fin 6) (Fin 6) K, AlikeAxes b ∧
      (innovationCovariance c (Mat.ofField a) (noiseScale c score)).inverse? =
        some (Mat.ofField b) := by
  obtain ⟨m, -, -, -, -, ⟨hm, -⟩, hmeq, -⟩ := exists_pos_of_error?_eq_none (K := K) hc
  obtain ⟨k, hk, hkeq⟩ := exists_pos_noiseScale hc hscore
  have hdet := (hpositive.add (IsPositive.smul_one (mul_pos hm hk))).det_ne_zero
  refine ⟨_, (halike.add (AlikeAxes.one.smul (m * k))).inv hdet, ?_⟩
  rw [hkeq, innovationCovariance_ofField hmeq, Mat.inverse?_ofField hdet]

theorem update_turned (hc : c.error? = none) {e : Estimate K} (he : IsSound e.covariance)
    (anchor : Vec3 K) (score dt : K) :
    update c (e.turned r) (r.turn anchor) score dt =
      ⟨(update c e anchor score dt).estimate.turned r, (update c e anchor score dt).outcome⟩ := by
  have hobserved : MotionState.ofParts (r.turn anchor)
      ((r.turn anchor - (e.turned r).position) / dt) =
      (MotionState.ofParts anchor ((anchor - e.position) / dt)).turned r := by
    rw [MotionState.turned_ofParts, Estimate.position_turned, Yaw.turn_div, Yaw.turn_sub]
  have hcovariance : ((predict c e dt).turned r).covariance = (predict c e dt).covariance := rfl
  obtain ⟨a, ha, hpositive, halike⟩ := isSound_predict hc he dt
  unfold update
  split
  · dsimp only
    rw [predict_turned, hobserved, hcovariance]
    split
    case isTrue => rfl
    case isFalse hscore =>
      obtain ⟨b, hb, hinverse⟩ := exists_alike_inverse hc hpositive halike hscore
      rw [ha, hinverse]
      exact correct_turned r (halike.mul hb) c ha _ _
  · rfl

end Filter

end ObstacleTracking
