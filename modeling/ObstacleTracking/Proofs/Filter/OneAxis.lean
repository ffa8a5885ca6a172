import ObstacleTracking.Proofs.Filter.OnLine
import ObstacleTracking.Proofs.Filter.Reachable
import ObstacleTracking.Proofs.Linear.Length

/-!
# The filter on each axis

The motion filter is three filters on a line, one for each axis: its predictions and its
corrections, taken on an axis, are those of the filter on a line with the covariance block and the
noise of that axis. Only the limit on the change of velocity joins the axes, as it shortens the
three changes by one factor.
-/

namespace ObstacleTracking

open Matrix

/-! ### Axes of an estimate -/

section OnAxis

variable {K : Type}

/-- The velocity on an axis stands three places after the position. -/
def MotionState.onAxis (s : MotionState K) (k : Fin 3) : Fin 2 → K :=
  ![s[k.castAdd 3], s[k.addNat 3]]

def Mat.onAxis (p : Mat 6 6 K) (k : Fin 3) : Matrix (Fin 2) (Fin 2) K :=
  !![p (k.castAdd 3) (k.castAdd 3), p (k.castAdd 3) (k.addNat 3);
    p (k.addNat 3) (k.castAdd 3), p (k.addNat 3) (k.addNat 3)]

def Estimate.onAxis (e : Estimate K) (k : Fin 3) : AxisEstimate K :=
  { mean := MotionState.onAxis e.mean k
    covariance := e.covariance.onAxis k }

/-- The intensity of the random accelerations along an axis. -/
def FilterConfig.noiseOnAxis (c : FilterConfig K) : Fin 3 → K :=
  ![c.horizontalNoise, c.horizontalNoise, c.verticalNoise]

theorem MotionState.onAxis_apply (s : MotionState K) (k : Fin 3) (i : Fin 2) :
    onAxis s k i = s[place (i, k)] := by
  fin_cases i <;> rfl

theorem Mat.onAxis_apply (p : Mat 6 6 K) (k : Fin 3) (i j : Fin 2) :
    p.onAxis k i j = p (place (i, k)) (place (j, k)) := by
  fin_cases i <;> fin_cases j <;> rfl

theorem MotionState.onAxis_ofParts (p v : Vec3 K) (k : Fin 3) :
    onAxis (ofParts p v) k = ![p.onAxis k, v.onAxis k] := by
  fin_cases k <;> rfl

theorem MotionState.onAxis_eq (s : MotionState K) (k : Fin 3) :
    onAxis s k = ![s.position.onAxis k, s.velocity.onAxis k] := by
  fin_cases k <;> rfl

theorem Estimate.position_onAxis (e : Estimate K) (k : Fin 3) :
    e.position.onAxis k = (e.onAxis k).mean 0 :=
  (congrFun (MotionState.onAxis_eq e.mean k) 0).symm

theorem Estimate.velocity_onAxis (e : Estimate K) (k : Fin 3) :
    e.velocity.onAxis k = (e.onAxis k).mean 1 :=
  (congrFun (MotionState.onAxis_eq e.mean k) 1).symm

end OnAxis

variable {K : Type} [Field K] [LinearOrder K] [ExactRoots K]

namespace MotionState

theorem onAxis_plus (s t : MotionState K) (k : Fin 3) :
    onAxis (s.plus t) k = onAxis s k + onAxis t k := by
  ext i
  rw [Pi.add_apply, onAxis_apply, onAxis_apply, onAxis_apply, plus]
  exact Vector.getElem_zipWith _

theorem onAxis_minus (s t : MotionState K) (k : Fin 3) :
    onAxis (s.minus t) k = onAxis s k - onAxis t k := by
  ext i
  rw [Pi.sub_apply, onAxis_apply, onAxis_apply, onAxis_apply, minus]
  exact Vector.getElem_zipWith _

theorem onAxis_mul (m : Fin 3 → Matrix (Fin 2) (Fin 2) K) (s : MotionState K) (k : Fin 3) :
    onAxis ((Mat.ofField (ofAxes m) : Mat 6 6 K) * s) k = m k *ᵥ onAxis s k := by
  ext i
  rw [onAxis_apply, get_ofAxes_mul, mulVec, dotProduct, Fin.sum_univ_two, onAxis_apply,
    onAxis_apply]

end MotionState

theorem Mat.onAxis_ofField (m : Fin 3 → Matrix (Fin 2) (Fin 2) K) (k : Fin 3) :
    (Mat.ofField (ofAxes m) : Mat 6 6 K).onAxis k = m k := by
  ext i j
  rw [onAxis_apply, get_ofField, ofAxes_place, if_pos rfl, ExactRoots.ofField_self]

/-- A sound covariance consists of its blocks on the axes. -/
theorem IsSound.eq_onAxis {p : Mat 6 6 K} (h : IsSound p) :
    p = Mat.ofField (ofAxes p.onAxis) := by
  obtain ⟨a, rfl, -, m, -, rfl⟩ := h
  exact congrArg (fun n => Mat.ofField (ofAxes n)) (funext fun k => (Mat.onAxis_ofField m k).symm)

theorem IsSound.isPositive_onAxis {p : Mat 6 6 K} (h : IsSound p) (k : Fin 3) :
    IsPositive (p.onAxis k) := by
  obtain ⟨a, rfl, hpositive, m, -, rfl⟩ := h
  rw [Mat.onAxis_ofField]
  exact isPositive_axis hpositive k

namespace Filter

variable {c : FilterConfig K} {e : Estimate K} {anchor : Vec3 K} {score dt : K}

/-! ### Prediction -/

theorem onAxis_predict [IsStrictOrderedRing K] (c : FilterConfig K) (he : IsSound e.covariance)
    (dt : K) (k : Fin 3) :
    (predict c e dt).onAxis k = (e.onAxis k).predict (c.noiseOnAxis k) dt := by
  have htransition : transition dt =
      (Mat.ofField (ofAxes fun _ => axisTransition dt) : Mat 6 6 K) := transition_ofField dt
  have hnoise : processNoise c dt =
      (Mat.ofField (ofAxes fun k => axisNoise dt (c.noiseOnAxis k)) : Mat 6 6 K) := by
    refine Eq.trans
      (processNoise_ofField (h := c.horizontalNoise) (v := c.verticalNoise) rfl rfl dt) ?_
    refine congrArg (fun n => Mat.ofField (ofAxes n)) (funext fun k => ?_)
    fin_cases k <;> rfl
  unfold predict AxisEstimate.predict
  split
  · apply AxisEstimate.ext
    · show MotionState.onAxis (transition dt * e.mean) k = _
      rw [htransition, MotionState.onAxis_mul]
      rfl
    · show (transition dt * e.covariance * (transition dt).transpose +
        processNoise c dt).onAxis k = _
      rw [htransition, hnoise, he.eq_onAxis, Mat.ofField_transpose, Mat.ofField_mul,
        Mat.ofField_mul, Mat.ofField_add, ofAxes_transpose, ofAxes_mul, ofAxes_mul, ofAxes_add,
        Mat.onAxis_ofField]
      show _ = axisTransition dt * (e.covariance.onAxis k) * (axisTransition dt)ᵀ + _
      rfl
  · rfl

theorem onAxis_initiate (c : FilterConfig K) (anchor : Vec3 K) (k : Fin 3) :
    (initiate c anchor).onAxis k =
      ⟨![anchor.onAxis k, 0], !![c.measurementNoise, 0; 0, c.initialVelocityNoise]⟩ := by
  have hinitial : (initiate c anchor).covariance = Mat.ofField (ofAxes fun _ =>
      axisInitial c.measurementNoise c.initialVelocityNoise) :=
    initial_ofField c.measurementNoise c.initialVelocityNoise
  apply AxisEstimate.ext
  · show MotionState.onAxis (MotionState.ofParts anchor 0) k = _
    rw [MotionState.onAxis_ofParts]
    fin_cases k <;> rfl
  · show (initiate c anchor).covariance.onAxis k = _
    rw [hinitial, Mat.onAxis_ofField]
    rfl

/-- An obstacle that was seen once and has been missed for a while. -/
theorem onAxis_predict_initiate [IsStrictOrderedRing K] (hc : c.error? = none) (anchor : Vec3 K)
    {d : K} (hd : isStep d = true) (k : Fin 3) :
    (predict c (initiate c anchor) d).onAxis k =
      ⟨![anchor.onAxis k, 0],
        !![c.measurementNoise + c.initialVelocityNoise * (d * d) +
            c.noiseOnAxis k * (d * d * d) / 3,
          c.initialVelocityNoise * d + c.noiseOnAxis k * (d * d) / 2;
          c.initialVelocityNoise * d + c.noiseOnAxis k * (d * d) / 2,
          c.initialVelocityNoise + c.noiseOnAxis k * d]⟩ := by
  rw [onAxis_predict c (isSound_initiate hc anchor), onAxis_initiate]
  apply AxisEstimate.ext
  · rw [AxisEstimate.mean_predict hd]
    simp
  · rw [AxisEstimate.covariance_predict rfl hd]
    simp

/-! ### Correction -/

/-- An update that corrects has a step that counts and a score that is not too high. -/
theorem not_rejected_of_applied
    (h : (update c e anchor score dt).outcome = .corrected ∨
      (update c e anchor score dt).outcome = .breakdown) :
    isStep dt = true ∧ ¬ c.scoreMaximum < score := by
  unfold update at h
  by_cases hstep : isStep dt = true
  · rw [if_pos hstep] at h
    dsimp only at h
    by_cases hscore : c.scoreMaximum < score
    · rw [if_pos hscore] at h
      rcases h with h | h <;> cases h
    · exact ⟨hstep, hscore⟩
  · rw [if_neg hstep] at h
    rcases h with h | h <;> cases h

/-- What is measured on an axis: the observed point, and the velocity that leads there from the
confirmed position. -/
def measuredOnAxis (e : Estimate K) (anchor : Vec3 K) (dt : K) (k : Fin 3) : Fin 2 → K :=
  ![anchor.onAxis k, (anchor.onAxis k - e.position.onAxis k) / dt]

theorem onAxis_observed (e : Estimate K) (anchor : Vec3 K) (dt : K) (k : Fin 3) :
    MotionState.onAxis (MotionState.ofParts anchor ((anchor - e.position) / dt)) k =
      measuredOnAxis e anchor dt k := by
  rw [MotionState.onAxis_ofParts]
  fin_cases k <;> rfl

/-- The correction of the filter on a line, for what is predicted and measured on an axis. -/
noncomputable def correctedOnAxis (c : FilterConfig K) (e : Estimate K) (anchor : Vec3 K)
    (score dt : K) (k : Fin 3) : AxisEstimate K :=
  ((e.onAxis k).predict (c.noiseOnAxis k) dt).correct (c.measurementNoise * noiseScale c score)
    (measuredOnAxis e anchor dt k)

variable [IsStrictOrderedRing K]

theorem pos_of_isStep (h : isStep dt = true) : 0 < dt :=
  doubleSpacing_pos.trans (of_decide_eq_true (Bool.and_eq_true_iff.mp h).2)

/-- An observation corrects both entries of an axis in proportion to its distance from the predicted
position. -/
theorem mean_correctedOnAxis (anchor : Vec3 K) (score : K) (hdt : isStep dt = true) {k : Fin 3}
    {p q s : K}
    (h : ((e.onAxis k).predict (c.noiseOnAxis k) dt).covariance = !![p, q; q, s]) :
    let r := c.measurementNoise * noiseScale c score
    let predicted := ((e.onAxis k).predict (c.noiseOnAxis k) dt).mean
    let distance := anchor.onAxis k - predicted 0
    (correctedOnAxis c e anchor score dt k).mean = predicted +
      ![AxisEstimate.positionGain p q s r dt * distance,
        AxisEstimate.velocityGain p q s r dt * distance] := by
  intro r predicted distance
  refine AxisEstimate.mean_correct h ?_
  have hne : dt ≠ 0 := (pos_of_isStep hdt).ne'
  have hpredicted : predicted = ![e.position.onAxis k + e.velocity.onAxis k * dt,
      e.velocity.onAxis k] := by
    have hmean : (e.onAxis k).mean = ![e.position.onAxis k, e.velocity.onAxis k] :=
      MotionState.onAxis_eq e.mean k
    show ((e.onAxis k).predict (c.noiseOnAxis k) dt).mean = _
    rw [AxisEstimate.mean_predict hdt, hmean]
    rfl
  have hdistance : distance =
      anchor.onAxis k - (e.position.onAxis k + e.velocity.onAxis k * dt) := by
    show anchor.onAxis k - predicted 0 = _
    rw [hpredicted]
    rfl
  -- the velocity measured is off by what it takes to go the distance in the time step
  have hvelocity : (anchor.onAxis k - e.position.onAxis k) / dt - e.velocity.onAxis k =
      distance / dt := by
    rw [hdistance]
    field_simp
    ring
  show measuredOnAxis e anchor dt k - predicted = _
  rw [← hvelocity, hdistance, hpredicted]
  ext i
  fin_cases i <;> rfl

omit [IsStrictOrderedRing K] in
theorem measurementNoise_pos (hc : c.error? = none) : 0 < c.measurementNoise := by
  obtain ⟨r, -, -, -, -, ⟨hr, -⟩, hreq, -⟩ := exists_pos_of_error?_eq_none (K := K) hc
  rw [hreq]
  exact hr

theorem noiseScale_pos (hc : c.error? = none) (hscore : ¬ c.scoreMaximum < score) :
    0 < noiseScale c score := by
  obtain ⟨k, hk, hkeq⟩ := exists_pos_noiseScale (K := K) hc hscore
  rw [hkeq]
  exact hk

/-- A correction with the true inverse: on each axis the change of state is that of the filter on a
line, and so is the covariance that is left. -/
theorem exists_change_correct (c : FilterConfig K) {predicted : Estimate K}
    (h : IsSound predicted.covariance) {r : K} (hr : 0 < r) (observed : MotionState K) :
    let a := ofAxes predicted.covariance.onAxis
    ∃ change : MotionState K,
      (∀ k, MotionState.onAxis predicted.mean k + MotionState.onAxis change k =
        ((predicted.onAxis k).correct r (MotionState.onAxis observed k)).mean) ∧
      correct c predicted (Mat.ofField (a + r • 1)) (Mat.ofField (a + r • 1)⁻¹) observed =
        ⟨⟨MotionState.plus predicted.mean (limit c change).1, Mat.ofField (ofAxes fun k =>
          ((predicted.onAxis k).correct r (MotionState.onAxis observed k)).covariance)⟩,
          (limit c change).2⟩ := by
  intro a
  have hcovariance : predicted.covariance = Mat.ofField a := h.eq_onAxis
  have hpositive : IsPositive a := isPositive_ofAxes h.isPositive_onAxis
  have hdet := (hpositive.add (IsPositive.smul_one hr)).det_ne_zero
  have hgain : a * (a + r • 1)⁻¹ = ofAxes fun k => (predicted.onAxis k).gain r := by
    rw [ofAxes_one, ofAxes_smul, ofAxes_add] at hdet ⊢
    rw [ofAxes_inv hdet, ofAxes_mul]
    rfl
  have hleft : a - a * (a + r • 1)⁻¹ * a = ofAxes fun k =>
      ((predicted.onAxis k).correct r (MotionState.onAxis observed k)).covariance := by
    have hone : a - a * (a + r • 1)⁻¹ * a = (1 - a * (a + r • 1)⁻¹) * a := by
      rw [Matrix.sub_mul, Matrix.one_mul]
    rw [hone, hgain, ofAxes_one, ofAxes_sub, ofAxes_mul]
    rfl
  refine ⟨(Mat.ofField (a * (a + r • 1)⁻¹) : Mat 6 6 K) *
    MotionState.minus observed predicted.mean, ?_, ?_⟩
  · intro k
    rw [hgain, MotionState.onAxis_mul, MotionState.onAxis_minus]
    rfl
  · unfold correct
    dsimp only
    rw [hcovariance, Mat.ofField_mul, Mat.ofField_transpose, Mat.ofField_mul, Mat.ofField_mul,
      Mat.ofField_sub, symmetrize_ofField (α := K) (hpositive.correct hr).symmetric,
      hpositive.gain_congruence hr, hleft]

/-- An update that is applied corrects the prediction on each axis by what is measured there. -/
theorem exists_change_update (hc : c.error? = none) (he : IsSound e.covariance)
    (hstep : isStep dt = true) (hscore : ¬ c.scoreMaximum < score) (anchor : Vec3 K) :
    ∃ change : MotionState K,
      (∀ k, MotionState.onAxis (predict c e dt).mean k + MotionState.onAxis change k =
        (correctedOnAxis c e anchor score dt k).mean) ∧
      update c e anchor score dt =
        ⟨⟨MotionState.plus (predict c e dt).mean (limit c change).1,
          Mat.ofField (ofAxes fun k => (correctedOnAxis c e anchor score dt k).covariance)⟩,
          (limit c change).2⟩ := by
  have hsound := isSound_predict hc he dt
  have hr := mul_pos (measurementNoise_pos hc) (noiseScale_pos hc hscore)
  have hpositive : IsPositive (ofAxes (predict c e dt).covariance.onAxis) :=
    isPositive_ofAxes hsound.isPositive_onAxis
  have hdet := (hpositive.add (IsPositive.smul_one hr)).det_ne_zero
  have hinnovation : innovationCovariance c (predict c e dt).covariance (noiseScale c score) =
      Mat.ofField (ofAxes (predict c e dt).covariance.onAxis +
        (c.measurementNoise * noiseScale c score) • 1) := by
    conv_lhs => rw [hsound.eq_onAxis]
    exact innovationCovariance_ofField rfl _
  obtain ⟨change, hmean, hcorrect⟩ := exists_change_correct c hsound hr
    (MotionState.ofParts anchor ((anchor - e.position) / dt))
  refine ⟨change, ?_, ?_⟩
  · intro k
    rw [hmean, onAxis_observed, onAxis_predict c he]
    rfl
  · unfold update
    rw [if_pos hstep]
    dsimp only
    rw [if_neg hscore, hinnovation, Mat.inverse?_ofField hdet]
    dsimp only
    rw [hcorrect]
    simp only [onAxis_observed, onAxis_predict c he]
    rfl

theorem covariance_onAxis_update (hc : c.error? = none) (he : IsSound e.covariance)
    (hstep : isStep dt = true) (hscore : ¬ c.scoreMaximum < score) (anchor : Vec3 K) (k : Fin 3) :
    (update c e anchor score dt).estimate.covariance.onAxis k =
      (correctedOnAxis c e anchor score dt k).covariance := by
  obtain ⟨change, -, hupdate⟩ := exists_change_update hc he hstep hscore anchor
  rw [hupdate]
  exact Mat.onAxis_ofField _ k

/-! ### The limit on the change of velocity -/

omit [IsStrictOrderedRing K] in
theorem limit_of_corrected {change : MotionState K} (h : (limit c change).2 = .corrected) :
    (limit c change).1 = change := by
  unfold limit at h ⊢
  dsimp only at h ⊢
  split at h
  · cases h
  · rename_i hle
    rw [if_neg hle]

omit [IsStrictOrderedRing K] in
theorem limit_of_breakdown {change : MotionState K} (h : (limit c change).2 = .breakdown) :
    c.velocityCorrectionMaximum < change.velocity.norm ∧
      (limit c change).1 = MotionState.ofParts change.position
        (change.velocity * (c.velocityCorrectionMaximum / change.velocity.norm)) := by
  unfold limit at h ⊢
  dsimp only at h ⊢
  split at h
  · rename_i hlt
    rw [if_pos hlt]
    exact ⟨hlt, rfl⟩
  · cases h

end Filter

end ObstacleTracking
