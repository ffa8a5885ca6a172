import ObstacleTracking.Proofs.Filter.Steps

/-!
# A filter on a line

A filter for a point on a line has two states, a position and a velocity, and measures both. Its
gain is given entry by entry. When the measured velocity is the one that leads to the measured
point, both entries of the state are corrected in proportion to how far that point is from the
predicted one.
-/

namespace ObstacleTracking

open Matrix

/-- What is believed of a point on a line: the mean of its position and its velocity, and their
covariance. -/
@[ext]
structure AxisEstimate (K : Type) where
  mean : Fin 2 → K
  covariance : Matrix (Fin 2) (Fin 2) K

namespace AxisEstimate

variable {K : Type} [Field K]

/-! ### Correction -/

/-- The gain of a measurement of position and velocity with a noise of variance `r` on both. -/
noncomputable def gain (r : K) (e : AxisEstimate K) : Matrix (Fin 2) (Fin 2) K :=
  e.covariance * (e.covariance + r • 1)⁻¹

noncomputable def correct (r : K) (measured : Fin 2 → K) (e : AxisEstimate K) : AxisEstimate K :=
  { mean := e.mean + e.gain r *ᵥ (measured - e.mean)
    covariance := (1 - e.gain r) * e.covariance }

/-- The determinant of the innovation covariance. -/
def innovationDet (p q s r : K) : K := (p + r) * (s + r) - q * q

variable {e : AxisEstimate K} {p q s r : K}

theorem innovation_eq (h : e.covariance = !![p, q; q, s]) :
    e.covariance + r • 1 = !![p + r, q; q, s + r] := by
  rw [h]
  ext i j
  fin_cases i <;> fin_cases j <;> simp

theorem gain_eq (h : e.covariance = !![p, q; q, s]) :
    e.gain r = (innovationDet p q s r)⁻¹ •
      !![p * (s + r) - q * q, r * q; r * q, s * (p + r) - q * q] := by
  have hinv : (!![p + r, q; q, s + r])⁻¹ =
      (innovationDet p q s r)⁻¹ • !![s + r, -q; -q, p + r] := by
    rw [inv_def, det_fin_two_of, adjugate_fin_two_of, Ring.inverse_eq_inv']
    rfl
  rw [gain, innovation_eq h, hinv, h, mul_smul_comm, mul_fin_two]
  congr 1
  ext i j
  fin_cases i <;> fin_cases j <;> simp <;> ring

/-- The part of a distance by which the position is corrected, and the velocity. -/
def positionGain (p q s r dt : K) : K :=
  (p * (s + r) - q * q + r * q / dt) / innovationDet p q s r

def velocityGain (p q s r dt : K) : K :=
  (r * q + (s * (p + r) - q * q) / dt) / innovationDet p q s r

/-- If the velocity is off by what it takes to go the distance in the time step, both entries are
corrected in proportion to the distance. -/
theorem mean_correct (h : e.covariance = !![p, q; q, s]) {measured : Fin 2 → K} {distance dt : K}
    (hmeasured : measured - e.mean = ![distance, distance / dt]) :
    (e.correct r measured).mean =
      e.mean + ![positionGain p q s r dt * distance, velocityGain p q s r dt * distance] := by
  unfold correct positionGain velocityGain
  dsimp only
  rw [gain_eq h, hmeasured]
  congr 1
  ext i
  fin_cases i <;> simp [mulVec, dotProduct, Fin.sum_univ_two] <;> ring

/-- A correction leaves as much of the covariance as the gain makes of the noise. -/
theorem covariance_correct (h : e.covariance = !![p, q; q, s]) (hdet : innovationDet p q s r ≠ 0)
    (measured : Fin 2 → K) : (e.correct r measured).covariance = r • e.gain r := by
  have hunit : IsUnit (e.covariance + r • 1).det := by
    rw [innovation_eq h, det_fin_two_of]
    exact isUnit_iff_ne_zero.mpr hdet
  have hback : e.gain r * e.covariance + r • e.gain r = e.covariance := by
    have hcancel : e.gain r * (e.covariance + r • 1) = e.covariance := by
      rw [gain, Matrix.mul_assoc, nonsing_inv_mul _ hunit, Matrix.mul_one]
    rw [Matrix.mul_add, Matrix.mul_smul, Matrix.mul_one] at hcancel
    exact hcancel
  calc (e.correct r measured).covariance = e.covariance - e.gain r * e.covariance := by
        rw [correct, Matrix.sub_mul, Matrix.one_mul]
    _ = r • e.gain r := sub_eq_iff_eq_add'.mpr hback.symm

/-- What a correction leaves of the variance `p`, which has the covariance `q` with the variance
`s`. -/
def leftVariance (p q s r : K) : K := r * (p * (s + r) - q * q) / innovationDet p q s r

theorem innovationDet_comm : innovationDet s q p r = innovationDet p q s r := by
  unfold innovationDet
  ring

theorem covariance_correct_eq (h : e.covariance = !![p, q; q, s])
    (hdet : innovationDet p q s r ≠ 0) (measured : Fin 2 → K) :
    (e.correct r measured).covariance =
      !![leftVariance p q s r, r * r * q / innovationDet p q s r;
        r * r * q / innovationDet p q s r, leftVariance s q p r] := by
  rw [covariance_correct h hdet, gain_eq h]
  unfold leftVariance
  rw [innovationDet_comm]
  ext i j
  fin_cases i <;> fin_cases j <;> simp <;> ring

section Order

variable [LinearOrder K] [IsStrictOrderedRing K] {dt : K}

theorem innovationDet_pos (hp : 0 < p) (hs : 0 < s) (hdet : 0 < p * s - q * q) (hr : 0 < r) :
    0 < innovationDet p q s r := by
  have hsum : innovationDet p q s r = p * s - q * q + r * (p + s + r) := by
    unfold innovationDet
    ring
  rw [hsum]
  positivity

theorem positionGain_pos (hp : 0 < p) (hs : 0 < s) (hdet : 0 < p * s - q * q) (hr : 0 < r)
    (hq : 0 ≤ q) (hdt : 0 < dt) : 0 < positionGain p q s r dt := by
  have hsum : p * (s + r) - q * q + r * q / dt = p * s - q * q + (p * r + r * q / dt) := by ring
  unfold positionGain
  rw [hsum]
  exact div_pos (by positivity) (innovationDet_pos hp hs hdet hr)

theorem velocityGain_pos (hp : 0 < p) (hs : 0 < s) (hdet : 0 < p * s - q * q) (hr : 0 < r)
    (hq : 0 ≤ q) (hdt : 0 < dt) : 0 < velocityGain p q s r dt := by
  have hsum : r * q + (s * (p + r) - q * q) / dt = (p * s - q * q + s * r) / dt + r * q := by ring
  unfold velocityGain
  rw [hsum]
  exact div_pos (by positivity) (innovationDet_pos hp hs hdet hr)

/-- A correction leaves some of a variance, less than there was and less than the noise. -/
theorem leftVariance_bounds (hp : 0 < p) (hs : 0 < s) (hdet : 0 < p * s - q * q) (hr : 0 < r) :
    0 < leftVariance p q s r ∧ leftVariance p q s r < p ∧ leftVariance p q s r < r := by
  have hinnovation := innovationDet_pos hp hs hdet hr
  have hweight : 0 < p * (s + r) - q * q := by
    have hsum : p * (s + r) - q * q = p * s - q * q + p * r := by ring
    rw [hsum]
    positivity
  have hprior : p * innovationDet p q s r - r * (p * (s + r) - q * q) =
      p * (p * s - q * q) + p * p * r + r * (q * q) := by
    unfold innovationDet
    ring
  have hnoise : r * innovationDet p q s r - r * (p * (s + r) - q * q) = r * (r * (s + r)) := by
    unfold innovationDet
    ring
  unfold leftVariance
  refine ⟨div_pos (mul_pos hr hweight) hinnovation, ?_, ?_⟩
  · rw [div_lt_iff₀ hinnovation, ← sub_pos, hprior]
    have hsquare := mul_self_nonneg q
    positivity
  · rw [div_lt_iff₀ hinnovation, ← sub_pos, hnoise]
    positivity

/-- The whole distance is not exceeded if the cross term is at most what the other entries and the
noise make of the time step. -/
theorem positionGain_le_one_iff (hdet : 0 < innovationDet p q s r) (hr : 0 < r) (hdt : 0 < dt) :
    positionGain p q s r dt ≤ 1 ↔ q ≤ dt * (s + r) := by
  have hrest : innovationDet p q s r - (p * (s + r) - q * q + r * q / dt) =
      r / dt * (dt * (s + r) - q) := by
    unfold innovationDet
    field_simp
    ring
  have hfactor : 0 < r / dt := div_pos hr hdt
  unfold positionGain
  rw [div_le_one hdet, ← sub_nonneg, hrest, mul_nonneg_iff_of_pos_left hfactor, sub_nonneg]

end Order

/-! ### Prediction -/

section Predict

variable [LinearOrder K] [ExactRoots K] {n dt : K}

/-- The estimate a time step later, at constant velocity up to random accelerations of intensity
`n`. A step that does not count changes nothing. -/
def predict (n dt : K) (e : AxisEstimate K) : AxisEstimate K :=
  if Filter.isStep dt then
    { mean := axisTransition dt *ᵥ e.mean
      covariance := axisTransition dt * e.covariance * (axisTransition dt)ᵀ + axisNoise dt n }
  else e

theorem mean_predict (hstep : Filter.isStep dt = true) :
    (e.predict n dt).mean = ![e.mean 0 + e.mean 1 * dt, e.mean 1] := by
  rw [predict, if_pos hstep]
  ext i
  fin_cases i <;> simp [axisTransition, mulVec, dotProduct, Fin.sum_univ_two, mul_comm]

theorem covariance_predict (h : e.covariance = !![p, q; q, s]) (hstep : Filter.isStep dt = true) :
    (e.predict n dt).covariance =
      !![p + 2 * (q * dt) + s * (dt * dt) + n * (dt * dt * dt) / 3, q + s * dt + n * (dt * dt) / 2;
        q + s * dt + n * (dt * dt) / 2, s + n * dt] := by
  rw [predict, if_pos hstep]
  dsimp only
  rw [h, axisTransition_transpose]
  unfold axisTransition axisNoise
  rw [mul_fin_two, mul_fin_two]
  ext i j
  fin_cases i <;> fin_cases j <;> simp <;> ring

end Predict

end AxisEstimate

end ObstacleTracking
