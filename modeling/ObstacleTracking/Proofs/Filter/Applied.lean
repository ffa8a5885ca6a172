import Mathlib.Data.Sign.Basic
import ObstacleTracking.Proofs.Config.Settings
import ObstacleTracking.Proofs.Filter.Overshoot

/-!
# Observations that are applied

An observation that corrects the prediction, with the change of velocity as it is or shortened,
moves position and velocity of an axis towards the observed point: both gains are positive because
position and velocity of an axis are never opposed. What it leaves of a variance is less than was
predicted and less than its own noise, whatever came before.
-/

namespace ObstacleTracking.Filter

variable {K : Type} [Field K] [LinearOrder K] [IsStrictOrderedRing K] [ExactRoots K]
  {c : FilterConfig K} {e : Estimate K} {anchor : Vec3 K} {score dt : K}

/-! ### The change of state -/

omit [IsStrictOrderedRing K] in
theorem shortenedOnAxis_one (k : Fin 3) :
    shortenedOnAxis c e anchor score dt 1 k = correctedOnAxis c e anchor score dt k := by
  unfold shortenedOnAxis
  apply AxisEstimate.ext
  · ext i
    fin_cases i <;> simp
  · rfl

omit [IsStrictOrderedRing K] in
theorem mean_shortenedOnAxis {k : Fin 3} {a b : K}
    (h : (correctedOnAxis c e anchor score dt k).mean =
      ((predict c e dt).onAxis k).mean + ![a, b]) (part : K) :
    (shortenedOnAxis c e anchor score dt part k).mean =
      ((predict c e dt).onAxis k).mean + ![a, b * part] := by
  unfold shortenedOnAxis
  dsimp only
  rw [h]
  ext i
  fin_cases i <;> simp

/-- An update that is applied takes on every axis the same positive part of the change of
velocity. -/
theorem exists_part_update (hc : c.error? = none) (he : IsSound e.covariance)
    (h : (update c e anchor score dt).outcome = .corrected ∨
      (update c e anchor score dt).outcome = .breakdown) :
    ∃ part, 0 < part ∧ ∀ k, (update c e anchor score dt).estimate.onAxis k =
      shortenedOnAxis c e anchor score dt part k := by
  rcases h with h | h
  · refine ⟨1, one_pos, fun k => ?_⟩
    rw [shortenedOnAxis_one, onAxis_update_of_corrected hc he h]
  · obtain ⟨velocity, hvelocity⟩ := exists_isVelocityChange c e anchor score dt
    have hmaximum := FilterConfig.velocityCorrectionMaximum_pos hc
    have hlong := maximum_lt_norm_of_breakdown hc he h hvelocity
    exact ⟨_, div_pos hmaximum (hmaximum.trans hlong),
      onAxis_update_of_breakdown hc he h hvelocity⟩

/-- An update that is applied changes position and velocity of an axis by positive multiples of the
distance from the predicted to the observed position. -/
theorem exists_gains_update (hc : c.error? = none) (he : IsSound e.covariance) {k : Fin 3}
    (hcross : 0 ≤ e.cross k)
    (h : (update c e anchor score dt).outcome = .corrected ∨
      (update c e anchor score dt).outcome = .breakdown) :
    let predicted := ((predict c e dt).onAxis k).mean
    let distance := anchor.onAxis k - predicted 0
    ∃ a b, 0 < a ∧ 0 < b ∧ ((update c e anchor score dt).estimate.onAxis k).mean =
      predicted + ![a * distance, b * distance] := by
  intro predicted distance
  obtain ⟨hstep, hscore⟩ := not_rejected_of_applied h
  obtain ⟨part, hpart, hupdate⟩ := exists_part_update hc he h
  obtain ⟨p, q, s, hblock, hp, hq, hs, hdet⟩ := exists_predicted_nonneg hc he hcross hstep
  have hr := mul_pos (measurementNoise_pos hc) (noiseScale_pos hc hscore)
  have hposition := AxisEstimate.positionGain_pos hp hs hdet hr hq (pos_of_isStep hstep)
  have hvelocity := AxisEstimate.velocityGain_pos hp hs hdet hr hq (pos_of_isStep hstep)
  have hmean := mean_correctedOnAxis anchor score hstep hblock
  rw [← onAxis_predict c he] at hmean
  refine ⟨_, _, hposition, mul_pos hvelocity hpart, ?_⟩
  rw [hupdate k, mean_shortenedOnAxis hmean, mul_right_comm]

theorem Reachable.cross_entries_nonneg (hc : c.error? = none) (h : Reachable c e) (i j : Fin 3) :
    0 ≤ e.covariance (i.castAdd 3) (j.addNat 3) ∧
      0 ≤ e.covariance (j.addNat 3) (i.castAdd 3) := by
  have hcovariance := (h.isSound hc).isCovariance
  have hupper : 0 ≤ e.covariance (i.castAdd 3) (j.addNat 3) := by
    by_cases heq : i = j
    · rw [heq]
      exact h.cross_nonneg hc j
    · refine (hcovariance.apart _ _ ?_).ge
      simp only [Fin.val_castAdd, Fin.val_addNat]
      omega
  refine ⟨hupper, ?_⟩
  have hsymmetric : e.covariance (j.addNat 3) (i.castAdd 3) =
      e.covariance (i.castAdd 3) (j.addNat 3) := by
    conv_lhs => rw [← hcovariance.symmetric]
    exact Mat.get_transpose _ _ _
  rw [hsymmetric]
  exact hupper

/-- Position and velocity of an axis never come to be opposed. From a covariance that is reached,
with any mean, an observation that is applied therefore moves both towards the observed point, and
leaves them exactly if the point was predicted. -/
theorem applied_towards (hc : c.error? = none) {e₀ : Estimate K} (h : Reachable c e₀) :
    (∀ i j : Fin 3, 0 ≤ e₀.covariance (i.castAdd 3) (j.addNat 3) ∧
      0 ≤ e₀.covariance (j.addNat 3) (i.castAdd 3)) ∧
    ∀ (mean : MotionState K) (anchor : Vec3 K) (score dt : K),
      let e : Estimate K := ⟨mean, e₀.covariance⟩
      let predicted := predict c e dt
      let u := update c e anchor score dt
      u.outcome = .corrected ∨ u.outcome = .breakdown → ∀ k : Fin 3,
        let distance := anchor.onAxis k - predicted.position.onAxis k
        SignType.sign (u.estimate.position.onAxis k - predicted.position.onAxis k) =
            SignType.sign distance ∧
          SignType.sign (u.estimate.velocity.onAxis k - predicted.velocity.onAxis k) =
            SignType.sign distance := by
  refine ⟨h.cross_entries_nonneg hc, ?_⟩
  intro mean anchor score dt e predicted u houtcome k distance
  have hsign : ∀ {a : K}, 0 < a → SignType.sign (a * distance) = SignType.sign distance := by
    intro a ha
    rw [sign_mul, sign_pos ha, one_mul]
  obtain ⟨a, b, ha, hb, hmean⟩ :=
    exists_gains_update (e := e) hc (h.isSound hc) (h.cross_nonneg hc k) houtcome
  rw [← Estimate.position_onAxis] at hmean
  have hposition : u.estimate.position.onAxis k = predicted.position.onAxis k + a * distance := by
    rw [Estimate.position_onAxis, Estimate.position_onAxis]
    exact congrFun hmean 0
  have hvelocity : u.estimate.velocity.onAxis k = predicted.velocity.onAxis k + b * distance := by
    rw [Estimate.velocity_onAxis, Estimate.velocity_onAxis]
    exact congrFun hmean 1
  rw [hposition, hvelocity, add_sub_cancel_left, add_sub_cancel_left]
  exact ⟨hsign ha, hsign hb⟩

section Example

attribute [local instance] ExactRoots.real

theorem outcome_missed_far :
    (update .standard (missedFor (1 / 10)) ⟨50, 0, 0⟩ 0 (1 / 10)).outcome = .breakdown := by
  rw [outcome_missed (by norm_num), if_pos (by norm_num)]

/-- After one missed frame a far observation ahead moves position and velocity ahead, and neither of
them sideways. -/
theorem applied_towards_missed :
    let c : FilterConfig ℝ := .standard
    let u := update c (missedFor (1 / 10)) ⟨50, 0, 0⟩ 0 (1 / 10)
    c.error? = none ∧ Reachable c (missedFor (1 / 10)) ∧ u.outcome = .breakdown ∧
      0 < u.estimate.position.x ∧ 0 < u.estimate.velocity.x ∧
      u.estimate.position.y = 0 ∧ u.estimate.velocity.y = 0 := by
  intro c u
  have hc : c.error? = none := FilterConfig.error?_standard ℝ ℝ
  have hposition : ∀ k, (predict c (missedFor (1 / 10)) (1 / 10)).position.onAxis k = 0 := by
    intro k
    rw [Estimate.position_onAxis, predict_missed]
    rfl
  have hvelocity : ∀ k, (predict c (missedFor (1 / 10)) (1 / 10)).velocity.onAxis k = 0 := by
    intro k
    rw [Estimate.velocity_onAxis, predict_missed]
    rfl
  obtain ⟨-, htowards⟩ := applied_towards hc (reachable_missed (1 / 10))
  have hsigns : ∀ k,
      SignType.sign (u.estimate.position.onAxis k - 0) =
        SignType.sign ((⟨50, 0, 0⟩ : Vec3 ℝ).onAxis k - 0) ∧
      SignType.sign (u.estimate.velocity.onAxis k - 0) =
        SignType.sign ((⟨50, 0, 0⟩ : Vec3 ℝ).onAxis k - 0) := by
    intro k
    have hk := htowards (missedFor (1 / 10)).mean ⟨50, 0, 0⟩ 0 (1 / 10)
      (Or.inr outcome_missed_far) k
    dsimp only at hk
    rw [hposition, hvelocity] at hk
    exact hk
  simp only [sub_zero] at hsigns
  have hahead : SignType.sign ((⟨50, 0, 0⟩ : Vec3 ℝ).onAxis 0) = 1 :=
    sign_pos (show (0 : ℝ) < 50 by norm_num)
  have hsideways : SignType.sign ((⟨50, 0, 0⟩ : Vec3 ℝ).onAxis 1) = 0 := sign_zero
  refine ⟨hc, reachable_missed _, outcome_missed_far, ?_, ?_, ?_, ?_⟩
  · exact sign_eq_one_iff.mp ((hsigns 0).1.trans hahead)
  · exact sign_eq_one_iff.mp ((hsigns 0).2.trans hahead)
  · exact sign_eq_zero_iff.mp ((hsigns 1).1.trans hsideways)
  · exact sign_eq_zero_iff.mp ((hsigns 1).2.trans hsideways)

end Example

/-! ### The variances that are left -/

theorem noiseScale_le_two (hc : c.error? = none) (hscore : ¬ c.scoreMaximum < score) :
    noiseScale c score ≤ 2 := by
  obtain ⟨-, -, -, -, m, ⟨-, -, -, -, hm⟩, -, -, -, -, hmeq⟩ :=
    exists_pos_of_error?_eq_none (K := K) hc
  have hmaximum : 0 < c.scoreMaximum := hmeq ▸ hm
  unfold noiseScale
  split
  · have hpart : max score 0 / c.scoreMaximum ≤ 1 :=
      (div_le_one hmaximum).mpr (max_le (not_lt.mp hscore) hmaximum.le)
    rw [ExactRoots.maxNum_eq]
    linarith
  · exact one_le_two

/-- What an update that is applied leaves of a diagonal block. -/
theorem diagonal_update_bounds (hc : c.error? = none) (he : IsSound e.covariance)
    (hdt : isStep dt = true) (hscore : ¬ c.scoreMaximum < score) (anchor : Vec3 K) (k : Fin 3)
    (i : Fin 2) :
    let left := (update c e anchor score dt).estimate.covariance.onAxis k i i
    0 < left ∧ left < (predict c e dt).covariance.onAxis k i i ∧
      left < c.measurementNoise * noiseScale c score := by
  intro left
  have hr := mul_pos (measurementNoise_pos hc) (noiseScale_pos hc hscore)
  obtain ⟨p, q, s, hblock, hp, hs, hdet⟩ :=
    ((isSound_predict hc he dt).isPositive_onAxis k).exists_fin_two
  have hpredicted : ((e.onAxis k).predict (c.noiseOnAxis k) dt).covariance = !![p, q; q, s] :=
    (congrArg AxisEstimate.covariance (onAxis_predict c he dt k)).symm.trans hblock
  have hupdate := covariance_onAxis_update hc he hdt hscore anchor k
  rw [correctedOnAxis, AxisEstimate.covariance_correct_eq hpredicted
    (AxisEstimate.innovationDet_pos hp hs hdet hr).ne'] at hupdate
  have hdet' : 0 < s * p - q * q := by
    rw [mul_comm]
    exact hdet
  simp only [left]
  rw [hupdate, hblock]
  fin_cases i
  · exact AxisEstimate.leftVariance_bounds hp hs hdet hr
  · exact AxisEstimate.leftVariance_bounds hs hp hdet' hr

/-- From a covariance that is reached, with any mean, an observation that is applied leaves of every
variance something, less than was predicted and less than the noise of the observation, so no more
than twice the least noise. -/
theorem applied_adds_certainty (hc : c.error? = none) {e₀ : Estimate K} (h : Reachable c e₀)
    (mean : MotionState K) (anchor : Vec3 K) (score dt : K) :
    let e : Estimate K := ⟨mean, e₀.covariance⟩
    let predicted := predict c e dt
    let u := update c e anchor score dt
    u.outcome = .corrected ∨ u.outcome = .breakdown → ∀ i : Fin 6,
      let left := u.estimate.covariance i i
      0 < left ∧ left < predicted.covariance i i ∧
        left < c.measurementNoise * noiseScale c score ∧ left ≤ 2 * c.measurementNoise := by
  intro e predicted u houtcome i left
  obtain ⟨hstep, hscore⟩ := not_rejected_of_applied houtcome
  obtain ⟨⟨entry, k⟩, rfl⟩ := place.surjective i
  have hbounds := diagonal_update_bounds (e := e) hc (h.isSound hc) hstep hscore anchor k entry
  rw [Mat.onAxis_apply, Mat.onAxis_apply] at hbounds
  obtain ⟨hpos, hprior, hnoise⟩ := hbounds
  refine ⟨hpos, hprior, hnoise, hnoise.le.trans ?_⟩
  rw [mul_comm 2]
  exact mul_le_mul_of_nonneg_left (noiseScale_le_two hc hscore) (measurementNoise_pos hc).le

section Example

attribute [local instance] ExactRoots.real

/-- After one missed frame a near observation brings all variances below the noise of the
measurement, from above it. -/
theorem applied_adds_certainty_missed :
    let c : FilterConfig ℝ := .standard
    let predicted := predict c (missedFor (1 / 10)) (1 / 10)
    let u := update c (missedFor (1 / 10)) ⟨1 / 2, 0, 0⟩ 0 (1 / 10)
    c.error? = none ∧ Reachable c (missedFor (1 / 10)) ∧ u.outcome = .corrected ∧
      ∀ i : Fin 6, 2 / 5 < predicted.covariance i i ∧ 0 < u.estimate.covariance i i ∧
        u.estimate.covariance i i < 2 / 5 := by
  intro c predicted u
  have hc : c.error? = none := FilterConfig.error?_standard ℝ ℝ
  refine ⟨hc, reachable_missed _, outcome_missed_near, ?_⟩
  intro i
  obtain ⟨hpos, -, hnoise, -⟩ := applied_adds_certainty hc (reachable_missed (1 / 10))
    (missedFor (1 / 10)).mean ⟨1 / 2, 0, 0⟩ 0 (1 / 10) (Or.inl outcome_missed_near) i
  rw [noise_standard] at hnoise
  refine ⟨?_, hpos, hnoise⟩
  obtain ⟨⟨entry, k⟩, rfl⟩ := place.surjective i
  have hblock : predicted.covariance.onAxis k = !![47 / 75, 6 / 5; 6 / 5, 7] :=
    congrArg AxisEstimate.covariance (predict_missed k)
  rw [← Mat.onAxis_apply, hblock]
  fin_cases entry <;> norm_num

end Example

end ObstacleTracking.Filter
