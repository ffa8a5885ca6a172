import Mathlib.Order.Interval.Set.UnorderedInterval
import ObstacleTracking.Proofs.Filter.Decoupled

/-!
# Corrections that overshoot

A correction never moves the position away from the observed point, since position and velocity of
an axis never come to be opposed. The velocity that is measured along with the point pulls the
position too, by as much as the two are correlated: if predictions have made the correlation large
for the time step of the correction, the position ends beyond the point.
-/

namespace ObstacleTracking

variable {K : Type} [Field K] [LinearOrder K] [IsStrictOrderedRing K]

/-- A part of the way from one point to another ends between them, unless it is more than the
whole. -/
theorem add_mul_mem_uIcc_iff {x d g : K} (hg : 0 ≤ g) :
    x + g * d ∈ Set.uIcc x (x + d) ↔ d = 0 ∨ g ≤ 1 := by
  rcases lt_trichotomy d 0 with hd | rfl | hd
  · have hpart : g * d ≤ 0 := mul_nonpos_of_nonneg_of_nonpos hg hd.le
    rw [Set.uIcc_of_ge (by linarith), Set.mem_Icc, or_iff_right hd.ne,
      ← mul_le_mul_right_of_neg (a := 1) (b := g) hd]
    constructor
    · rintro ⟨h, -⟩
      linarith
    · intro h
      constructor
      · linarith
      · linarith
  · simp
  · have hpart : 0 ≤ g * d := mul_nonneg hg hd.le
    rw [Set.uIcc_of_le (by linarith), Set.mem_Icc, or_iff_right hd.ne',
      ← mul_le_mul_iff_left₀ (b := g) (c := 1) hd]
    constructor
    · rintro ⟨-, h⟩
      linarith
    · intro h
      constructor
      · linarith
      · linarith

variable [ExactRoots K]

/-- How much position and velocity of an axis are correlated. -/
def Estimate.cross (e : Estimate K) (k : Fin 3) : K := e.covariance (k.castAdd 3) (k.addNat 3)

namespace Filter

variable {c : FilterConfig K} {e : Estimate K} {anchor : Vec3 K} {score dt : K}

omit [IsStrictOrderedRing K] in
theorem noiseOnAxis_pos (hc : c.error? = none) (k : Fin 3) : 0 < c.noiseOnAxis k := by
  obtain ⟨-, -, h, v, -, ⟨-, -, hh, hv, -⟩, -, -, hheq, hveq, -⟩ :=
    exists_pos_of_error?_eq_none (K := K) hc
  have hhorizontal : 0 < c.horizontalNoise := hheq ▸ hh
  have hvertical : 0 < c.verticalNoise := hveq ▸ hv
  fin_cases k
  · exact hhorizontal
  · exact hhorizontal
  · exact hvertical

/-! ### The correlation of position and velocity -/

/-- What is predicted on an axis, up to the variance of its position. -/
theorem exists_predicted (hc : c.error? = none) (he : IsSound e.covariance)
    (hdt : isStep dt = true) (k : Fin 3) :
    ∃ p s, 0 < s ∧
      let q := e.cross k + s * dt + c.noiseOnAxis k * (dt * dt) / 2
      let s' := s + c.noiseOnAxis k * dt
      ((e.onAxis k).predict (c.noiseOnAxis k) dt).covariance = !![p, q; q, s'] ∧
        0 < p ∧ 0 < s' ∧ 0 < p * s' - q * q := by
  obtain ⟨p, q, s, hblock, -, hs, -⟩ := (he.isPositive_onAxis k).exists_fin_two
  have hcross : e.cross k = q := congrFun (congrFun hblock 0) 1
  have hcovariance : (e.onAxis k).covariance = !![p, q; q, s] := hblock
  have hpredicted := AxisEstimate.covariance_predict (n := c.noiseOnAxis k) hcovariance hdt
  obtain ⟨p', q', s', hpositive, hp', hs', hdet⟩ :=
    ((isSound_predict hc he dt).isPositive_onAxis k).exists_fin_two
  have honAxis := congrArg AxisEstimate.covariance (onAxis_predict c he dt k)
  have heq := hpredicted.symm.trans (honAxis.symm.trans hpositive)
  obtain rfl := congrFun (congrFun heq 0) 0
  obtain rfl := congrFun (congrFun heq 0) 1
  obtain rfl := congrFun (congrFun heq 1) 1
  rw [hcross]
  exact ⟨_, s, hs, hpredicted, hp', hs', hdet⟩

/-- What is predicted on an axis where position and velocity are not opposed. -/
theorem exists_predicted_nonneg (hc : c.error? = none) (he : IsSound e.covariance) {k : Fin 3}
    (hcross : 0 ≤ e.cross k) (hdt : isStep dt = true) :
    ∃ p q s, ((e.onAxis k).predict (c.noiseOnAxis k) dt).covariance = !![p, q; q, s] ∧
      0 < p ∧ 0 ≤ q ∧ 0 < s ∧ 0 < p * s - q * q := by
  obtain ⟨p, s, hs, hblock, hp, hs', hdet⟩ := exists_predicted hc he hdt k
  have hpos := pos_of_isStep hdt
  have hnoise := noiseOnAxis_pos hc k
  exact ⟨p, _, _, hblock, hp, by positivity, hs', hdet⟩

omit [IsStrictOrderedRing K] in
theorem cross_initiate (c : FilterConfig K) (anchor : Vec3 K) (k : Fin 3) :
    (initiate c anchor).cross k = 0 :=
  congrFun (congrFun (congrArg AxisEstimate.covariance (onAxis_initiate c anchor k)) 0) 1

theorem cross_predict_nonneg (hc : c.error? = none) (he : IsSound e.covariance) {k : Fin 3}
    (h : 0 ≤ e.cross k) (dt : K) : 0 ≤ (predict c e dt).cross k := by
  by_cases hdt : isStep dt = true
  · obtain ⟨p, s, hs, hblock, -⟩ := exists_predicted hc he hdt k
    have honAxis := congrArg AxisEstimate.covariance (onAxis_predict c he dt k)
    have hcross : (predict c e dt).cross k = e.cross k + s * dt + c.noiseOnAxis k * (dt * dt) / 2 :=
      congrFun (congrFun (honAxis.trans hblock) 0) 1
    have hpos := pos_of_isStep hdt
    have hnoise := noiseOnAxis_pos hc k
    rw [hcross]
    positivity
  · rw [predict, if_neg hdt]
    exact h

/-- What an observation leaves of the correlation that was predicted. -/
theorem cross_update (hc : c.error? = none) (he : IsSound e.covariance) (hdt : isStep dt = true)
    (hscore : ¬ c.scoreMaximum < score) (anchor : Vec3 K) {k : Fin 3} {p q s : K}
    (hblock : ((e.onAxis k).predict (c.noiseOnAxis k) dt).covariance = !![p, q; q, s])
    (hdet : 0 < AxisEstimate.innovationDet p q s (c.measurementNoise * noiseScale c score)) :
    (update c e anchor score dt).estimate.cross k =
      c.measurementNoise * noiseScale c score * (c.measurementNoise * noiseScale c score) * q /
        AxisEstimate.innovationDet p q s (c.measurementNoise * noiseScale c score) := by
  have hleft := covariance_onAxis_update hc he hdt hscore anchor k
  rw [correctedOnAxis, AxisEstimate.covariance_correct_eq hblock hdet.ne'] at hleft
  exact congrFun (congrFun hleft 0) 1

theorem cross_update_nonneg (hc : c.error? = none) (he : IsSound e.covariance) {k : Fin 3}
    (h : 0 ≤ e.cross k) (anchor : Vec3 K) (score dt : K) :
    0 ≤ (update c e anchor score dt).estimate.cross k := by
  by_cases hdt : isStep dt = true
  · by_cases hscore : c.scoreMaximum < score
    · have hrejected : (update c e anchor score dt).estimate = predict c e dt := by
        rw [update, if_pos hdt]
        dsimp only
        rw [if_pos hscore]
      rw [hrejected]
      exact cross_predict_nonneg hc he h dt
    · obtain ⟨p, q, s, hblock, hp, hq, hs, hdet⟩ := exists_predicted_nonneg hc he h hdt
      have hr := mul_pos (measurementNoise_pos hc) (noiseScale_pos hc hscore)
      have hinnovation := AxisEstimate.innovationDet_pos hp hs hdet hr
      rw [cross_update hc he hdt hscore anchor hblock hinnovation]
      positivity
  · rw [update, if_neg hdt]
    exact h

/-- Position and velocity of an axis never come to be opposed. -/
theorem Reachable.cross_nonneg (hc : c.error? = none) (h : Reachable c e) (k : Fin 3) :
    0 ≤ e.cross k := by
  induction h with
  | initiate anchor => exact (cross_initiate c anchor k).ge
  | predict h dt ih => exact cross_predict_nonneg hc (h.isSound hc) ih dt
  | update h anchor score dt ih => exact cross_update_nonneg hc (h.isSound hc) ih anchor score dt

/-! ### Where a correction ends -/

/-- A correction covers a part of the distance from the predicted to the observed position. -/
theorem position_corrected (hc : c.error? = none) (he : IsSound e.covariance)
    (houtcome : (update c e anchor score dt).outcome = .corrected) {k : Fin 3} {p q s : K}
    (hblock : ((e.onAxis k).predict (c.noiseOnAxis k) dt).covariance = !![p, q; q, s]) :
    let predicted := (predict c e dt).position.onAxis k
    (update c e anchor score dt).estimate.position.onAxis k = predicted +
      AxisEstimate.positionGain p q s (c.measurementNoise * noiseScale c score) dt *
        (anchor.onAxis k - predicted) := by
  intro predicted
  obtain ⟨hdt, -⟩ := not_rejected_of_applied (Or.inl houtcome)
  have hpredicted : predicted = ((e.onAxis k).predict (c.noiseOnAxis k) dt).mean 0 := by
    rw [← onAxis_predict c he]
    exact Estimate.position_onAxis _ k
  rw [Estimate.position_onAxis, onAxis_update_of_corrected hc he houtcome, hpredicted]
  exact congrFun (mean_correctedOnAxis anchor score hdt hblock) 0

/-- A correction covers a positive part of the distance, and not more than the whole exactly if the
correlation before the update was small enough for the time step. -/
theorem exists_part_corrected (hc : c.error? = none) (h : Reachable c e)
    (houtcome : (update c e anchor score dt).outcome = .corrected) (k : Fin 3) :
    let predicted := (predict c e dt).position.onAxis k
    ∃ part, 0 < part ∧
      (part ≤ 1 ↔ e.cross k ≤
        dt * (c.measurementNoise * noiseScale c score + c.noiseOnAxis k * dt / 2)) ∧
      (update c e anchor score dt).estimate.position.onAxis k =
        predicted + part * (anchor.onAxis k - predicted) := by
  have he := h.isSound hc
  obtain ⟨hdt, hscore⟩ := not_rejected_of_applied (Or.inl houtcome)
  obtain ⟨p, s, hs, hblock, hp, hs', hdet⟩ := exists_predicted hc he hdt k
  have hpos := pos_of_isStep hdt
  have hr := mul_pos (measurementNoise_pos hc) (noiseScale_pos hc hscore)
  have hcross := h.cross_nonneg hc k
  have hnoise := noiseOnAxis_pos hc k
  have hinnovation := AxisEstimate.innovationDet_pos hp hs' hdet hr
  have hgain := AxisEstimate.positionGain_pos hp hs' hdet hr (by positivity) hpos
  refine ⟨_, hgain, ?_, position_corrected hc he houtcome hblock⟩
  -- the variance of the velocity, which the prediction carries over, cancels
  have hcancel : dt * (s + c.noiseOnAxis k * dt + c.measurementNoise * noiseScale c score) -
      (e.cross k + s * dt + c.noiseOnAxis k * (dt * dt) / 2) =
      dt * (c.measurementNoise * noiseScale c score + c.noiseOnAxis k * dt / 2) - e.cross k := by
    ring
  rw [AxisEstimate.positionGain_le_one_iff hinnovation hr hpos, ← sub_nonneg, hcancel, sub_nonneg]

/-- A correction moves the position of an axis towards the observed point, or leaves it. It ends
between the predicted and the observed position exactly if the two are the same, or if the
correlation of position and velocity before the update was small enough for the time step. -/
theorem corrected_between_iff (hc : c.error? = none) (h : Reachable c e)
    (houtcome : (update c e anchor score dt).outcome = .corrected) (k : Fin 3) :
    let predicted := (predict c e dt).position.onAxis k
    let corrected := (update c e anchor score dt).estimate.position.onAxis k
    let observed := anchor.onAxis k
    0 ≤ (corrected - predicted) * (observed - predicted) ∧
      (corrected ∈ Set.uIcc predicted observed ↔
        predicted = observed ∨ e.covariance (k.castAdd 3) (k.addNat 3) ≤
          dt * (c.measurementNoise * noiseScale c score + c.noiseOnAxis k * dt / 2)) := by
  intro predicted corrected observed
  obtain ⟨part, hpart, hle, hcorrected⟩ := exists_part_corrected hc h houtcome k
  have hdistance : corrected = predicted + part * (observed - predicted) := hcorrected
  constructor
  · rw [hdistance, add_sub_cancel_left, mul_assoc]
    exact mul_nonneg hpart.le (mul_self_nonneg _)
  · have hbetween := add_mul_mem_uIcc_iff (x := predicted) (d := observed - predicted) hpart.le
    rw [add_sub_cancel, ← hdistance, sub_eq_zero, eq_comm (a := observed), hle] at hbetween
    exact hbetween

/-! ### Obstacles that are never missed -/

/-- An observation that is not overshot leaves no more correlation than it could take itself. -/
theorem cross_update_le (hc : c.error? = none) (he : IsSound e.covariance) (hdt : isStep dt = true)
    (hscore : ¬ c.scoreMaximum < score) (anchor : Vec3 K) {k : Fin 3}
    (h : e.cross k ≤ dt * (c.measurementNoise * noiseScale c score + c.noiseOnAxis k * dt / 2)) :
    (update c e anchor score dt).estimate.cross k ≤
      dt * (c.measurementNoise * noiseScale c score) := by
  obtain ⟨p, s, hs, hblock, hp, hs', hdet⟩ := exists_predicted hc he hdt k
  have hpos := pos_of_isStep hdt
  have hnoise := noiseOnAxis_pos hc k
  have hr := mul_pos (measurementNoise_pos hc) (noiseScale_pos hc hscore)
  have hinnovation := AxisEstimate.innovationDet_pos hp hs' hdet hr
  rw [cross_update hc he hdt hscore anchor hblock hinnovation, div_le_iff₀ hinnovation]
  unfold AxisEstimate.innovationDet
  generalize c.measurementNoise * noiseScale c score = r at *
  generalize hs'' : s + c.noiseOnAxis k * dt = s' at *
  generalize hq : e.cross k + s * dt + c.noiseOnAxis k * (dt * dt) / 2 = q at *
  have hwhole : q ≤ dt * (s' + r) := by
    rw [← hq, ← hs'']
    linarith
  have hrest : 0 ≤ dt * r * (p * s' - q * q + r * p) := by positivity
  calc r * r * q ≤ r * r * (dt * (s' + r)) := mul_le_mul_of_nonneg_left hwhole (by positivity)
    _ ≤ r * r * (dt * (s' + r)) + dt * r * (p * s' - q * q + r * p) := le_add_of_nonneg_right hrest
    _ = dt * r * ((p + r) * (s' + r) - q * q) := by ring

/-- What is believed of an obstacle that was observed at the end of every step since it was first
seen, with steps whose product with the noise of their observation never shrinks. The product is
that of the last step. -/
inductive Unbroken (c : FilterConfig K) : K → Estimate K → Prop where
  | initiate (anchor : Vec3 K) : Unbroken c 0 (initiate c anchor)
  | update {last : K} {e : Estimate K} (h : Unbroken c last e) (anchor : Vec3 K) {score dt : K}
    (hdt : isStep dt = true) (hscore : ¬ c.scoreMaximum < score)
    (hlast : last ≤ dt * (c.measurementNoise * noiseScale c score)) :
    Unbroken c (dt * (c.measurementNoise * noiseScale c score))
      (update c e anchor score dt).estimate

omit [IsStrictOrderedRing K] in
theorem Unbroken.reachable {last : K} (h : Unbroken c last e) : Reachable c e := by
  induction h with
  | initiate anchor => exact .initiate anchor
  | update _ anchor _ _ _ ih => exact ih.update anchor _ _

theorem budget_le (hc : c.error? = none) (hdt : isStep dt = true) (k : Fin 3) :
    dt * (c.measurementNoise * noiseScale c score) ≤
      dt * (c.measurementNoise * noiseScale c score + c.noiseOnAxis k * dt / 2) := by
  have hpos := pos_of_isStep hdt
  have hnoise := noiseOnAxis_pos hc k
  exact mul_le_mul_of_nonneg_left (le_add_of_nonneg_right (by positivity)) hpos.le

theorem Unbroken.cross_le (hc : c.error? = none) {last : K} (h : Unbroken c last e) (k : Fin 3) :
    e.cross k ≤ last := by
  induction h with
  | initiate anchor => exact (cross_initiate c anchor k).le
  | update h anchor hdt hscore hlast ih =>
    exact cross_update_le hc (h.reachable.isSound hc) hdt hscore anchor
      ((ih.trans hlast).trans (budget_le hc hdt k))

/-- An obstacle that is never missed, with such steps, is never overshot. -/
theorem Unbroken.corrected_between (hc : c.error? = none) {last : K} (h : Unbroken c last e)
    (hlast : last ≤ dt * (c.measurementNoise * noiseScale c score))
    (houtcome : (Filter.update c e anchor score dt).outcome = .corrected) (k : Fin 3) :
    (Filter.update c e anchor score dt).estimate.position.onAxis k ∈
      Set.uIcc ((predict c e dt).position.onAxis k) (anchor.onAxis k) := by
  obtain ⟨hdt, -⟩ := not_rejected_of_applied (Or.inl houtcome)
  obtain ⟨part, hpart, hle, hcorrected⟩ := exists_part_corrected hc h.reachable houtcome k
  have hwhole : part ≤ 1 := hle.mpr (((h.cross_le hc k).trans hlast).trans (budget_le hc hdt k))
  have hbetween := (add_mul_mem_uIcc_iff (x := (predict c e dt).position.onAxis k)
    (d := anchor.onAxis k - (predict c e dt).position.onAxis k) hpart.le).mpr (Or.inr hwhole)
  rw [add_sub_cancel] at hbetween
  rw [hcorrected]
  exact hbetween

section Example

attribute [local instance] ExactRoots.real

theorem position_predict_missed :
    (predict .standard (missedFor (1 / 10)) (1 / 10)).position.x = 0 :=
  (Estimate.position_onAxis _ 0).trans
    (congrFun (congrArg AxisEstimate.mean (predict_missed 0)) 0)

theorem outcome_missed_near :
    (update .standard (missedFor (1 / 10)) ⟨1 / 2, 0, 0⟩ 0 (1 / 10)).outcome = .corrected := by
  rw [outcome_missed (by norm_num), if_neg (by norm_num)]

/-- After one missed frame an observation half a meter ahead takes the position beyond it. -/
theorem overshoots_missed :
    let c : FilterConfig ℝ := .standard
    let e := predict c (initiate c 0) (1 / 10)
    let u := update c e ⟨1 / 2, 0, 0⟩ 0 (1 / 10)
    c.error? = none ∧ Scalar.doubleSpacing < (1 / 10 : ℝ) ∧ Reachable c e ∧
      u.outcome = .corrected ∧ (predict c e (1 / 10)).position.x = 0 ∧
      u.estimate.position.x = 2999 / 4618 ∧ (1 / 2 : ℝ) < 2999 / 4618 := by
  intro c e u
  have hc : c.error? = none := FilterConfig.error?_standard ℝ ℝ
  have hstep : Scalar.doubleSpacing < (1 / 10 : ℝ) :=
    of_decide_eq_true (Bool.and_eq_true_iff.mp isStep_tenth).2
  have hposition : u.estimate.position.x = 2999 / 2309 * (1 / 2) := by
    have hupdate := congrArg AxisEstimate.mean
      (onAxis_update_of_corrected hc ((reachable_missed _).isSound hc) outcome_missed_near 0)
    rw [correctedOnAxis_missed] at hupdate
    exact (Estimate.position_onAxis _ 0).trans (congrFun hupdate 0)
  refine ⟨hc, hstep, reachable_missed _, outcome_missed_near, position_predict_missed,
    ?_, by norm_num⟩
  rw [hposition]
  norm_num

theorem corrected_between_iff_missed :
    let u := update .standard (missedFor (1 / 10)) ⟨1 / 2, 0, 0⟩ 0 (1 / 10)
    0 ≤ u.estimate.position.x * (1 / 2) ∧ u.estimate.position.x ∉ Set.uIcc (0 : ℝ) (1 / 2) := by
  intro u
  have hc := FilterConfig.error?_standard ℝ ℝ
  obtain ⟨htowards, hbetween⟩ :=
    corrected_between_iff hc (reachable_missed _) outcome_missed_near 0
  have hpredicted : (predict .standard (missedFor (1 / 10)) (1 / 10)).position.onAxis 0 = 0 :=
    position_predict_missed
  have hobserved : (⟨1 / 2, 0, 0⟩ : Vec3 ℝ).onAxis 0 = 1 / 2 := rfl
  have hcross : (missedFor (1 / 10)).covariance ((0 : Fin 3).castAdd 3) ((0 : Fin 3).addNat 3) =
      11 / 20 := by
    have hblock := congrArg AxisEstimate.covariance
      (onAxis_predict_initiate hc 0 isStep_tenth 0)
    refine (congrFun (congrFun hblock 0) 1).trans ?_
    show ((5 : ℕ) : ℝ) * (1 / 10) + ((10 : ℕ) : ℝ) * (1 / 10 * (1 / 10)) / 2 = _
    norm_num
  have hintensity : (FilterConfig.standard : FilterConfig ℝ).noiseOnAxis 0 = 10 := Nat.cast_ofNat
  rw [hpredicted, hobserved, sub_zero, sub_zero] at htowards
  rw [hpredicted, hobserved, hcross, noise_standard, hintensity] at hbetween
  refine ⟨htowards, fun h => ?_⟩
  have hsmall := hbetween.mp h
  norm_num at hsmall

end Example

end Filter

end ObstacleTracking
