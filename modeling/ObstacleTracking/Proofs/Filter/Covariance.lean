import ObstacleTracking.Config.Validity
import ObstacleTracking.Proofs.Filter.Axes

/-!
# Covariances of the motion filter

With a valid configuration every covariance of the filter is positive definite, does not mix the
axes and is the same on both horizontal axes, whatever the time steps, scores and observed points
are; these may also be infinite or no numbers. So the covariance of an innovation always has an
inverse.
-/

namespace ObstacleTracking

open Matrix ExactScalar

/-! ### Matrices that treat the horizontal axes alike -/

section Axes

variable {K : Type} [Field K]

/-- The axes are not mixed, and the two horizontal ones have the same block. -/
def AlikeAxes (a : Matrix (Fin 6) (Fin 6) K) : Prop :=
  ∃ m : Fin 3 → Matrix (Fin 2) (Fin 2) K, m 0 = m 1 ∧ a = ofAxes m

variable {a b : Matrix (Fin 6) (Fin 6) K}

namespace AlikeAxes

theorem one : AlikeAxes (1 : Matrix (Fin 6) (Fin 6) K) := ⟨1, rfl, ofAxes_one⟩

theorem add (ha : AlikeAxes a) (hb : AlikeAxes b) : AlikeAxes (a + b) := by
  obtain ⟨m, hm, rfl⟩ := ha
  obtain ⟨m', hm', rfl⟩ := hb
  refine ⟨m + m', ?_, ofAxes_add⟩
  rw [Pi.add_apply, Pi.add_apply, hm, hm']

theorem mul (ha : AlikeAxes a) (hb : AlikeAxes b) : AlikeAxes (a * b) := by
  obtain ⟨m, hm, rfl⟩ := ha
  obtain ⟨m', hm', rfl⟩ := hb
  refine ⟨fun k => m k * m' k, ?_, ofAxes_mul⟩
  dsimp only
  rw [hm, hm']

theorem smul (ha : AlikeAxes a) (r : K) : AlikeAxes (r • a) := by
  obtain ⟨m, hm, rfl⟩ := ha
  refine ⟨r • m, ?_, ofAxes_smul r⟩
  rw [Pi.smul_apply, Pi.smul_apply, hm]

theorem transpose (ha : AlikeAxes a) : AlikeAxes aᵀ := by
  obtain ⟨m, hm, rfl⟩ := ha
  refine ⟨fun k => (m k)ᵀ, ?_, ofAxes_transpose⟩
  dsimp only
  rw [hm]

theorem inv (ha : AlikeAxes a) (hdet : a.det ≠ 0) : AlikeAxes a⁻¹ := by
  obtain ⟨m, hm, rfl⟩ := ha
  refine ⟨fun k => (m k)⁻¹, ?_, ofAxes_inv hdet⟩
  dsimp only
  rw [hm]

end AlikeAxes

end Axes

/-! ### Valid configurations -/

variable {K α : Type} [Field K] [LinearOrder K] [Scalar α] [ExactScalar K α]

theorem exists_pos_of_fault?_eq_none {name : String} {a : α}
    (h : Requirement.positive.fault? name a = none) : ∃ x : K, 0 < x ∧ a = ofField x := by
  unfold Requirement.fault? at h
  by_cases hholds : Requirement.positive.holds a = true
  · unfold Requirement.holds at hholds
    obtain ⟨hfinite, hpos⟩ := Bool.and_eq_true_iff.mp hholds
    exact exists_pos hfinite (of_decide_eq_true hpos)
  · rw [if_neg hholds] at h
    cases h

/-- The noises and the largest score of a valid configuration are positive. -/
theorem exists_pos_of_error?_eq_none {c : FilterConfig α} (h : c.error? = none) :
    ∃ r p q s m : K, (0 < r ∧ 0 < p ∧ 0 < q ∧ 0 < s ∧ 0 < m) ∧
      c.measurementNoise = ofField r ∧ c.initialVelocityNoise = ofField p ∧
      c.horizontalNoise = ofField q ∧ c.verticalNoise = ofField s ∧ c.scoreMaximum = ofField m := by
  unfold FilterConfig.error? at h
  simp only [Option.or_eq_none_iff] at h
  obtain ⟨hr, hp, hq, hs, hm, -⟩ := h
  obtain ⟨r, hr, hreq⟩ := exists_pos_of_fault?_eq_none (K := K) hr
  obtain ⟨p, hp, hpeq⟩ := exists_pos_of_fault?_eq_none (K := K) hp
  obtain ⟨q, hq, hqeq⟩ := exists_pos_of_fault?_eq_none (K := K) hq
  obtain ⟨s, hs, hseq⟩ := exists_pos_of_fault?_eq_none (K := K) hs
  obtain ⟨m, hm, hmeq⟩ := exists_pos_of_fault?_eq_none (K := K) hm
  exact ⟨r, p, q, s, m, ⟨hr, hp, hq, hs, hm⟩, hreq, hpeq, hqeq, hseq, hmeq⟩

/-! ### The invariant -/

/-- A matrix of finite values that is positive definite and treats the horizontal axes alike. -/
def IsSound (p : Mat 6 6 α) : Prop :=
  ∃ a : Matrix (Fin 6) (Fin 6) K, p = Mat.ofField a ∧ IsPositive a ∧ AlikeAxes a

/-- What an invariant of the filter promises of a covariance, entry by entry: positions are the
first three entries of a state and velocities the last three, in the order of the axes. -/
structure IsCovariance (p : Mat 6 6 α) : Prop where
  finite : ∀ i j, Scalar.isFinite (p i j) = true
  symmetric : p.transpose = p
  /-- Different axes do not correlate. -/
  apart : ∀ i j : Fin 6, i.val % 3 ≠ j.val % 3 → p i j = 0
  /-- The horizontal axes have the same block. -/
  horizontal : p 0 0 = p 1 1 ∧ p 0 3 = p 1 4 ∧ p 3 0 = p 4 1 ∧ p 3 3 = p 4 4
  /-- The quadratic form is positive. -/
  definite : ∀ v : Fin 6 → K, v ≠ 0 → 0 < ∑ i, ∑ j, v i * value (p i j) * v j

theorem IsSound.isCovariance {p : Mat 6 6 α} (h : IsSound p) : IsCovariance p := by
  obtain ⟨a, rfl, hpositive, m, hm, rfl⟩ := h
  have hplace : ∀ x y : Fin 2 × Fin 3, (Mat.ofField (ofAxes m) : Mat 6 6 α) (place x) (place y) =
      if x.2 = y.2 then ofField (m x.2 x.1 y.1) else 0 := by
    intro x y
    rw [Mat.get_ofField, ofAxes_place]
    split
    · rfl
    · exact zero_eq.symm
  have hblock : ∀ i j : Fin 2, (Mat.ofField (ofAxes m) : Mat 6 6 α) (place (i, 0)) (place (j, 0)) =
      (Mat.ofField (ofAxes m) : Mat 6 6 α) (place (i, 1)) (place (j, 1)) := by
    intro i j
    rw [hplace, hplace, if_pos rfl, if_pos rfl, hm]
  refine ⟨?_, ?_, ?_, ⟨hblock 0 0, hblock 0 1, hblock 1 0, hblock 1 1⟩, ?_⟩
  · intro i j
    rw [Mat.get_ofField]
    exact isFinite_ofField _
  · rw [Mat.ofField_transpose, hpositive.symmetric]
  · intro i j hne
    obtain ⟨x, rfl⟩ := place.surjective i
    obtain ⟨y, rfl⟩ := place.surjective j
    rw [hplace, if_neg]
    intro heq
    rw [val_place, val_place, heq] at hne
    omega
  · intro v hv
    have hform : v ⬝ᵥ ofAxes m *ᵥ v =
        ∑ i, ∑ j, v i * value ((Mat.ofField (ofAxes m) : Mat 6 6 α) i j) * v j := by
      simp only [dotProduct, mulVec, Finset.mul_sum, Mat.get_ofField, value_ofField, mul_assoc]
    rw [← hform]
    exact hpositive.positive v hv

variable {c : FilterConfig α}

theorem innovationCovariance_ofField {r k : K} (hr : c.measurementNoise = ofField r)
    (a : Matrix (Fin 6) (Fin 6) K) :
    Filter.innovationCovariance c (Mat.ofField a) (ofField k) = Mat.ofField (a + (r * k) • 1) := by
  unfold Filter.innovationCovariance
  rw [hr, mul_ofField, Mat.ofField_one, Mat.ofField_scale, Mat.ofField_add]

variable [IsStrictOrderedRing K]

theorem isSound_initiate (hc : c.error? = none) (anchor : Vec3 α) :
    IsSound (Filter.initiate c anchor).covariance := by
  obtain ⟨r, p, -, -, -, ⟨hr, hp, -⟩, hreq, hpeq, -⟩ := exists_pos_of_error?_eq_none (K := K) hc
  have hblock : IsPositive (axisInitial r p) := by
    refine isPositive_fin_two hr ?_
    rw [mul_zero, sub_zero]
    exact mul_pos hr hp
  refine ⟨ofAxes fun _ => axisInitial r p, ?_, isPositive_ofAxes fun _ => hblock, _, rfl, rfl⟩
  rw [← initial_ofField, Filter.initiate, hreq, hpeq]

theorem exists_pos_of_isStep {dt : α} (h : Filter.isStep dt = true) :
    ∃ d : K, 0 < d ∧ dt = ofField d := by
  unfold Filter.isStep at h
  obtain ⟨hfinite, hlt⟩ := Bool.and_eq_true_iff.mp h
  obtain ⟨d, rfl⟩ := exists_of_isFinite (K := K) hfinite
  have hlt := of_decide_eq_true hlt
  unfold Scalar.doubleSpacing at hlt
  rw [ratio_eq 1 (by norm_num : Nat.pow 2 52 ≠ 0), lt_ofField] at hlt
  refine ⟨d, lt_trans ?_ hlt, rfl⟩
  norm_num

theorem isPositive_axisNoise {d q : K} (hd : 0 < d) (hq : 0 < q) : IsPositive (axisNoise d q) := by
  refine isPositive_fin_two (by positivity) ?_
  have hdet : q * (d * d * d) / (3 : ℕ) * (q * d) - q * (d * d) / (2 : ℕ) * (q * (d * d) / (2 : ℕ)) =
      q * q * (d * d * d * d) / 12 := by
    push_cast
    ring
  rw [hdet]
  positivity

theorem isSound_predict (hc : c.error? = none) {e : Estimate α} (he : IsSound e.covariance)
    (dt : α) : IsSound (Filter.predict c e dt).covariance := by
  unfold Filter.predict
  by_cases hstep : Filter.isStep dt = true
  · rw [if_pos hstep]
    obtain ⟨d, hd, rfl⟩ := exists_pos_of_isStep hstep
    obtain ⟨-, -, q, s, -, ⟨-, -, hq, hs, -⟩, -, -, hqeq, hseq, -⟩ :=
      exists_pos_of_error?_eq_none (K := K) hc
    obtain ⟨a, ha, hpositive, halike⟩ := he
    have hdet : (ofAxes fun _ => axisTransition d).det ≠ 0 := by
      rw [det_ofAxes]
      refine Finset.prod_ne_zero_iff.mpr fun _ _ => ?_
      rw [axisTransition, det_fin_two_of]
      norm_num
    have hnoise : IsPositive (ofAxes fun k => axisNoise d (if k.val < 2 then q else s)) := by
      refine isPositive_ofAxes fun k => isPositive_axisNoise hd ?_
      split
      · exact hq
      · exact hs
    have htransition : AlikeAxes (ofAxes fun _ => axisTransition d) := ⟨_, rfl, rfl⟩
    refine ⟨_, ?_, (hpositive.congruence hdet).add hnoise,
      ((htransition.mul halike).mul htransition.transpose).add ⟨_, rfl, rfl⟩⟩
    dsimp only
    rw [ha, transition_ofField, processNoise_ofField hqeq hseq, Mat.ofField_transpose,
      Mat.ofField_mul, Mat.ofField_mul, Mat.ofField_add]
  · rw [if_neg hstep]
    exact he

/-! ### Corrections -/

theorem exists_pos_noiseScale (hc : c.error? = none) {score : α} (h : ¬ c.scoreMaximum < score) :
    ∃ r : K, 0 < r ∧ Filter.noiseScale c score = ofField r := by
  obtain ⟨-, -, -, -, m, ⟨-, -, -, -, hm⟩, -, -, -, -, hmeq⟩ :=
    exists_pos_of_error?_eq_none (K := K) hc
  unfold Filter.noiseScale
  by_cases hadaptive : c.adaptive = true
  · rw [hmeq] at h
    obtain ⟨x, hx, hxeq⟩ := exists_nonneg_maxNum h
    rw [if_pos hadaptive, hmeq, hxeq, div_ofField _ _ hm.ne', one_eq, add_ofField]
    exact ⟨1 + x / m, by positivity, rfl⟩
  · rw [if_neg hadaptive]
    exact ⟨1, one_pos, one_eq⟩

theorem symmetrize_ofField {a : Matrix (Fin 6) (Fin 6) K} (h : aᵀ = a) :
    Filter.symmetrize (Mat.ofField a : Mat 6 6 α) = Mat.ofField a := by
  have hhalf : (1 / 2 : K) • (a + a) = a := by
    rw [smul_add, ← add_smul, add_halves, one_smul]
  unfold Filter.symmetrize
  rw [Mat.ofField_transpose, Mat.ofField_add, half_eq, Mat.ofField_scale, h, hhalf]

theorem limit_applied (change : MotionState α) :
    (Filter.limit c change).2 = .corrected ∨ (Filter.limit c change).2 = .breakdown := by
  unfold Filter.limit
  dsimp only
  split
  · exact Or.inr rfl
  · exact Or.inl rfl

theorem limit_ne_singular (change : MotionState α) : (Filter.limit c change).2 ≠ .singular := by
  rcases limit_applied (c := c) change with h | h
  · rw [h]
    exact Filter.Outcome.noConfusion
  · rw [h]
    exact Filter.Outcome.noConfusion

/-- An observation that does not score too high is applied, or no inverse is found. -/
theorem outcome_update (c : FilterConfig α) (e : Estimate α) (anchor : Vec3 α) {score dt : α}
    (hstep : Filter.isStep dt = true) (hscore : ¬ c.scoreMaximum < score) :
    let outcome := (Filter.update c e anchor score dt).outcome
    outcome = .singular ∨ outcome = .corrected ∨ outcome = .breakdown := by
  unfold Filter.update
  rw [if_pos hstep]
  dsimp only
  rw [if_neg hscore]
  split
  · exact Or.inl rfl
  · exact Or.inr (limit_applied _)

/-- A correction with the true inverse of the innovation covariance. -/
theorem isSound_correct {a : Matrix (Fin 6) (Fin 6) K} (hpositive : IsPositive a)
    (halike : AlikeAxes a) {r : K} (hr : 0 < r) (mean observed : MotionState α) :
    IsSound (Filter.correct c ⟨mean, Mat.ofField a⟩ (Mat.ofField (a + r • 1))
      (Mat.ofField (a + r • 1)⁻¹) observed).estimate.covariance := by
  have hcorrected := hpositive.correct hr
  have hsum : AlikeAxes (a⁻¹ + r⁻¹ • 1) :=
    (halike.inv hpositive.det_ne_zero).add (AlikeAxes.one.smul r⁻¹)
  refine ⟨_, ?_, hcorrected, ?_⟩
  · dsimp only [Filter.correct]
    rw [Mat.ofField_mul, Mat.ofField_transpose, Mat.ofField_mul, Mat.ofField_mul, Mat.ofField_sub,
      symmetrize_ofField hcorrected.symmetric]
  · rw [hpositive.correct_eq hr]
    exact hsum.inv (hpositive.inv.add (IsPositive.smul_one (inv_pos.mpr hr))).det_ne_zero

/-- An observation keeps the covariance sound, and its innovation covariance has an inverse. -/
theorem isSound_update (hc : c.error? = none) {e : Estimate α} (he : IsSound e.covariance)
    (anchor : Vec3 α) (score dt : α) :
    IsSound (Filter.update c e anchor score dt).estimate.covariance ∧
      (Filter.update c e anchor score dt).outcome ≠ .singular := by
  have hpredicted := isSound_predict hc he dt
  unfold Filter.update
  by_cases hstep : Filter.isStep dt = true
  · rw [if_pos hstep]
    dsimp only
    by_cases hscore : c.scoreMaximum < score
    · rw [if_pos hscore]
      exact ⟨hpredicted, Filter.Outcome.noConfusion⟩
    · rw [if_neg hscore]
      generalize Filter.predict c e dt = predicted at hpredicted
      obtain ⟨mean, covariance⟩ := predicted
      obtain ⟨a, rfl, hpositive, halike⟩ := hpredicted
      obtain ⟨r, -, -, -, -, ⟨hr, -⟩, hreq, -⟩ := exists_pos_of_error?_eq_none (K := K) hc
      obtain ⟨k, hk, hkeq⟩ := exists_pos_noiseScale hc hscore
      have hdet := (hpositive.add (IsPositive.smul_one (mul_pos hr hk))).det_ne_zero
      dsimp only
      rw [hkeq, innovationCovariance_ofField hreq, Mat.inverse?_ofField hdet]
      dsimp only
      exact ⟨isSound_correct hpositive halike (mul_pos hr hk) mean _, limit_ne_singular _⟩
  · rw [if_neg hstep]
    exact ⟨he, Filter.Outcome.noConfusion⟩

end ObstacleTracking
