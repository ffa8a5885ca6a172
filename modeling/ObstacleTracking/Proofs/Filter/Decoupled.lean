import ObstacleTracking.Proofs.Scalar.Field
import ObstacleTracking.Proofs.Config.Standard
import ObstacleTracking.Proofs.Filter.OneAxis
import ObstacleTracking.Proofs.Linear.Length

/-!
# Three filters on lines

From every covariance that the filter reaches, predictions and corrections act on each axis as the
filter on a line does, and no entries of different axes come to correlate. A correction whose change
of velocity is too long takes the same part of it on all axes.
-/

namespace ObstacleTracking

variable {K : Type} [Field K] [LinearOrder K] [ExactRoots K]

/-- Entries of different axes are zero; the axis of an entry is its place modulo three. -/
def Mat.AxesApart (p : Mat 6 6 K) : Prop := ∀ i j : Fin 6, i.val % 3 ≠ j.val % 3 → p i j = 0

namespace Filter

/-- The correction on an axis with only a part of its change of velocity. -/
noncomputable def shortenedOnAxis (c : FilterConfig K) (e : Estimate K) (anchor : Vec3 K)
    (score dt part : K) (k : Fin 3) : AxisEstimate K :=
  let corrected := correctedOnAxis c e anchor score dt k
  let velocity := ((predict c e dt).onAxis k).mean 1
  { corrected with mean := ![corrected.mean 0, velocity + (corrected.mean 1 - velocity) * part] }

/-- The changes of velocity that the filters on the axes make of an observation. -/
def IsVelocityChange (c : FilterConfig K) (e : Estimate K) (anchor : Vec3 K) (score dt : K)
    (change : Vec3 K) : Prop :=
  ∀ k, change.onAxis k =
    (correctedOnAxis c e anchor score dt k).mean 1 - ((predict c e dt).onAxis k).mean 1

variable {c : FilterConfig K} {e : Estimate K} {anchor : Vec3 K} {score dt : K} {velocity : Vec3 K}

theorem exists_isVelocityChange (c : FilterConfig K) (e : Estimate K) (anchor : Vec3 K)
    (score dt : K) : ∃ change, IsVelocityChange c e anchor score dt change :=
  Vec3.exists_onAxis _

theorem IsVelocityChange.eq_velocity (hvelocity : IsVelocityChange c e anchor score dt velocity)
    {change : MotionState K}
    (h : ∀ k, MotionState.onAxis (predict c e dt).mean k + MotionState.onAxis change k =
      (correctedOnAxis c e anchor score dt k).mean) :
    change.velocity = velocity := by
  have hentry : ∀ k, MotionState.onAxis change k 1 = velocity.onAxis k := by
    intro k
    rw [hvelocity k, ← h k]
    exact (add_sub_cancel_left _ _).symm
  exact Vec3.ext (hentry 0) (hentry 1) (hentry 2)

variable [IsStrictOrderedRing K]

/-- An update corrects if its step counts and its score is not too high, and shortens the change of
velocity only if it is too long. -/
theorem outcome_update_eq (hc : c.error? = none) (he : IsSound e.covariance)
    (hstep : isStep dt = true) (hscore : ¬ c.scoreMaximum < score)
    (hvelocity : IsVelocityChange c e anchor score dt velocity) :
    (update c e anchor score dt).outcome =
      if c.velocityCorrectionMaximum < velocity.norm then .breakdown else .corrected := by
  obtain ⟨change, hmean, hupdate⟩ := exists_change_update hc he hstep hscore anchor
  rw [hupdate, ← hvelocity.eq_velocity hmean]
  unfold limit
  dsimp only
  split
  · rfl
  · rfl

theorem onAxis_update_of_corrected (hc : c.error? = none) (he : IsSound e.covariance)
    (h : (update c e anchor score dt).outcome = .corrected) (k : Fin 3) :
    (update c e anchor score dt).estimate.onAxis k = correctedOnAxis c e anchor score dt k := by
  obtain ⟨hstep, hscore⟩ := not_rejected_of_applied (Or.inl h)
  obtain ⟨change, hmean, hupdate⟩ := exists_change_update hc he hstep hscore anchor
  rw [hupdate] at h ⊢
  apply AxisEstimate.ext
  · show MotionState.onAxis (MotionState.plus (predict c e dt).mean (limit c change).1) k = _
    rw [limit_of_corrected h, MotionState.onAxis_plus, hmean]
  · exact Mat.onAxis_ofField _ k

theorem onAxis_update_of_breakdown (hc : c.error? = none) (he : IsSound e.covariance)
    (h : (update c e anchor score dt).outcome = .breakdown)
    (hvelocity : IsVelocityChange c e anchor score dt velocity) (k : Fin 3) :
    (update c e anchor score dt).estimate.onAxis k = shortenedOnAxis c e anchor score dt
      (c.velocityCorrectionMaximum / velocity.norm) k := by
  obtain ⟨hstep, hscore⟩ := not_rejected_of_applied (Or.inr h)
  obtain ⟨change, hmean, hupdate⟩ := exists_change_update hc he hstep hscore anchor
  rw [hupdate] at h ⊢
  obtain ⟨-, hlimit⟩ := limit_of_breakdown h
  rw [hvelocity.eq_velocity hmean] at hlimit
  apply AxisEstimate.ext
  · show MotionState.onAxis (MotionState.plus (predict c e dt).mean (limit c change).1) k = _
    have hchange := hmean k
    rw [MotionState.onAxis_eq change] at hchange
    rw [hlimit, MotionState.onAxis_plus, MotionState.onAxis_ofParts, Vec3.onAxis_mul, hvelocity k]
    ext i
    fin_cases i
    · exact congrFun hchange 0
    · rfl
  · exact Mat.onAxis_ofField _ k

/-- The change of velocity is shortened only if it is too long. -/
theorem maximum_lt_norm_of_breakdown (hc : c.error? = none) (he : IsSound e.covariance)
    (h : (update c e anchor score dt).outcome = .breakdown)
    (hvelocity : IsVelocityChange c e anchor score dt velocity) :
    c.velocityCorrectionMaximum < velocity.norm := by
  obtain ⟨hstep, hscore⟩ := not_rejected_of_applied (Or.inr h)
  by_contra hshort
  rw [outcome_update_eq hc he hstep hscore hvelocity, if_neg hshort] at h
  cases h

/-- Predictions and corrections act on each axis as the filter on a line does, from every reachable
covariance and with any mean: with the covariance block of the axis, its noise intensity, and the
observed point and the velocity that leads to it as measurements of equal noise. A correction whose
change of velocity is too long has the positions and covariances of the filters on the lines, and of
their three changes of velocity the part that brings them to the longest length allowed. Entries of
different axes are and stay zero. -/
theorem reachable_actsOnAxes (hc : c.error? = none) {e₀ : Estimate K} (h : Reachable c e₀)
    (mean : MotionState K) (dt : K) :
    let e : Estimate K := ⟨mean, e₀.covariance⟩
    let predicted := predict c e dt
    (∀ k, predicted.onAxis k = (e.onAxis k).predict (c.noiseOnAxis k) dt) ∧
      predicted.covariance.AxesApart ∧
      ∀ (anchor : Vec3 K) (score : K),
        let u := update c e anchor score dt
        let corrected k := ((e.onAxis k).predict (c.noiseOnAxis k) dt).correct
          (c.measurementNoise * noiseScale c score)
          ![anchor.onAxis k, (anchor.onAxis k - e.position.onAxis k) / dt]
        let change : Fin 3 → K := fun k => (corrected k).mean 1 - (predicted.onAxis k).mean 1
        let length := (Vec3.mk (change 0) (change 1) (change 2)).norm
        let factor := c.velocityCorrectionMaximum / length
        u.estimate.covariance.AxesApart ∧
          (isStep dt = true → ¬ c.scoreMaximum < score → u.outcome =
            if c.velocityCorrectionMaximum < length then .breakdown else .corrected) ∧
          (u.outcome = .corrected → ∀ k, u.estimate.onAxis k = corrected k) ∧
          (u.outcome = .breakdown → ∀ k, u.estimate.onAxis k =
            ⟨![(corrected k).mean 0, (predicted.onAxis k).mean 1 + change k * factor],
              (corrected k).covariance⟩) := by
  intro e predicted
  have he : IsSound e.covariance := h.isSound hc
  refine ⟨onAxis_predict c he dt, (isSound_predict hc he dt).isCovariance.apart, ?_⟩
  intro anchor score u corrected change length factor
  have hchange : IsVelocityChange c e anchor score dt ⟨change 0, change 1, change 2⟩ := by
    intro k
    fin_cases k <;> rfl
  refine ⟨(isSound_update hc he anchor score dt).1.isCovariance.apart, ?_, ?_, ?_⟩
  · intro hstep hscore
    exact outcome_update_eq hc he hstep hscore hchange
  · intro houtcome k
    exact onAxis_update_of_corrected hc he houtcome k
  · intro houtcome k
    exact onAxis_update_of_breakdown hc he houtcome hchange k

section Example

attribute [local instance] ExactRoots.real

/-- An obstacle that was seen once at the origin and then missed in a frame of this length. -/
noncomputable def missedFor (dt : ℝ) : Estimate ℝ := predict .standard (initiate .standard 0) dt

theorem reachable_missed (dt : ℝ) : Reachable .standard (missedFor dt) :=
  (Reachable.initiate 0).predict dt

theorem isStep_tenth : isStep (1 / 10 : ℝ) = true := by
  apply isStep_of_lt
  unfold Scalar.doubleSpacing Scalar.ratio
  norm_num

theorem noise_standard : (FilterConfig.standard : FilterConfig ℝ).measurementNoise *
    noiseScale .standard (0 : ℝ) = 2 / 5 := by
  unfold noiseScale FilterConfig.standard
  dsimp only
  rw [if_pos rfl, ExactRoots.maxNum_eq, max_self, zero_div, add_zero, mul_one]
  unfold Scalar.ratio
  norm_num

theorem measurementNoise_standard :
    (FilterConfig.standard : FilterConfig ℝ).measurementNoise = 2 / 5 := by
  unfold FilterConfig.standard Scalar.ratio
  norm_num

/-- What is predicted under the usual configuration for an obstacle that was seen once. -/
theorem predict_standard {d : ℝ} (hd : isStep d = true) (k : Fin 3) :
    (predict .standard (initiate .standard 0) d).onAxis k =
      ⟨![0, 0], !![2 / 5 + 5 * (d * d) + 10 * (d * d * d) / 3, 5 * d + 10 * (d * d) / 2;
        5 * d + 10 * (d * d) / 2, 5 + 10 * d]⟩ := by
  have hvelocity : (FilterConfig.standard : FilterConfig ℝ).initialVelocityNoise = 5 :=
    Nat.cast_ofNat
  have hnoise : (FilterConfig.standard : FilterConfig ℝ).noiseOnAxis k = 10 := by
    fin_cases k <;> exact Nat.cast_ofNat
  rw [onAxis_predict_initiate (FilterConfig.error?_standard ℝ ℝ) 0 hd k, measurementNoise_standard,
    hvelocity, hnoise]
  fin_cases k <;> rfl

/-- The prediction for the frame after the missed one. -/
theorem predict_missed (k : Fin 3) :
    (predict .standard (missedFor (1 / 10)) (1 / 10)).onAxis k =
      ⟨![0, 0], !![47 / 75, 6 / 5; 6 / 5, 7]⟩ := by
  have hstep : Scalar.doubleSpacing < (1 / 10 : ℝ) := by
    unfold Scalar.doubleSpacing Scalar.ratio
    norm_num
  unfold missedFor
  rw [predict_predict _ _ hstep hstep, predict_standard (isStep_of_lt (by linarith))]
  norm_num

/-- The correction by the point that is observed after the missed frame. -/
theorem correctedOnAxis_missed (anchor : Vec3 ℝ) (k : Fin 3) :
    (correctedOnAxis .standard (missedFor (1 / 10)) anchor 0 (1 / 10) k).mean =
      ![2999 / 2309 * anchor.onAxis k, 21730 / 2309 * anchor.onAxis k] := by
  have hsound := (reachable_missed (1 / 10)).isSound (K := ℝ) (FilterConfig.error?_standard ℝ ℝ)
  have hpredicted := predict_missed k
  rw [onAxis_predict _ hsound] at hpredicted
  have hmean := mean_correctedOnAxis anchor 0 isStep_tenth
    (congrArg AxisEstimate.covariance hpredicted)
  dsimp only at hmean
  rw [hmean, hpredicted, noise_standard]
  unfold AxisEstimate.positionGain AxisEstimate.velocityGain AxisEstimate.innovationDet
  ext i
  fin_cases i
  · simp
    norm_num
  · simp
    norm_num

theorem isVelocityChange_missed (x : ℝ) :
    IsVelocityChange .standard (missedFor (1 / 10)) ⟨x, 0, 0⟩ 0 (1 / 10)
      ⟨21730 / 2309 * x, 0, 0⟩ := by
  intro k
  rw [correctedOnAxis_missed, predict_missed]
  fin_cases k <;> simp [Vec3.onAxis]

theorem norm_along {x : ℝ} (hx : 0 ≤ x) : (⟨x, 0, 0⟩ : Vec3 ℝ).norm = x := by
  refine ExactRoots.sqrt_eq hx ?_
  unfold Vec3.dot
  simp

theorem velocityCorrectionMaximum_standard :
    (FilterConfig.standard : FilterConfig ℝ).velocityCorrectionMaximum = 10 := Nat.cast_ofNat

theorem outcome_missed {x : ℝ} (hx : 0 ≤ x) :
    (update .standard (missedFor (1 / 10)) ⟨x, 0, 0⟩ 0 (1 / 10)).outcome =
      if 10 < 21730 / 2309 * x then .breakdown else .corrected := by
  have hc := FilterConfig.error?_standard ℝ ℝ
  have hsound := (reachable_missed (1 / 10)).isSound (K := ℝ) hc
  have hscore : ¬ (FilterConfig.standard : FilterConfig ℝ).scoreMaximum < 0 := by
    show ¬ ((4 : ℕ) : ℝ) < 0
    norm_num
  rw [outcome_update_eq hc hsound isStep_tenth hscore (isVelocityChange_missed x),
    velocityCorrectionMaximum_standard, norm_along (by positivity)]

/-- After a missed frame a near observation corrects the velocity freely and a far one by no more
than the longest change. -/
theorem actsOnAxes_missed :
    let near := update .standard (missedFor (1 / 10)) ⟨1 / 2, 0, 0⟩ 0 (1 / 10)
    let far := update .standard (missedFor (1 / 10)) ⟨50, 0, 0⟩ 0 (1 / 10)
    near.outcome = .corrected ∧ (near.estimate.onAxis 0).mean = ![2999 / 4618, 10865 / 2309] ∧
      far.outcome = .breakdown ∧ (far.estimate.onAxis 0).mean = ![149950 / 2309, 10] := by
  intro near far
  have hnear : near.outcome = .corrected := by
    show (update .standard (missedFor (1 / 10)) ⟨1 / 2, 0, 0⟩ 0 (1 / 10)).outcome = _
    rw [outcome_missed (by norm_num), if_neg (by norm_num)]
  have hfar : far.outcome = .breakdown := by
    show (update .standard (missedFor (1 / 10)) ⟨50, 0, 0⟩ 0 (1 / 10)).outcome = _
    rw [outcome_missed (by norm_num), if_pos (by norm_num)]
  obtain ⟨-, -, hact⟩ := reachable_actsOnAxes (FilterConfig.error?_standard ℝ ℝ)
    (reachable_missed (1 / 10)) (missedFor (1 / 10)).mean (1 / 10)
  obtain ⟨-, -, hcorrected, -⟩ := hact ⟨1 / 2, 0, 0⟩ 0
  obtain ⟨-, -, -, hbreakdown⟩ := hact ⟨50, 0, 0⟩ 0
  refine ⟨hnear, ?_, hfar, ?_⟩
  · have hmean := congrArg AxisEstimate.mean (hcorrected hnear 0)
    refine hmean.trans ((correctedOnAxis_missed ⟨1 / 2, 0, 0⟩ 0).trans ?_)
    ext i
    fin_cases i <;> simp [Vec3.onAxis] <;> norm_num
  · let change : Fin 3 → ℝ := fun k =>
      (correctedOnAxis .standard (missedFor (1 / 10)) ⟨50, 0, 0⟩ 0 (1 / 10) k).mean 1 -
        ((predict .standard (missedFor (1 / 10)) (1 / 10)).onAxis k).mean 1
    have hchange : (⟨change 0, change 1, change 2⟩ : Vec3 ℝ) = ⟨21730 / 2309 * 50, 0, 0⟩ :=
      Vec3.ext (isVelocityChange_missed 50 0).symm (isVelocityChange_missed 50 1).symm
        (isVelocityChange_missed 50 2).symm
    have hmean : (far.estimate.onAxis 0).mean =
        ![(correctedOnAxis .standard (missedFor (1 / 10)) ⟨50, 0, 0⟩ 0 (1 / 10) 0).mean 0,
          ((predict .standard (missedFor (1 / 10)) (1 / 10)).onAxis 0).mean 1 +
            (⟨change 0, change 1, change 2⟩ : Vec3 ℝ).x *
              ((FilterConfig.standard : FilterConfig ℝ).velocityCorrectionMaximum /
                (⟨change 0, change 1, change 2⟩ : Vec3 ℝ).norm)] :=
      congrArg AxisEstimate.mean (hbreakdown hfar 0)
    rw [hmean, hchange, norm_along (by norm_num), correctedOnAxis_missed, predict_missed,
      velocityCorrectionMaximum_standard]
    ext i
    fin_cases i <;> simp [Vec3.onAxis] <;> norm_num

end Example

end Filter

end ObstacleTracking
