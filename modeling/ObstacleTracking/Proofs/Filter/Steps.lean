import Mathlib.Tactic.FieldSimp
import ObstacleTracking.Proofs.Filter.Mean
import ObstacleTracking.Proofs.Scalar.Field

/-!
# Steps in a row

Two time steps in a row predict what one step of their total length predicts, from any mean and
any covariance. The transitions of the steps multiply to that of their sum. The noise of the first
step is carried along by the second, and then makes up with its noise the noise of the sum: this
rests on the three powers of the step that the entries of the noise have, and on their factors.
-/

namespace ObstacleTracking

open Matrix

variable {K : Type} [Field K]

theorem Mat.exists_ofField [LinearOrder K] [ExactRoots K] {m n : ℕ} (a : Mat m n K) :
    ∃ b : Matrix (Fin m) (Fin n) K, a = Mat.ofField b :=
  ⟨a.get, Mat.eq_ofField fun _ _ => rfl⟩

/-! ### One axis -/

theorem axisTransition_mul (d e : K) :
    axisTransition e * axisTransition d = axisTransition (d + e) := by
  unfold axisTransition
  rw [mul_fin_two]
  simp

theorem axisTransition_transpose (d : K) : (axisTransition d)ᵀ = !![1, 0; d, 1] := by
  ext i j
  fin_cases i <;> fin_cases j <;> rfl

theorem axisNoise_add [CharZero K] (d e q : K) :
    axisTransition e * axisNoise d q * (axisTransition e)ᵀ + axisNoise e q =
      axisNoise (d + e) q := by
  have h2 : (2 : K) ≠ 0 := two_ne_zero
  have h3 : (3 : K) ≠ 0 := three_ne_zero
  rw [axisTransition_transpose]
  unfold axisTransition axisNoise
  rw [mul_fin_two, mul_fin_two]
  ext i j
  fin_cases i <;> fin_cases j
  · simp
    field_simp
    ring
  · simp
    field_simp
    ring
  · simp
    field_simp
    ring
  · simp
    ring

/-! ### All axes -/

section Axes

variable (d e h v : K)

/-- The transition of a step, and its noise for a horizontal and a vertical intensity. -/
def stepTransition : Matrix (Fin 6) (Fin 6) K := ofAxes fun _ => axisTransition d

def stepNoise : Matrix (Fin 6) (Fin 6) K :=
  ofAxes fun k => axisNoise d (if k.val < 2 then h else v)

theorem stepTransition_mul : stepTransition e * stepTransition d = stepTransition (d + e) := by
  unfold stepTransition
  rw [ofAxes_mul, axisTransition_mul]

variable [CharZero K]

theorem stepNoise_add :
    stepTransition e * stepNoise d h v * (stepTransition e)ᵀ + stepNoise e h v =
      stepNoise (d + e) h v := by
  have hblocks : ((fun k : Fin 3 => axisTransition e * axisNoise d (if k.val < 2 then h else v) *
      (axisTransition e)ᵀ) + fun k : Fin 3 => axisNoise e (if k.val < 2 then h else v)) =
      fun k => axisNoise (d + e) (if k.val < 2 then h else v) :=
    funext fun k => axisNoise_add d e _
  unfold stepTransition stepNoise
  rw [ofAxes_transpose, ofAxes_mul, ofAxes_mul, ofAxes_add, hblocks]

/-- What a covariance becomes in two steps. -/
theorem stepTransition_congruence (p : Matrix (Fin 6) (Fin 6) K) :
    stepTransition e * (stepTransition d * p * (stepTransition d)ᵀ + stepNoise d h v) *
        (stepTransition e)ᵀ + stepNoise e h v =
      stepTransition (d + e) * p * (stepTransition (d + e))ᵀ + stepNoise (d + e) h v := by
  rw [← stepTransition_mul, ← stepNoise_add, transpose_mul]
  simp only [mul_add, add_mul, mul_assoc, add_assoc]

end Axes

/-! ### Prediction -/

namespace Filter

variable [LinearOrder K] [ExactRoots K]

theorem isStep_of_lt {d : K} (h : Scalar.doubleSpacing < d) : isStep d = true := by
  unfold isStep
  rw [Bool.and_eq_true, decide_eq_true_iff]
  exact ⟨rfl, h⟩

variable [IsStrictOrderedRing K]

theorem doubleSpacing_pos : (0 : K) < Scalar.doubleSpacing := by
  unfold Scalar.doubleSpacing Scalar.ratio
  norm_num

theorem predict_eq (c : FilterConfig K) (mean : MotionState K) (p : Matrix (Fin 6) (Fin 6) K)
    {d : K} (hd : Scalar.doubleSpacing < d) :
    predict c ⟨mean, Mat.ofField p⟩ d =
      ⟨MotionState.ofParts (mean.position + mean.velocity * d) mean.velocity,
        Mat.ofField (stepTransition d * p * (stepTransition d)ᵀ +
          stepNoise d c.horizontalNoise c.verticalNoise)⟩ := by
  have htransition : transition d = (Mat.ofField (stepTransition d) : Mat 6 6 K) :=
    transition_ofField d
  have hnoise : processNoise c d =
      (Mat.ofField (stepNoise d c.horizontalNoise c.verticalNoise) : Mat 6 6 K) :=
    processNoise_ofField rfl rfl d
  unfold predict
  rw [if_pos (isStep_of_lt hd)]
  dsimp only
  rw [transition_mul, htransition, hnoise, Mat.ofField_transpose, Mat.ofField_mul, Mat.ofField_mul,
    Mat.ofField_add]

/-- Two steps that count predict what the step of their sum predicts. -/
theorem predict_predict (c : FilterConfig K) (e : Estimate K) {d₁ d₂ : K}
    (h₁ : Scalar.doubleSpacing < d₁) (h₂ : Scalar.doubleSpacing < d₂) :
    predict c (predict c e d₁) d₂ = predict c e (d₁ + d₂) := by
  obtain ⟨mean, covariance⟩ := e
  obtain ⟨p, rfl⟩ := Mat.exists_ofField covariance
  have h : Scalar.doubleSpacing < d₁ + d₂ :=
    h₁.trans (lt_add_of_pos_right _ (doubleSpacing_pos.trans h₂))
  rw [predict_eq c mean p h₁, predict_eq c _ _ h₂, predict_eq c mean p h, stepTransition_congruence]
  congr 1
  apply MotionState.ext_parts
  · rw [MotionState.position_ofParts, MotionState.position_ofParts, MotionState.position_ofParts,
      MotionState.velocity_ofParts]
    apply Vec3.ext <;> simp <;> ring
  · rfl

end Filter

end ObstacleTracking
