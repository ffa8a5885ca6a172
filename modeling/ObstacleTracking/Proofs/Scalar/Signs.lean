import ObstacleTracking.Proofs.Scalar.ExactNumber
import ObstacleTracking.Proofs.Scalar.Field

/-!
# Signs

What arithmetic does with signs, said without an order: a value is not below zero if it is zero, of
either sign, positive, or not a number. Sums, products, quotients and roots of such values are not
below zero, with or without rounding.
-/

namespace ObstacleTracking

/-- A scalar type whose operations make nothing negative out of what is not. -/
class SignedScalar (α : Type) [Scalar α] : Prop where
  not_neg_lt {a : α} : a < 0 → ¬ -a < 0
  not_add_lt {a b : α} : ¬ a < 0 → ¬ b < 0 → ¬ a + b < 0
  not_sub_lt {a b : α} : ¬ b < a → ¬ b - a < 0
  not_mul_self_lt (a : α) : ¬ a * a < 0
  not_mul_lt {a b : α} : ¬ a < 0 → ¬ b < 0 → ¬ a * b < 0
  not_div_lt {a b : α} : ¬ a < 0 → ¬ b ≤ 0 → ¬ a / b < 0
  not_sqrt_lt {a : α} : ¬ a < 0 → ¬ Scalar.sqrt a < 0
  le_trans {a b c : α} : a ≤ b → b ≤ c → a ≤ c

namespace SignedScalar

variable {α : Type} [Scalar α] [SignedScalar α]

theorem not_abs_lt (a : α) : ¬ Scalar.abs a < 0 := by
  unfold Scalar.abs
  split
  case isTrue h => exact not_neg_lt h
  case isFalse h => exact h

omit [SignedScalar α] in
theorem not_minNum_lt {a b : α} (ha : ¬ a < 0) (hb : ¬ b < 0) : ¬ Scalar.minNum a b < 0 := by
  unfold Scalar.minNum
  split
  · exact ha
  · split
    · exact hb
    · exact ha

omit [SignedScalar α] in
theorem not_lt_clamp {lo hi : α} (hlo : ¬ hi < lo) (hhi : ¬ hi < hi) (a : α) :
    ¬ hi < Scalar.clamp lo hi a := by
  unfold Scalar.clamp
  split
  · exact hlo
  · split
    · exact hhi
    · assumption

theorem not_foldl_add_lt {l : List α} (hl : ∀ x ∈ l, ¬ x < 0) {s : α} (hs : ¬ s < 0) :
    ¬ l.foldl (· + ·) s < 0 := by
  induction l generalizing s with
  | nil => exact hs
  | cons x l ih =>
    have hx := hl x List.mem_cons_self
    exact ih (fun y hy => hl y (List.mem_cons_of_mem x hy)) (not_add_lt hs hx)

/-! ### Lengths -/

theorem not_dot_self_lt (v : Vec2 α) : ¬ v.dot v < 0 :=
  not_add_lt (not_mul_self_lt v.x) (not_mul_self_lt v.y)

theorem not_norm_lt (v : Vec2 α) : ¬ v.norm < 0 := not_sqrt_lt (not_dot_self_lt v)

/-! ### Constants and finite values -/

section Exact

open ExactScalar

variable (K : Type) [Field K] [LinearOrder K] [ExactScalar K α]

include K

omit [SignedScalar α] in
/-- A finite value that is not below zero is at least zero. -/
theorem nonneg_of_not_lt {a : α} (hfinite : Scalar.isFinite a = true) (h : ¬ a < 0) : 0 ≤ a := by
  obtain ⟨x, rfl⟩ := exists_of_isFinite hfinite
  rw [zero_eq, lt_ofField, not_lt] at h
  rw [zero_eq, le_ofField]
  exact h

omit [SignedScalar α] in
theorem not_zero_lt : ¬ (0 : α) < 0 := by
  rw [zero_eq, lt_ofField]
  exact lt_irrefl 0

variable [IsStrictOrderedRing K]

omit [SignedScalar α] in
theorem not_natCast_le {n : ℕ} (hn : 0 < n) : ¬ (n : α) ≤ 0 := by
  rw [natCast_eq, zero_eq, le_ofField, not_le]
  exact Nat.cast_pos.mpr hn

end Exact

end SignedScalar

/-! ### Ordered fields -/

namespace ExactRoots

instance signedScalar {K : Type} [Field K] [LinearOrder K] [IsStrictOrderedRing K]
    [ExactRoots K] : SignedScalar K where
  not_neg_lt h := not_lt.mpr (neg_nonneg.mpr h.le)
  not_add_lt ha hb := not_lt.mpr (add_nonneg (not_lt.mp ha) (not_lt.mp hb))
  not_sub_lt h := not_lt.mpr (sub_nonneg.mpr (not_lt.mp h))
  not_mul_self_lt a := not_lt.mpr (mul_self_nonneg a)
  not_mul_lt ha hb := not_lt.mpr (mul_nonneg (not_lt.mp ha) (not_lt.mp hb))
  not_div_lt ha hb := not_lt.mpr (div_nonneg (not_lt.mp ha) (not_le.mp hb).le)
  not_sqrt_lt ha := not_lt.mpr (sqrt_nonneg (not_lt.mp ha))
  le_trans := le_trans

end ExactRoots

/-! ### Exact numbers -/

namespace ExactNumber

/-- What is not below zero is a number that is not, positively infinite, or not a number. -/
theorem not_lt_cases {a : ExactNumber} (h : ¬ a < 0) :
    (∃ x : ℝ, 0 ≤ x ∧ a = real x) ∨ a = infinite false ∨ a = notNumber := by
  cases a with
  | real x => exact Or.inl ⟨x, not_lt.mp (show ¬ x < 0 from h), rfl⟩
  | infinite s =>
    cases s with
    | false => exact Or.inr (Or.inl rfl)
    | true => exact absurd rfl h
  | notNumber => exact Or.inr (Or.inr rfl)

theorem not_real_lt {x : ℝ} (h : 0 ≤ x) : ¬ real x < 0 := not_lt_of_ge h

theorem not_infinite_lt : ¬ infinite false < 0 := Bool.false_ne_true

theorem not_notNumber_lt : ¬ notNumber < 0 := id

theorem not_scaleInfinite_lt {x : ℝ} (h : 0 ≤ x) : ¬ scaleInfinite false x < 0 := by
  unfold scaleInfinite
  split
  · exact not_notNumber_lt
  · rw [decide_eq_false (not_lt_of_ge h)]
    exact not_infinite_lt

theorem not_add_lt {a b : ExactNumber} (ha : ¬ a < 0) (hb : ¬ b < 0) : ¬ a + b < 0 := by
  rcases not_lt_cases ha with ⟨x, hx, rfl⟩ | rfl | rfl <;>
    rcases not_lt_cases hb with ⟨y, hy, rfl⟩ | rfl | rfl
  · exact not_real_lt (add_nonneg hx hy)
  all_goals first | exact not_infinite_lt | exact not_notNumber_lt

theorem not_sub_lt {a b : ExactNumber} (h : ¬ b < a) : ¬ b - a < 0 := by
  cases a with
  | real x =>
    cases b with
    | real y =>
      refine not_real_lt ?_
      have hle : x ≤ y := not_lt.mp (show ¬ y < x from h)
      linarith
    | infinite s =>
      cases s with
      | false => exact not_infinite_lt
      | true => exact absurd rfl h
    | notNumber => exact not_notNumber_lt
  | infinite s =>
    cases b with
    | real y =>
      cases s with
      | false => exact absurd rfl h
      | true => exact not_infinite_lt
    | infinite t =>
      cases s <;> cases t
      · exact not_notNumber_lt
      · exact absurd ⟨rfl, rfl⟩ h
      · exact not_infinite_lt
      · exact not_notNumber_lt
    | notNumber => exact not_notNumber_lt
  | notNumber => cases b <;> exact not_notNumber_lt

theorem not_mul_self_lt (a : ExactNumber) : ¬ a * a < 0 := by
  cases a with
  | real x => exact not_real_lt (mul_self_nonneg x)
  | infinite s => cases s <;> exact not_infinite_lt
  | notNumber => exact not_notNumber_lt

theorem not_mul_lt {a b : ExactNumber} (ha : ¬ a < 0) (hb : ¬ b < 0) : ¬ a * b < 0 := by
  rcases not_lt_cases ha with ⟨x, hx, rfl⟩ | rfl | rfl <;>
    rcases not_lt_cases hb with ⟨y, hy, rfl⟩ | rfl | rfl
  · exact not_real_lt (mul_nonneg hx hy)
  · exact not_scaleInfinite_lt hx
  · exact not_notNumber_lt
  · exact not_scaleInfinite_lt hy
  all_goals first | exact not_infinite_lt | exact not_notNumber_lt

theorem not_div_lt {a b : ExactNumber} (ha : ¬ a < 0) (hb : ¬ b ≤ 0) : ¬ a / b < 0 := by
  have hpos : (∃ y : ℝ, 0 < y ∧ b = real y) ∨ b = infinite false ∨ b = notNumber := by
    cases b with
    | real y => exact Or.inl ⟨y, not_le.mp (show ¬ y ≤ 0 from hb), rfl⟩
    | infinite s =>
      cases s with
      | false => exact Or.inr (Or.inl rfl)
      | true => exact absurd rfl hb
    | notNumber => exact Or.inr (Or.inr rfl)
  rcases not_lt_cases ha with ⟨x, hx, rfl⟩ | rfl | rfl <;>
    rcases hpos with ⟨y, hy, rfl⟩ | rfl | rfl
  · have hquotient : real x / real y = real (x / y) := if_neg hy.ne'
    rw [hquotient]
    exact not_real_lt (div_nonneg hx hy.le)
  · exact not_real_lt le_rfl
  · exact not_notNumber_lt
  · have hquotient : infinite false / real y = infinite (false ^^ decide (y < 0)) := rfl
    rw [hquotient, decide_eq_false (not_lt_of_ge hy.le)]
    exact not_infinite_lt
  all_goals exact not_notNumber_lt

theorem not_sqrt_lt {a : ExactNumber} (ha : ¬ a < 0) : ¬ Scalar.sqrt a < 0 := by
  rcases not_lt_cases ha with ⟨x, hx, rfl⟩ | rfl | rfl
  · have hroot : Scalar.sqrt (real x) = real (Real.sqrt x) := if_neg (not_lt_of_ge hx)
    rw [hroot]
    exact not_real_lt (Real.sqrt_nonneg x)
  · exact not_infinite_lt
  · exact not_notNumber_lt

theorem le_of_le_of_le {a b c : ExactNumber} (hab : a ≤ b) (hbc : b ≤ c) : a ≤ c := by
  cases a with
  | real x =>
    cases b with
    | real y =>
      cases c with
      | real z =>
        have hxy : x ≤ y := hab
        exact hxy.trans hbc
      | infinite s => exact hbc
      | notNumber => exact hbc
    | infinite s =>
      have hs : s = false := hab
      subst hs
      cases c with
      | real z => cases hbc
      | infinite t => exact hbc.resolve_left Bool.false_ne_true
      | notNumber => exact hbc
    | notNumber => exact absurd hab id
  | infinite s =>
    cases s with
    | true =>
      cases c with
      | real z => rfl
      | infinite t => exact Or.inl rfl
      | notNumber => cases b <;> exact absurd hbc id
    | false =>
      cases b with
      | real y => cases hab
      | infinite t =>
        have ht : t = false := hab.resolve_left Bool.false_ne_true
        subst ht
        cases c with
        | real z => cases hbc
        | infinite u => exact hbc
        | notNumber => exact hbc
      | notNumber => exact absurd hab id
  | notNumber => cases b <;> exact absurd hab id

instance signedScalar : SignedScalar ExactNumber where
  not_neg_lt {a} h := by
    cases a with
    | real x => exact not_real_lt (neg_nonneg.mpr (show x < 0 from h).le)
    | infinite s =>
      have hs : s = true := h
      rw [hs]
      exact not_infinite_lt
    | notNumber => exact absurd h id
  not_add_lt := not_add_lt
  not_sub_lt := not_sub_lt
  not_mul_self_lt := not_mul_self_lt
  not_mul_lt := not_mul_lt
  not_div_lt := not_div_lt
  not_sqrt_lt := not_sqrt_lt
  le_trans := le_of_le_of_le

end ExactNumber

end ObstacleTracking
