import ObstacleTracking.Proofs.Scalar.ExactNumber
import ObstacleTracking.Proofs.Scalar.Field

/-!
# Rounded ratios

The quotient of two counts, rounded once. Counts of 32 bits are held without rounding, so a part
`v / (a + 1)` of them is the exact quotient rounded, by a rounding that keeps the order, keeps the
one, and does not take what is at least `2 ^ -32` for nothing. Exact scalars are the case in which
nothing is rounded.
-/

namespace ObstacleTracking

/-- A scalar type in which the quotients of counts of 32 bits are the exact ones, rounded. -/
class RoundedRatios (K : outParam Type) (α : Type) [Field K] [LinearOrder K] [Scalar α] where
  round : K → α
  ratio_eq {v a : ℕ} : v ≤ a + 1 → a < 2 ^ 32 →
    (v : α) / ((a : α) + 1) = round ((v : K) / ((a : K) + 1))
  round_one : round 1 = 1
  round_le {x y : K} : x ≤ y → round x ≤ round y
  round_pos {x : K} : 1 / 2 ^ 32 ≤ x → 0 < round x
  /-- What is rounded is a number, so it compares with every fraction. -/
  le_round_of_not_lt {m : α} {x : K} : 0 ≤ m → m ≤ 1 → ¬ round x < m → m ≤ round x

theorem pos_of_two_pow_le {K : Type} [Field K] [LinearOrder K] [IsStrictOrderedRing K] {x : K}
    (h : 1 / 2 ^ 32 ≤ x) : 0 < x :=
  lt_of_lt_of_le (by positivity : (0 : K) < 1 / 2 ^ 32) h

namespace ExactNumber

theorem le_real_of_not_lt {m : ExactNumber} {x : ℝ} (hlow : 0 ≤ m) (hhigh : m ≤ 1)
    (h : ¬ real x < m) : m ≤ real x := by
  obtain ⟨m, -, rfl⟩ := exists_real_of_fraction hlow hhigh
  have hnot : ¬ x < m := h
  exact not_lt.mp hnot

noncomputable instance roundedRatios : RoundedRatios ℝ ExactNumber where
  round := real
  ratio_eq {_ a} _ _ := if_neg (Nat.cast_add_one_ne_zero a)
  round_one := rfl
  round_le h := h
  round_pos := @pos_of_two_pow_le ℝ _ _ _
  le_round_of_not_lt := @le_real_of_not_lt

end ExactNumber

namespace ExactRoots

instance roundedRatios {K : Type} [Field K] [LinearOrder K] [IsStrictOrderedRing K]
    [ExactRoots K] : RoundedRatios K K where
  round := id
  ratio_eq _ _ := rfl
  round_one := rfl
  round_le h := h
  round_pos := @pos_of_two_pow_le K _ _ _
  le_round_of_not_lt _ _ hnot := not_lt.mp hnot

end ExactRoots

end ObstacleTracking
