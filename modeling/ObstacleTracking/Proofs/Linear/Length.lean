import Mathlib.Tactic.Linarith
import ObstacleTracking.Proofs.Scalar.Field

/-!
# Entries and lengths

The entries of a vector of space are numbered by the three axes. A length is a root, so it is
compared with a number that is not negative by comparing squares. The length of a sum of vectors of
space is at most the sum of their lengths.
-/

namespace ObstacleTracking

open ExactRoots

/-! ### Vectors by axis -/

namespace Vec3

variable {K : Type}

/-- The entry along the first, the second or the third axis. -/
def onAxis (v : Vec3 K) : Fin 3 → K := ![v.x, v.y, v.z]

theorem exists_onAxis (f : Fin 3 → K) : ∃ v : Vec3 K, ∀ k, v.onAxis k = f k := by
  refine ⟨⟨f 0, f 1, f 2⟩, fun k => ?_⟩
  fin_cases k <;> rfl

variable [Field K] [LinearOrder K] [ExactRoots K]

theorem onAxis_add (v w : Vec3 K) (k : Fin 3) :
    (v + w).onAxis k = v.onAxis k + w.onAxis k := by
  fin_cases k <;> rfl

theorem onAxis_mul (v : Vec3 K) (a : K) (k : Fin 3) : (v * a).onAxis k = v.onAxis k * a := by
  fin_cases k <;> rfl

end Vec3

variable {K : Type} [Field K] [LinearOrder K] [IsStrictOrderedRing K] [ExactRoots K]

/-! ### Roots and squares -/

namespace ExactRoots

variable {x b : K}

theorem sqrt_le (hx : 0 ≤ x) (hb : 0 ≤ b) (h : x ≤ b * b) : Scalar.sqrt x ≤ b := by
  rw [← sqrt_mul_self hx] at h
  exact (mul_self_le_mul_self_iff (sqrt_nonneg hx) hb).mpr h

theorem le_sqrt (hb : 0 ≤ b) (h : b * b ≤ x) : b ≤ Scalar.sqrt x := by
  have hx : 0 ≤ x := (mul_self_nonneg b).trans h
  rw [← sqrt_mul_self hx] at h
  exact (mul_self_le_mul_self_iff hb (sqrt_nonneg hx)).mpr h

theorem sqrt_eq (hb : 0 ≤ b) (h : x = b * b) : Scalar.sqrt x = b := by
  have hx : 0 ≤ x := h.symm ▸ mul_self_nonneg b
  exact le_antisymm (sqrt_le hx hb h.le) (le_sqrt hb h.ge)

end ExactRoots

/-! ### The ground plane -/

namespace Vec2

theorem norm_nonneg (v : Vec2 K) : 0 ≤ v.norm := sqrt_nonneg v.dot_self_nonneg

theorem norm_mul_self (v : Vec2 K) : v.norm * v.norm = v.dot v := sqrt_mul_self v.dot_self_nonneg

end Vec2

/-! ### Space -/

namespace Vec3

theorem dot_self_nonneg (v : Vec3 K) : 0 ≤ v.dot v := by
  unfold dot
  exact add_nonneg (add_nonneg (mul_self_nonneg v.x) (mul_self_nonneg v.y)) (mul_self_nonneg v.z)

theorem norm_nonneg (v : Vec3 K) : 0 ≤ v.norm := sqrt_nonneg v.dot_self_nonneg

theorem norm_mul_self (v : Vec3 K) : v.norm * v.norm = v.dot v := sqrt_mul_self v.dot_self_nonneg

theorem norm_mul (v : Vec3 K) {s : K} (hs : 0 ≤ s) : (v * s).norm = v.norm * s := by
  refine sqrt_eq (mul_nonneg v.norm_nonneg hs) ?_
  have hsquare : (v * s).dot (v * s) = v.dot v * (s * s) := by
    simp only [dot, x_mul, y_mul, z_mul]
    ring
  rw [hsquare, ← norm_mul_self]
  ring

/-- The two sides differ by the squares of the areas that the vectors span. -/
theorem dot_mul_self_le (v w : Vec3 K) : v.dot w * v.dot w ≤ v.dot v * w.dot w := by
  have hareas : v.dot v * w.dot w - v.dot w * v.dot w =
      (v.x * w.y - v.y * w.x) * (v.x * w.y - v.y * w.x) +
        (v.y * w.z - v.z * w.y) * (v.y * w.z - v.z * w.y) +
        (v.z * w.x - v.x * w.z) * (v.z * w.x - v.x * w.z) := by
    unfold dot
    ring
  have hnonneg : 0 ≤ v.dot v * w.dot w - v.dot w * v.dot w := by
    rw [hareas]
    exact add_nonneg (add_nonneg (mul_self_nonneg _) (mul_self_nonneg _)) (mul_self_nonneg _)
  linarith

theorem dot_le_norm_mul_norm (v w : Vec3 K) : v.dot w ≤ v.norm * w.norm := by
  have hsquare : v.dot w * v.dot w ≤ v.norm * w.norm * (v.norm * w.norm) :=
    calc v.dot w * v.dot w
        ≤ v.dot v * w.dot w := dot_mul_self_le v w
      _ = v.norm * w.norm * (v.norm * w.norm) := by
        rw [← norm_mul_self, ← norm_mul_self]
        ring
  have habs := abs_le_iff_mul_self_le.mpr hsquare
  rw [abs_of_nonneg (mul_nonneg v.norm_nonneg w.norm_nonneg)] at habs
  exact le_of_abs_le habs

theorem norm_add_le (v w : Vec3 K) : (v + w).norm ≤ v.norm + w.norm := by
  have hsum : (v + w).dot (v + w) = v.dot v + 2 * v.dot w + w.dot w := by
    simp only [dot, x_add, y_add, z_add]
    ring
  refine sqrt_le (dot_self_nonneg _) (add_nonneg v.norm_nonneg w.norm_nonneg) ?_
  calc (v + w).dot (v + w)
      = v.dot v + 2 * v.dot w + w.dot w := hsum
    _ ≤ v.dot v + 2 * (v.norm * w.norm) + w.dot w := by linarith [dot_le_norm_mul_norm v w]
    _ = (v.norm + w.norm) * (v.norm + w.norm) := by
      rw [← norm_mul_self, ← norm_mul_self]
      ring

end Vec3

end ObstacleTracking
