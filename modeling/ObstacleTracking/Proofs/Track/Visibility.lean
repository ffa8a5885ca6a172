import Mathlib.Tactic.Linarith
import ObstacleTracking.Config.Validity
import ObstacleTracking.Proofs.Scalar.Exact
import ObstacleTracking.Track.Set

/-!
# Visibility of tracks

How often a track was seen, counted without a wrap, and what a hit does to the part of its frames
in which it was seen. That part never falls by a hit, so a track that was seen often enough before
is seen often enough after it.
-/

namespace ObstacleTracking

theorem toNat_succ {n : UInt32} (h : n.toNat + 1 < 2 ^ 32) : (n + 1).toNat = n.toNat + 1 := by
  have hone : (1 : UInt32).toNat = 1 := rfl
  rw [UInt32.toNat_add, hone, Nat.mod_eq_of_lt h]

namespace Track

variable {α : Type} [Scalar α]

/-! ### Counters -/

/-- What the counters of a live track say after `n` frames: in each of its frames it was seen or
missed, and it was seen in its first. -/
structure Counted (n : ℕ) (t : Track α) : Prop where
  age_lt : t.age.toNat < n
  visible_pos : 0 < t.visible.toNat
  sum_le : t.visible.toNat + t.invisible.toNat ≤ t.age.toNat + 1

variable {f : FilterConfig α} {c : LifecycleConfig α} {t : Track α} {n : ℕ}

theorem counted_start (f : FilterConfig α) (capacity id : ℕ) (o : Observation α) (n : ℕ) :
    Counted (n + 1) (start f capacity id o) := by
  constructor
  · exact Nat.succ_pos n
  · exact Nat.one_pos
  · exact Nat.le_refl 1

omit [Scalar α] in
theorem Counted.age_succ (h : Counted n t) (hn : n + 1 < 2 ^ 32) :
    (t.age + 1).toNat = t.age.toNat + 1 := by
  have hage := h.age_lt
  exact toNat_succ (by omega)

omit [Scalar α] in
theorem Counted.visible_succ (h : Counted n t) (hn : n + 1 < 2 ^ 32) :
    (t.visible + 1).toNat = t.visible.toNat + 1 := by
  have hage := h.age_lt
  have hsum := h.sum_le
  exact toNat_succ (by omega)

omit [Scalar α] in
theorem Counted.invisible_succ (h : Counted n t) (hn : n + 1 < 2 ^ 32) :
    (t.invisible + 1).toNat = t.invisible.toNat + 1 := by
  have hage := h.age_lt
  have hsum := h.sum_le
  exact toNat_succ (by omega)

theorem Counted.hit (h : Counted n t) (hn : n + 1 < 2 ^ 32) (o : Observation α) (score dt : α) :
    Counted (n + 1) (t.hit f c o score dt).1 := by
  have hage : (t.hit f c o score dt).1.age.toNat = t.age.toNat + 1 := h.age_succ hn
  have hvisible : (t.hit f c o score dt).1.visible.toNat = t.visible.toNat + 1 := h.visible_succ hn
  have hinvisible : (t.hit f c o score dt).1.invisible.toNat = 0 := rfl
  have hlt := h.age_lt
  have hsum := h.sum_le
  constructor <;> omega

theorem Counted.miss (h : Counted n t) (hn : n + 1 < 2 ^ 32) (dt : α) :
    Counted (n + 1) (t.miss f dt) := by
  have hage : (t.miss f dt).age.toNat = t.age.toNat + 1 := h.age_succ hn
  have hvisible : (t.miss f dt).visible.toNat = t.visible.toNat := rfl
  have hinvisible : (t.miss f dt).invisible.toNat = t.invisible.toNat + 1 := h.invisible_succ hn
  have hlt := h.age_lt
  have hpos := h.visible_pos
  have hsum := h.sum_le
  constructor <;> omega

/-! ### The visible ratio -/

/-- A track that is not too rarely seen, if it is old enough for that to count. -/
def IsOftenSeen (c : LifecycleConfig α) (t : Track α) : Prop :=
  c.reportAgeMinimum ≤ t.age → ¬ t.visibleRatio < c.visibleRatioMinimum

section Exact

open ExactScalar

theorem visibleRatio_nonneg {K : Type} [Field K] [LinearOrder K] [IsStrictOrderedRing K]
    [ExactScalar K α] (t : Track α) : 0 ≤ t.visibleRatio := by
  unfold visibleRatio
  rw [natCast_eq, natCast_eq, one_eq, add_ofField, div_ofField _ _ (Nat.cast_add_one_ne_zero _),
    zero_eq, le_ofField]
  exact div_nonneg (Nat.cast_nonneg _) (Nat.cast_add_one_pos _).le

end Exact

section Ratios

variable (K : Type) [Field K] [LinearOrder K] [IsStrictOrderedRing K]

/-- One more frame that is seen does not make the seen part of all frames smaller. -/
theorem ratio_le_ratio_succ {v a : ℕ} (h : v ≤ a + 1) :
    (v : K) / ((a : K) + 1) ≤ ((v + 1 : ℕ) : K) / (((a + 1 : ℕ) : K) + 1) := by
  have hcast : (v : K) ≤ (a : K) + 1 := by exact_mod_cast h
  have hpos : (0 : K) < (a : K) + 1 := Nat.cast_add_one_pos a
  have hpos' : (0 : K) < ((a + 1 : ℕ) : K) + 1 := Nat.cast_add_one_pos (a + 1)
  rw [div_le_div_iff₀ hpos hpos', Nat.cast_add_one, Nat.cast_add_one]
  linarith

variable [ExactRatios K α]

include K in
/-- A hit does not make a track too rarely seen that was not so before. -/
theorem Counted.not_ratio_lt_hit (h : Counted n t) (hn : n + 1 < 2 ^ 32)
    (hm : Requirement.fraction.holds c.visibleRatioMinimum = true)
    (hseen : ¬ t.visibleRatio < c.visibleRatioMinimum) (o : Observation α) (score dt : α) :
    ¬ (t.hit f c o score dt).1.visibleRatio < c.visibleRatioMinimum := by
  have hage : (t.hit f c o score dt).1.age.toNat = t.age.toNat + 1 := h.age_succ hn
  have hvisible : (t.hit f c o score dt).1.visible.toNat = t.visible.toNat + 1 := h.visible_succ hn
  have hsum := h.sum_le
  unfold Requirement.holds at hm
  rw [Bool.and_eq_true, decide_eq_true_iff, decide_eq_true_iff] at hm
  obtain ⟨x, -, hx⟩ := ExactRatios.exists_ratio_lt_iff (K := K) hm.1 hm.2
  unfold visibleRatio at hseen ⊢
  rw [hx, not_lt] at hseen ⊢
  rw [hage, hvisible]
  exact hseen.trans (ratio_le_ratio_succ K (by omega))

include K in
/-- A track that was seen in all its frames is seen often enough. -/
theorem not_ratio_lt_of_visible_eq (hm : Requirement.fraction.holds c.visibleRatioMinimum = true)
    (h : t.visible.toNat = t.age.toNat + 1) : ¬ t.visibleRatio < c.visibleRatioMinimum := by
  unfold Requirement.holds at hm
  rw [Bool.and_eq_true, decide_eq_true_iff, decide_eq_true_iff] at hm
  obtain ⟨x, hle, hx⟩ := ExactRatios.exists_ratio_lt_iff (K := K) hm.1 hm.2
  have hpos : (0 : K) < (t.age.toNat : K) + 1 := Nat.cast_add_one_pos _
  unfold visibleRatio
  rw [hx, h, Nat.cast_add_one, div_self hpos.ne']
  exact not_lt_of_ge hle

end Ratios

end Track

end ObstacleTracking
