import ObstacleTracking.Proofs.Scalar.Ratios
import ObstacleTracking.Proofs.Track.Visibility

/-!
# Bookkeeping of tracks

The label of a track and its three counters are written in three places: when it is started, when it
is hit and when it is missed. Counted without a wrap they agree after each, and the part of its
frames in which a track was seen is more than nothing and at most the whole.
-/

namespace ObstacleTracking

namespace Track

variable {α : Type}

/-- The label of a track says what its counters say of the latest frame. -/
structure IsLabelled (t : Track α) : Prop where
  new_iff : t.state = .new ↔ t.age = 0
  tracked_iff : t.state = .tracked ↔ 0 < t.age ∧ t.invisible = 0
  lost_iff : t.state = .lost ↔ 0 < t.invisible

/-- What the books of a track say between frames. -/
structure Bookkept [Scalar α] (c : LifecycleConfig α) (t : Track α) : Prop
    extends IsLabelled t where
  visible_pos : 1 ≤ t.visible.toNat
  sum_le : t.visible.toNat + t.invisible.toNat ≤ t.age.toNat + 1
  ratio_pos : 0 < t.visibleRatio
  ratio_le_one : t.visibleRatio ≤ 1
  invisible_le : t.invisible ≤ c.invisibleMaximum
  le_ratio : c.reportAgeMinimum ≤ t.age → c.visibleRatioMinimum ≤ t.visibleRatio

/-! ### Labels -/

theorem pos_of_toNat_eq_succ {n : UInt32} {k : ℕ} (h : n.toNat = k + 1) : 0 < n := by
  rw [UInt32.lt_iff_toNat_lt, h]
  exact Nat.succ_pos k

section Labels

variable [Scalar α] {f : FilterConfig α} {c : LifecycleConfig α} {t : Track α} {n : ℕ}

theorem isLabelled_start (f : FilterConfig α) (capacity id : ℕ) (o : Observation α) :
    IsLabelled (start f capacity id o) := by
  constructor
  · exact iff_of_true rfl rfl
  · refine iff_of_false TrackState.noConfusion ?_
    intro h
    exact absurd h.1 UInt32.not_lt_zero
  · exact iff_of_false TrackState.noConfusion UInt32.not_lt_zero

theorem Counted.isLabelled_hit (h : Counted n t) (hn : n + 1 < 2 ^ 32) (o : Observation α)
    (score dt : α) : IsLabelled (t.hit f c o score dt).1 := by
  have hage : 0 < (t.hit f c o score dt).1.age := pos_of_toNat_eq_succ (h.age_succ hn)
  constructor
  · exact iff_of_false TrackState.noConfusion (UInt32.ne_of_lt hage).symm
  · exact iff_of_true rfl ⟨hage, rfl⟩
  · exact iff_of_false TrackState.noConfusion UInt32.not_lt_zero

theorem Counted.isLabelled_miss (h : Counted n t) (hn : n + 1 < 2 ^ 32) (dt : α) :
    IsLabelled (t.miss f dt) := by
  have hage : 0 < (t.miss f dt).age := pos_of_toNat_eq_succ (h.age_succ hn)
  have hinvisible : 0 < (t.miss f dt).invisible := pos_of_toNat_eq_succ (h.invisible_succ hn)
  constructor
  · exact iff_of_false TrackState.noConfusion (UInt32.ne_of_lt hage).symm
  · refine iff_of_false TrackState.noConfusion ?_
    intro hzero
    exact (UInt32.ne_of_lt hinvisible).symm hzero.2
  · exact iff_of_true rfl hinvisible

end Labels

/-! ### The visible ratio -/

section Ratios

variable [Scalar α] (K : Type) [Field K] [LinearOrder K] [IsStrictOrderedRing K]
  [RoundedRatios K α] {c : LifecycleConfig α} {t : Track α} {n : ℕ}

omit [IsStrictOrderedRing K] in
theorem Counted.visibleRatio_eq (h : Counted n t) (hn : n ≤ 2 ^ 32) :
    t.visibleRatio =
      RoundedRatios.round ((t.visible.toNat : K) / ((t.age.toNat : K) + 1)) := by
  have hage := h.age_lt
  have hsum := h.sum_le
  exact RoundedRatios.ratio_eq (by omega) (by omega)

include K in
theorem Counted.visibleRatio_pos (h : Counted n t) (hn : n ≤ 2 ^ 32) : 0 < t.visibleRatio := by
  rw [h.visibleRatio_eq K hn]
  refine RoundedRatios.round_pos ?_
  have hvisible : (1 : K) ≤ t.visible.toNat := by exact_mod_cast h.visible_pos
  have hage : (t.age.toNat : K) + 1 ≤ 2 ^ 32 := by
    have hlt := h.age_lt
    exact_mod_cast (by omega : t.age.toNat + 1 ≤ 2 ^ 32)
  have hpos : (0 : K) < (t.age.toNat : K) + 1 := Nat.cast_add_one_pos _
  exact div_le_div₀ (zero_le_one.trans hvisible) hvisible hpos hage

include K in
theorem Counted.visibleRatio_le_one (h : Counted n t) (hn : n ≤ 2 ^ 32) :
    t.visibleRatio ≤ 1 := by
  rw [h.visibleRatio_eq K hn, ← RoundedRatios.round_one (K := K) (α := α)]
  refine RoundedRatios.round_le ?_
  have hvisible : (t.visible.toNat : K) ≤ (t.age.toNat : K) + 1 := by
    have hsum := h.sum_le
    exact_mod_cast (by omega : t.visible.toNat ≤ t.age.toNat + 1)
  exact div_le_one_of_le₀ hvisible (Nat.cast_add_one_pos _).le

include K in
omit [IsStrictOrderedRing K] in
/-- A track that is not too rarely seen is seen often enough. -/
theorem Counted.le_visibleRatio (h : Counted n t) (hn : n ≤ 2 ^ 32)
    (hm : Requirement.fraction.holds c.visibleRatioMinimum = true)
    (hseen : ¬ t.visibleRatio < c.visibleRatioMinimum) :
    c.visibleRatioMinimum ≤ t.visibleRatio := by
  unfold Requirement.holds at hm
  rw [Bool.and_eq_true, decide_eq_true_iff, decide_eq_true_iff] at hm
  rw [h.visibleRatio_eq K hn] at hseen ⊢
  exact RoundedRatios.le_round_of_not_lt hm.1 hm.2 hseen

include K in
/-- A track is seen in all of its first frame. -/
theorem visibleRatio_start (f : FilterConfig α) (capacity id : ℕ) (o : Observation α) :
    (start f capacity id o).visibleRatio = 1 := by
  rw [(counted_start f capacity id o 0).visibleRatio_eq K (by decide)]
  have hwhole : (((1 : UInt32).toNat : ℕ) : K) / ((((0 : UInt32).toNat : ℕ) : K) + 1) = 1 := by
    simp
  exact (congrArg RoundedRatios.round hwhole).trans RoundedRatios.round_one

/-! ### The books -/

include K in
theorem Counted.bookkept (h : Counted n t) (hn : n ≤ 2 ^ 32) (hlabelled : IsLabelled t)
    (hinvisible : t.invisible ≤ c.invisibleMaximum)
    (hseen : c.reportAgeMinimum ≤ t.age → c.visibleRatioMinimum ≤ t.visibleRatio) :
    Bookkept c t where
  toIsLabelled := hlabelled
  visible_pos := h.visible_pos
  sum_le := h.sum_le
  ratio_pos := h.visibleRatio_pos K hn
  ratio_le_one := h.visibleRatio_le_one K hn
  invisible_le := hinvisible
  le_ratio := hseen

end Ratios

end Track

end ObstacleTracking
