import ObstacleTracking.Proofs.Association.Bounds
import ObstacleTracking.Proofs.Association.Turned

/-!
# Boxes and their descriptions

A box on the ground is described along any multiple of one direction, backwards too, or along a
direction a quarter turn away with its length and its width exchanged. Which sides of two boxes are
compared depends on the boxes and not on their descriptions, unless the boxes lie exactly halfway
between parallel and crossed.
-/

namespace ObstacleTracking

open ExactRoots

variable {K : Type} [Field K] [LinearOrder K] [ExactRoots K]

/-! ### Directions -/

namespace Vec2

/-- Neither closer to parallel than to crossed nor the other way round. -/
def IsHalfway (u v : Vec2 K) : Prop := |u.dot v| = |u.cross v|

theorem dot_comm (u v : Vec2 K) : v.dot u = u.dot v := by
  unfold dot
  ring

theorem cross_comm (u v : Vec2 K) : v.cross u = -u.cross v := by
  unfold cross
  ring

theorem cross_self (u : Vec2 K) : u.cross u = 0 := by
  unfold cross
  ring

theorem abs_cross_comm (u v : Vec2 K) : |v.cross u| = |u.cross v| := by
  rw [cross_comm, abs_neg]

theorem isHalfway_comm {u v : Vec2 K} : v.IsHalfway u ↔ u.IsHalfway v := by
  unfold IsHalfway
  rw [dot_comm, abs_cross_comm]

theorem isHalfway_turnPlane (r : Yaw K) (u v : Vec2 K) :
    (r.turnPlane u).IsHalfway (r.turnPlane v) ↔ u.IsHalfway v := by
  unfold IsHalfway
  rw [r.dot_turnPlane, r.cross_turnPlane]

variable [IsStrictOrderedRing K]

/-- A direction without length is halfway between all others. -/
theorem dot_self_pos {u v : Vec2 K} (h : ¬ u.IsHalfway v) : 0 < u.dot u := by
  refine lt_of_le_of_ne u.dot_self_nonneg ?_
  intro hzero
  obtain ⟨hx, hy⟩ := mul_self_add_mul_self_eq_zero.mp hzero.symm
  refine h ?_
  unfold IsHalfway dot cross
  rw [hx, hy, zero_mul, zero_mul, add_zero, sub_zero]

theorem not_isHalfway_self {u : Vec2 K} (h : 0 < u.dot u) : ¬ u.IsHalfway u := by
  unfold IsHalfway
  rw [cross_self, abs_zero, abs_eq_zero]
  exact h.ne'

end Vec2

/-! ### Descriptions -/

/-- Two descriptions of one box: along a multiple of one direction, which is its opposite if `s` is
negative, or along a multiple of its quarter turn with length and width exchanged. Only the
horizontal part of a direction counts. -/
inductive Detection.SameBox (d e : Detection K) : Prop
  | along (s : K) (scale_ne : s ≠ 0)
      (x_eq : e.direction.x = d.direction.x * s) (y_eq : e.direction.y = d.direction.y * s)
      (length_eq : e.size.x = d.size.x) (width_eq : e.size.y = d.size.y)
  | across (s : K) (scale_ne : s ≠ 0)
      (x_eq : e.direction.x = -d.direction.y * s) (y_eq : e.direction.y = d.direction.x * s)
      (length_eq : e.size.x = d.size.y) (width_eq : e.size.y = d.size.x)

namespace Detection.SameBox

variable {d e : Detection K}

theorem refl (d : Detection K) : d.SameBox d :=
  along 1 one_ne_zero (mul_one _).symm (mul_one _).symm rfl rfl

variable [IsStrictOrderedRing K]

/-- A multiple of a direction has a multiple of its products with every other one. A quarter turn
exchanges the inner and the outer product. -/
theorem products (h : d.SameBox e) : ∃ k : K, 0 < k ∧
    ((e.size.x = d.size.x ∧ e.size.y = d.size.y ∧ ∀ v,
        |e.direction.horizontal.dot v| = k * |d.direction.horizontal.dot v| ∧
          |e.direction.horizontal.cross v| = k * |d.direction.horizontal.cross v|) ∨
      (e.size.x = d.size.y ∧ e.size.y = d.size.x ∧ ∀ v,
        |e.direction.horizontal.dot v| = k * |d.direction.horizontal.cross v| ∧
          |e.direction.horizontal.cross v| = k * |d.direction.horizontal.dot v|)) := by
  cases h with
  | along s scale_ne x_eq y_eq length_eq width_eq =>
    refine ⟨|s|, abs_pos.mpr scale_ne, Or.inl ⟨length_eq, width_eq, ?_⟩⟩
    intro v
    have hdot : e.direction.horizontal.dot v = s * d.direction.horizontal.dot v := by
      simp only [Vec2.dot, Vec3.horizontal, x_eq, y_eq]
      ring
    have hcross : e.direction.horizontal.cross v = s * d.direction.horizontal.cross v := by
      simp only [Vec2.cross, Vec3.horizontal, x_eq, y_eq]
      ring
    rw [hdot, hcross, abs_mul, abs_mul]
    exact ⟨rfl, rfl⟩
  | across s scale_ne x_eq y_eq length_eq width_eq =>
    refine ⟨|s|, abs_pos.mpr scale_ne, Or.inr ⟨length_eq, width_eq, ?_⟩⟩
    intro v
    have hdot : e.direction.horizontal.dot v = s * d.direction.horizontal.cross v := by
      simp only [Vec2.dot, Vec2.cross, Vec3.horizontal, x_eq, y_eq]
      ring
    have hcross : e.direction.horizontal.cross v = -(s * d.direction.horizontal.dot v) := by
      simp only [Vec2.dot, Vec2.cross, Vec3.horizontal, x_eq, y_eq]
      ring
    rw [hdot, hcross, abs_neg, abs_mul, abs_mul]
    exact ⟨rfl, rfl⟩

theorem not_isHalfway (h : d.SameBox e) {v : Vec2 K} (hv : ¬ d.direction.horizontal.IsHalfway v) :
    ¬ e.direction.horizontal.IsHalfway v := by
  unfold Vec2.IsHalfway at hv ⊢
  obtain ⟨k, hk, ⟨-, -, hproducts⟩ | ⟨-, -, hproducts⟩⟩ := h.products
  · rw [(hproducts v).1, (hproducts v).2]
    exact fun heq => hv (mul_left_cancel₀ hk.ne' heq)
  · rw [(hproducts v).1, (hproducts v).2]
    exact fun heq => hv (mul_left_cancel₀ hk.ne' heq).symm

end Detection.SameBox

/-! ### Compared sides -/

namespace Dissimilarity

variable [IsStrictOrderedRing K]

theorem relativeChange_comm (a b : K) : relativeChange b a = relativeChange a b := by
  unfold relativeChange
  dsimp only
  rw [maxNum_eq, maxNum_eq, ExactRoots.abs_eq, ExactRoots.abs_eq, max_comm, abs_sub_comm]

theorem boxChange_eq (u v : Vec2 K) (old new : Vec3 K) : boxChange u v old new =
    if |u.cross v| < |u.dot v| then
      min (relativeChange old.x new.x) (relativeChange old.y new.y)
    else min (relativeChange old.x new.y) (relativeChange old.y new.x) := by
  unfold boxChange
  rw [ExactRoots.abs_eq, ExactRoots.abs_eq, minNum_eq, minNum_eq]

theorem boxChange_comm (u v : Vec2 K) (old new : Vec3 K) :
    boxChange v u new old = boxChange u v old new := by
  rw [boxChange_eq, boxChange_eq, Vec2.abs_cross_comm, Vec2.dot_comm,
    relativeChange_comm old.x new.x, relativeChange_comm old.y new.y,
    relativeChange_comm old.y new.x, relativeChange_comm old.x new.y,
    min_comm (relativeChange old.y new.x)]

theorem boxChange_sameBox {d e : Detection K} (h : d.SameBox e) {v : Vec2 K}
    (hv : ¬ d.direction.horizontal.IsHalfway v) (new : Vec3 K) :
    boxChange e.direction.horizontal v e.size new =
      boxChange d.direction.horizontal v d.size new := by
  obtain ⟨k, hk, ⟨hlength, hwidth, hproducts⟩ | ⟨hlength, hwidth, hproducts⟩⟩ := h.products
  · rw [boxChange_eq, boxChange_eq, (hproducts v).1, (hproducts v).2, hlength, hwidth]
    simp only [mul_lt_mul_iff_right₀ hk]
  · rw [boxChange_eq, boxChange_eq, (hproducts v).1, (hproducts v).2, hlength, hwidth]
    simp only [mul_lt_mul_iff_right₀ hk]
    -- the other branch is taken, and in it the same sides are compared
    by_cases hlt : |d.direction.horizontal.cross v| < |d.direction.horizontal.dot v|
    · rw [if_pos hlt, if_neg hlt.not_gt, min_comm]
    · rw [if_neg hlt, if_pos (lt_of_le_of_ne (not_lt.mp hlt) hv), min_comm]

/-! ### Compared boxes -/

variable {last last' o o' : Observation K}

theorem boxSize_sameBox (h : last.detection.SameBox last'.detection)
    (h' : o.detection.SameBox o'.detection)
    (hclear : ¬ last.detection.direction.horizontal.IsHalfway o.detection.direction.horizontal) :
    boxSize last' o' = boxSize last o := by
  have hclear' := mt Vec2.isHalfway_comm.mp (h.not_isHalfway hclear)
  calc boxSize last' o' = boxSize o' last' := boxChange_comm _ _ _ _
    _ = boxSize o last' := boxChange_sameBox h' hclear' _
    _ = boxSize last' o := boxChange_comm _ _ _ _
    _ = boxSize last o := boxChange_sameBox h hclear _

theorem boxSize_eq_zero (h : last.detection.SameBox o.detection)
    (hdirection : 0 < last.detection.direction.horizontal.dot last.detection.direction.horizontal) :
    boxSize last o = 0 := by
  calc boxSize last o
      = boxSize last last := boxSize_sameBox (.refl _) h (Vec2.not_isHalfway_self hdirection)
    _ = 0 := boxChange_self hdirection _

/-- How much two boxes differ is a matter of the boxes, as long as these do not lie exactly halfway
between parallel and crossed: not of their order, nor of their descriptions, nor of how both are
turned. A box does not differ from itself, and no two boxes with sizes differ by more than one. -/
theorem boxSize_ofBoxes
    (hclear : ¬ last.detection.direction.horizontal.IsHalfway o.detection.direction.horizontal) :
    boxSize o last = boxSize last o ∧
      (∀ last' o' : Observation K, last.detection.SameBox last'.detection →
        o.detection.SameBox o'.detection → boxSize last' o' = boxSize last o) ∧
      (∀ (r : Yaw K) (last' o' : Observation K),
        (last.detection.turned r).SameBox last'.detection →
        (o.detection.turned r).SameBox o'.detection → boxSize last' o' = boxSize last o) ∧
      (last.detection.SameBox o.detection → boxSize last o = 0) ∧
      (0 ≤ last.detection.size.x → 0 ≤ last.detection.size.y →
        0 ≤ o.detection.size.x → 0 ≤ o.detection.size.y →
        0 ≤ boxSize last o ∧ boxSize last o ≤ 1) := by
  refine ⟨boxChange_comm _ _ _ _, ?_, ?_, ?_, ?_⟩
  · intro last' o' h h'
    exact boxSize_sameBox h h' hclear
  · intro r last' o' h h'
    rw [← boxSize_turned r last o]
    exact boxSize_sameBox h h' (mt (Vec2.isHalfway_turnPlane r last.detection.direction.horizontal
      o.detection.direction.horizontal).mp hclear)
  · intro h
    exact boxSize_eq_zero h (Vec2.dot_self_pos hclear)
  · intro hlength _ hlength' hwidth'
    exact ⟨not_lt.mp (not_boxChange_lt K _ _ _ _), boxChange_le_one _ _ hlength hlength' hwidth'⟩

section Example

attribute [local instance] ExactRoots.real

/-- Of two boxes that lie closer to crossed than to parallel, one is described backwards and the
other one along its width. -/
theorem boxSize_ofBoxes_crossed :
    let seen (direction size : Vec3 ℝ) : Observation ℝ :=
      ⟨⟨[], [], 0, direction, size, .vehicle⟩, 0, 0, none, 0, 0, Mat.fill 0⟩
    let last := seen ⟨1, 2, 0⟩ ⟨4, 2, 1⟩
    let o := seen ⟨1, 0, 0⟩ ⟨3, 8, 1⟩
    let last' := seen ⟨-2, -4, 0⟩ ⟨4, 2, 1⟩
    let o' := seen ⟨0, -5, 0⟩ ⟨8, 3, 1⟩
    boxSize o last = boxSize last o ∧ boxSize last' o' = boxSize last o ∧
      boxSize last last' = 0 ∧ 0 ≤ boxSize last o ∧ boxSize last o ≤ 1 := by
  intro seen last o last' o'
  have hcrossed :
      ¬ last.detection.direction.horizontal.IsHalfway o.detection.direction.horizontal := by
    norm_num [last, o, seen, Vec2.IsHalfway, Vec2.dot, Vec2.cross, Vec3.horizontal]
  have hparallel :
      ¬ last.detection.direction.horizontal.IsHalfway last'.detection.direction.horizontal := by
    norm_num [last, last', seen, Vec2.IsHalfway, Vec2.dot, Vec2.cross, Vec3.horizontal]
  have hlast : last.detection.SameBox last'.detection := by
    refine .along (-2) ?_ ?_ ?_ rfl rfl <;> norm_num [last, last', seen]
  have ho : o.detection.SameBox o'.detection := by
    refine .across (-5) ?_ ?_ ?_ rfl rfl <;> norm_num [o, o', seen]
  obtain ⟨hcomm, hdescribed, -, -, hbounds⟩ := boxSize_ofBoxes hcrossed
  obtain ⟨-, -, -, hsame, -⟩ := boxSize_ofBoxes hparallel
  refine ⟨hcomm, hdescribed last' o' hlast ho, hsame hlast, ?_⟩
  exact hbounds (by norm_num [last, seen]) (by norm_num [last, seen]) (by norm_num [o, seen])
    (by norm_num [o, seen])

end Example

end Dissimilarity

end ObstacleTracking
