import ObstacleTracking.Geometry.Pose
import ObstacleTracking.Proofs.Scalar.ExactNumber
import ObstacleTracking.Proofs.Scalar.Field

/-!
# Exact shifts

Exact scalars to which finite values can be added one after the other, whatever they are
themselves: an infinity and a value that is not a number absorb what is added. This holds of an
ordered field with roots and of the exact numbers.
-/

namespace ObstacleTracking

/-- Exact scalars that are shifted by finite values without any loss. -/
class ExactShifts (K : outParam Type) (α : Type) [Field K] [LinearOrder K] [Scalar α]
    [ExactScalar K α] : Prop where
  isFinite_add_ofField (a : α) (x : K) :
    Scalar.isFinite (a + ExactScalar.ofField x) = Scalar.isFinite a
  add_ofField_add_ofField (a : α) (x y : K) :
    a + ExactScalar.ofField x + ExactScalar.ofField y = a + ExactScalar.ofField (x + y)
  sub_ofField_eq_add (a : α) (x : K) : a - ExactScalar.ofField x = a + ExactScalar.ofField (-x)

namespace ExactShifts

instance exactRoots {K : Type} [Field K] [LinearOrder K] [ExactRoots K] : ExactShifts K K where
  isFinite_add_ofField _ _ := rfl
  add_ofField_add_ofField a x y := add_assoc a x y
  sub_ofField_eq_add a x := sub_eq_add_neg a x

instance exactNumber : ExactShifts ℝ ExactNumber where
  isFinite_add_ofField a x := by
    cases a with
    | real y => rfl
    | infinite s => rfl
    | notNumber => rfl
  add_ofField_add_ofField a x y := by
    cases a with
    | real z => exact congrArg ExactNumber.real (add_assoc z x y)
    | infinite s => rfl
    | notNumber => rfl
  sub_ofField_eq_add _ _ := rfl

/-! ### An offset and its shift

The offset `y` leads to local values. If the world is shifted by `x`, the offset is `y - x`. -/

open ExactScalar

variable {K α : Type} [Field K] [LinearOrder K] [Scalar α] [ExactScalar K α] [ExactShifts K α]
  (a : α) (x y : K)

theorem add_ofField_add_sub : a + ofField x + (ofField y - ofField x) = a + ofField y := by
  rw [sub_ofField, add_ofField_add_ofField, add_sub_cancel]

theorem sub_sub_ofField : a - (ofField y - ofField x) = a - ofField y + ofField x := by
  rw [sub_ofField, sub_ofField_eq_add, sub_ofField_eq_add, add_ofField_add_ofField, neg_sub,
    sub_eq_neg_add]

theorem add_neg_sub_ofField : a + -(ofField y - ofField x) = a + -ofField y + ofField x := by
  rw [sub_ofField, neg_ofField, neg_ofField, add_ofField_add_ofField, neg_sub, sub_eq_neg_add]

theorem sub_add_sub_ofField : a - ofField y + ofField x - ofField x = a - ofField y := by
  rw [sub_ofField_eq_add, sub_ofField_eq_add, add_ofField_add_ofField, add_ofField_add_ofField,
    add_neg_cancel, add_zero]

end ExactShifts

/-! ### Matrices -/

theorem Mat.isFinite_iff {α : Type} [Scalar α] {m n : ℕ} {a : Mat m n α} :
    a.isFinite = true ↔ ∀ i j, Scalar.isFinite (a.get i j) = true := by
  unfold isFinite
  simp only [Vector.all_eq_true]
  constructor
  · intro h i j
    exact h i.val i.isLt j.val j.isLt
  · intro h i hi j hj
    exact h ⟨i, hi⟩ ⟨j, hj⟩

/-! ### Vectors -/

namespace Vec3

open ExactScalar ExactShifts

variable {K α : Type} [Field K] [LinearOrder K] [Scalar α] [ExactScalar K α]

/-- A vector of finite values. -/
def ofField (v : Vec3 K) : Vec3 α := v.map ExactScalar.ofField

theorem exists_ofField {v : Vec3 α} (hx : Scalar.isFinite v.x = true)
    (hy : Scalar.isFinite v.y = true) (hz : Scalar.isFinite v.z = true) :
    ∃ u : Vec3 K, v = ofField u := by
  obtain ⟨x, hx⟩ := exists_of_isFinite hx
  obtain ⟨y, hy⟩ := exists_of_isFinite hy
  obtain ⟨z, hz⟩ := exists_of_isFinite hz
  exact ⟨⟨x, y, z⟩, Vec3.ext hx hy hz⟩

theorem neg_ofField (v : Vec3 K) : -(ofField v : Vec3 α) = ofField (v.map (-·)) := by
  simp [Vec3.ext_iff, ofField, map]

theorem neg_add_ofField (v w : Vec3 K) : -(ofField v + ofField w : Vec3 α) =
    -ofField v - ofField w := by
  simp [Vec3.ext_iff, ofField, map, sub_eq_add_neg, add_comm]

variable [ExactShifts K α] (v : Vec3 α) (s o : Vec3 K)

theorem sub_sub_ofField : v - (ofField o - ofField s) = v - ofField o + ofField s :=
  Vec3.ext (ExactShifts.sub_sub_ofField v.x s.x o.x) (ExactShifts.sub_sub_ofField v.y s.y o.y)
    (ExactShifts.sub_sub_ofField v.z s.z o.z)

theorem add_neg_sub_ofField : v + -(ofField o - ofField s) = v + -ofField o + ofField s :=
  Vec3.ext (ExactShifts.add_neg_sub_ofField v.x s.x o.x)
    (ExactShifts.add_neg_sub_ofField v.y s.y o.y) (ExactShifts.add_neg_sub_ofField v.z s.z o.z)

theorem sub_add_sub_ofField : v - ofField o + ofField s - ofField s = v - ofField o :=
  Vec3.ext (ExactShifts.sub_add_sub_ofField v.x s.x o.x)
    (ExactShifts.sub_add_sub_ofField v.y s.y o.y) (ExactShifts.sub_add_sub_ofField v.z s.z o.z)

end Vec3

/-! ### Poses -/

namespace Pose

open ExactScalar ExactShifts

variable {K α : Type} [Field K] [LinearOrder K] [Scalar α] [ExactScalar K α]

theorem exists_origin_ofField {p : Pose α} (h : p.isFinite = true) :
    ∃ o : Vec3 K, p.origin = Vec3.ofField o := by
  rw [Mat.isFinite_iff] at h
  exact Vec3.exists_ofField (h 0 3) (h 1 3) (h 2 3)

variable [ExactShifts K α] (p : Pose α) (s o : Vec3 K)

theorem isFinite_displace : (p.displace (Vec3.ofField s)).isFinite = p.isFinite := by
  have hentry : ∀ i j, Scalar.isFinite ((p.displace (Vec3.ofField s)).get i j) =
      Scalar.isFinite (p.get i j) := by
    intro i j
    unfold displace
    rw [Mat.get_ofFn]
    split_ifs
    · exact isFinite_add_ofField _ s.x
    · exact isFinite_add_ofField _ s.y
    · exact isFinite_add_ofField _ s.z
    · rfl
    · rfl
  rw [Bool.eq_iff_iff, Mat.isFinite_iff, Mat.isFinite_iff]
  simp only [hentry]

/-- The shift of the world and that of the offset cancel out. -/
theorem displace_displace :
    (p.displace (Vec3.ofField s)).displace (Vec3.ofField o - Vec3.ofField s) =
      p.displace (Vec3.ofField o) := by
  refine Mat.ext_get ?_
  intro i j
  unfold displace
  simp only [Mat.get_ofFn]
  split_ifs
  · exact add_ofField_add_sub _ s.x o.x
  · exact add_ofField_add_sub _ s.y o.y
  · exact add_ofField_add_sub _ s.z o.z
  · rfl
  · rfl

end Pose

end ObstacleTracking
