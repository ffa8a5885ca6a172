import ObstacleTracking.Proofs.Geometry.Yaw

/-!
# Boxes that enclose clouds

A box that is fitted to a cloud along a horizontal unit vector holds all its points, and it goes on
to hold them when both are displaced, or turned about the vertical axis.
-/

namespace ObstacleTracking

variable {K : Type} [Field K] [LinearOrder K] [ExactRoots K]

/-! ### Bounds of a cloud -/

/-- No component of `v` is larger than that of `w`. -/
structure Vec3.Below (v w : Vec3 K) : Prop where
  x_le : v.x ≤ w.x
  y_le : v.y ≤ w.y
  z_le : v.z ≤ w.z

namespace Vec3.Below

variable {u v w : Vec3 K}

theorem trans (huv : u.Below v) (hvw : v.Below w) : u.Below w :=
  ⟨huv.x_le.trans hvw.x_le, huv.y_le.trans hvw.y_le, huv.z_le.trans hvw.z_le⟩

theorem lower_left (v w : Vec3 K) : (v.lower w).Below v := by
  constructor <;> simp [Vec3.lower, zipWith, ExactRoots.lower_eq]

theorem lower_right (v w : Vec3 K) : (v.lower w).Below w := by
  constructor <;> simp [Vec3.lower, zipWith, ExactRoots.lower_eq]

theorem upper_left (v w : Vec3 K) : v.Below (v.upper w) := by
  constructor <;> simp [Vec3.upper, zipWith, ExactRoots.upper_eq]

theorem upper_right (v w : Vec3 K) : w.Below (v.upper w) := by
  constructor <;> simp [Vec3.upper, zipWith, ExactRoots.upper_eq]

end Vec3.Below

open Vec3.Below in
theorem Cloud.foldl_bounds (cloud : Cloud K) (b : Vec3 K × Vec3 K) :
    let e := cloud.foldl (fun b p => (b.1.lower p, b.2.upper p)) b
    e.1.Below b.1 ∧ b.2.Below e.2 ∧ ∀ p ∈ cloud, e.1.Below p ∧ p.Below e.2 := by
  induction cloud generalizing b with
  | nil =>
    refine ⟨⟨le_rfl, le_rfl, le_rfl⟩, ⟨le_rfl, le_rfl, le_rfl⟩, ?_⟩
    intro p hp
    exact absurd hp List.not_mem_nil
  | cons q cloud ih =>
    obtain ⟨hlow, hhigh, hcloud⟩ := ih (b.1.lower q, b.2.upper q)
    refine ⟨hlow.trans (lower_left b.1 q), (upper_left b.2 q).trans hhigh, ?_⟩
    intro p hp
    rcases List.mem_cons.mp hp with rfl | hp
    · exact ⟨hlow.trans (lower_right b.1 p), (upper_right b.2 p).trans hhigh⟩
    · exact hcloud p hp

theorem Cloud.mem_bounds {cloud : Cloud K} {p : Vec3 K} (hp : p ∈ cloud) :
    (bounds cloud).1.Below p ∧ p.Below (bounds cloud).2 :=
  (foldl_bounds cloud _).2.2 p hp

/-! ### Horizontal unit vectors -/

structure Vec3.IsLevelUnit (v : Vec3 K) : Prop where
  z_eq : v.z = 0
  unit : v.x * v.x + v.y * v.y = 1

/-- The box along a horizontal unit vector holds every point of a cloud. -/
structure OrientedBox.Encloses (box : OrientedBox K) (direction : Vec3 K) (cloud : Cloud K) :
    Prop where
  levelUnit : direction.IsLevelUnit
  along : ∀ p ∈ cloud, |(p - box.center).dot direction| ≤ box.size.x / 2
  across : ∀ p ∈ cloud, |(p - box.center).dot direction.leftward| ≤ box.size.y / 2
  upright : ∀ p ∈ cloud, |p.z - box.center.z| ≤ box.size.z / 2

variable {u v : Vec3 K}

theorem Vec3.IsLevelUnit.turn (hu : u.IsLevelUnit) (r : Yaw K) : (r.turn u).IsLevelUnit := by
  have hdot := r.dot_turnPlane u.horizontal u.horizontal
  have hunit : u.horizontal.dot u.horizontal = 1 := hu.unit
  rw [hunit] at hdot
  exact ⟨hu.z_eq, hdot⟩

section Ordered

variable [IsStrictOrderedRing K]

theorem Vec3.IsLevelUnit.norm_horizontal (hu : u.IsLevelUnit) : u.horizontal.norm = 1 := by
  have hunit : u.horizontal.dot u.horizontal = 1 := hu.unit
  unfold Vec2.norm
  rw [hunit, ExactRoots.sqrt_one]

theorem Vec3.IsLevelUnit.unitHorizontal?_eq (hu : u.IsLevelUnit) :
    u.unitHorizontal? = some u := by
  unfold unitHorizontal?
  dsimp only
  rw [hu.norm_horizontal, if_pos directionTolerance_lt_one, Option.some_inj]
  apply Vec3.ext <;> simp [hu.z_eq]

theorem Vec3.IsLevelUnit.axis_eq (hu : u.IsLevelUnit) : u.axis = u := by
  unfold axis
  rw [hu.unitHorizontal?_eq, Option.getD_some]

theorem Vec3.isLevelUnit_of_unitHorizontal? (h : v.unitHorizontal? = some u) : u.IsLevelUnit := by
  constructor
  · unfold unitHorizontal? at h
    dsimp only at h
    split at h
    · rw [← Option.some_inj.mp h]
    · cases h
  · have hsquare := ExactRoots.sqrt_mul_self u.horizontal.dot_self_nonneg
    have hnorm : Scalar.sqrt (u.horizontal.dot u.horizontal) = 1 := norm_unitHorizontal? h
    rw [hnorm, mul_one] at hsquare
    exact hsquare.symm

theorem Vec3.isLevelUnit_axis (v : Vec3 K) : v.axis.IsLevelUnit := by
  unfold axis
  cases h : v.unitHorizontal? with
  | some u => exact isLevelUnit_of_unitHorizontal? h
  | none => constructor <;> simp [forward]

end Ordered

/-! ### Boxes -/

namespace OrientedBox

variable {box : OrientedBox K} {cloud : Cloud K}

theorem eq_nil_of_around? {direction : Vec3 K} (h : around? cloud direction = none) :
    cloud = [] := by
  cases cloud with
  | nil => rfl
  | cons q cloud => cases h

theorem encloses_nil (hu : u.IsLevelUnit) (h : cloud = []) : box.Encloses u cloud := by
  subst h
  constructor
  · exact hu
  · exact fun p hp => absurd hp List.not_mem_nil
  · exact fun p hp => absurd hp List.not_mem_nil
  · exact fun p hp => absurd hp List.not_mem_nil

/-- Across a horizontal unit vector, the coordinates of a place are those it was made of. -/
theorem coordinates_sub_place (hu : u.IsLevelUnit) (p c : Vec3 K) :
    (p - place u c).dot u = (coordinates u p).x - c.x ∧
      (p - place u c).dot u.leftward = (coordinates u p).y - c.y ∧
      p.z - (place u c).z = (coordinates u p).z - c.z := by
  have hz := hu.z_eq
  have hunit := hu.unit
  refine ⟨?_, ?_, ?_⟩
  · simp [Vec3.dot, place, coordinates, Vec3.leftward, hz]
    linear_combination (-c.x) * hunit
  · simp [Vec3.dot, place, coordinates, Vec3.leftward]
    linear_combination (-c.y) * hunit
  · simp [place, coordinates, Vec3.leftward, hz]

namespace Encloses

theorem shift (h : box.Encloses u cloud) (offset : Vec3 K) :
    Encloses ⟨box.size, box.center + offset⟩ u (Cloud.shift offset cloud) := by
  have hsub : ∀ p : Vec3 K, p + offset - (box.center + offset) = p - box.center := by
    intro p
    apply Vec3.ext <;> simp
  constructor
  · exact h.levelUnit
  · intro p' hp'
    obtain ⟨p, hp, rfl⟩ := List.mem_map.mp hp'
    rw [hsub]
    exact h.along p hp
  · intro p' hp'
    obtain ⟨p, hp, rfl⟩ := List.mem_map.mp hp'
    rw [hsub]
    exact h.across p hp
  · intro p' hp'
    obtain ⟨p, hp, rfl⟩ := List.mem_map.mp hp'
    have hz : (p + offset).z - (box.center + offset).z = p.z - box.center.z :=
      congrArg Vec3.z (hsub p)
    rw [hz]
    exact h.upright p hp

/-- A pose that turns about the vertical axis keeps what a box encloses. -/
theorem move (h : box.Encloses u cloud) {pose : Pose K} {r : Yaw K}
    (hpose : ∀ v, pose.turn v = r.turn v) :
    Encloses ⟨box.size, pose.move box.center⟩ (pose.turn u) (Cloud.move pose cloud) := by
  have hsub : ∀ p : Vec3 K, pose.move p - pose.move box.center = r.turn (p - box.center) := by
    intro p
    unfold Pose.move
    rw [hpose, hpose, r.turn_sub]
    apply Vec3.ext <;> simp
  rw [hpose]
  constructor
  · exact h.levelUnit.turn r
  · intro p' hp'
    obtain ⟨p, hp, rfl⟩ := List.mem_map.mp hp'
    rw [hsub, r.dot_turn]
    exact h.along p hp
  · intro p' hp'
    obtain ⟨p, hp, rfl⟩ := List.mem_map.mp hp'
    rw [hsub, r.leftward_turn, r.dot_turn]
    exact h.across p hp
  · intro p' hp'
    obtain ⟨p, hp, rfl⟩ := List.mem_map.mp hp'
    have hz : (pose.move p).z - (pose.move box.center).z = p.z - box.center.z :=
      congrArg Vec3.z (hsub p)
    rw [hz]
    exact h.upright p hp

end Encloses

variable [IsStrictOrderedRing K]

theorem abs_sub_middle_le {low high x : K} (hlow : low ≤ x) (hhigh : x ≤ high) :
    |x - (high + low) * Scalar.half| ≤ (high - low) / 2 := by
  have hhalf : (Scalar.half : K) = 1 / 2 := ExactScalar.half_eq (α := K)
  rw [hhalf, abs_le]
  constructor <;> linarith

/-- The box that is fitted to a cloud along a horizontal unit vector encloses it. -/
theorem encloses_of_around? (hu : u.IsLevelUnit) (h : around? cloud u = some box) :
    box.Encloses u cloud := by
  cases cloud with
  | nil => cases h
  | cons q cloud =>
    rw [Yaw.around?_cons, hu.axis_eq, Option.some_inj] at h
    subst h
    have hbounds : ∀ p ∈ q :: cloud,
        (Cloud.bounds ((q :: cloud).map (coordinates u))).1.Below (coordinates u p) ∧
          (coordinates u p).Below (Cloud.bounds ((q :: cloud).map (coordinates u))).2 :=
      fun p hp => Cloud.mem_bounds (List.mem_map_of_mem hp)
    generalize Cloud.bounds ((q :: cloud).map (coordinates u)) = bounds at hbounds
    constructor
    · exact hu
    · intro p hp
      obtain ⟨hlow, hhigh⟩ := hbounds p hp
      rw [(coordinates_sub_place hu p _).1]
      exact abs_sub_middle_le hlow.x_le hhigh.x_le
    · intro p hp
      obtain ⟨hlow, hhigh⟩ := hbounds p hp
      rw [(coordinates_sub_place hu p _).2.1]
      exact abs_sub_middle_le hlow.y_le hhigh.y_le
    · intro p hp
      obtain ⟨hlow, hhigh⟩ := hbounds p hp
      rw [(coordinates_sub_place hu p _).2.2]
      exact abs_sub_middle_le hlow.z_le hhigh.z_le

end OrientedBox

end ObstacleTracking
