import ObstacleTracking.Proofs.Geometry.Bounds
import ObstacleTracking.Proofs.Geometry.Enclosure

/-!
# Tight boxes

The box around a cloud along a direction is the only one along its axis that the points touch on
all six sides. So it depends on the points only as a set, and on the direction only through its
axis: turned half round it gives the same box, and turned a quarter the same with length and width
exchanged.
-/

namespace ObstacleTracking

variable {K : Type} [Field K] [LinearOrder K] [ExactRoots K]

/-! ### Extents -/

/-- In one measure the points keep within half an extent of a center, and reach as far in both
directions. -/
structure Cloud.Reaches (measure : Vec3 K → K) (center : Vec3 K) (extent : K) (cloud : Cloud K) :
    Prop where
  within : ∀ p ∈ cloud, |measure (p - center)| ≤ extent / 2
  ahead : ∃ p ∈ cloud, measure (p - center) = extent / 2
  behind : ∃ p ∈ cloud, measure (p - center) = -(extent / 2)

namespace Cloud.Reaches

variable {measure : Vec3 K → K} {center center' : Vec3 K} {extent extent' : K}
  {cloud cloud' : Cloud K}

theorem perm (h : cloud.Reaches measure center extent) (hperm : cloud.Perm cloud') :
    cloud'.Reaches measure center extent := by
  obtain ⟨p, hp, hahead⟩ := h.ahead
  obtain ⟨q, hq, hbehind⟩ := h.behind
  constructor
  · exact fun p hp => h.within p (hperm.mem_iff.mpr hp)
  · exact ⟨p, hperm.mem_iff.mp hp, hahead⟩
  · exact ⟨q, hperm.mem_iff.mp hq, hbehind⟩

theorem neg (h : cloud.Reaches measure center extent) {measure' : Vec3 K → K}
    (hneg : ∀ v, measure' v = -measure v) : cloud.Reaches measure' center extent := by
  obtain ⟨p, hp, hahead⟩ := h.ahead
  obtain ⟨q, hq, hbehind⟩ := h.behind
  constructor
  · intro p hp
    rw [hneg, abs_neg]
    exact h.within p hp
  · exact ⟨q, hq, by rw [hneg, hbehind, neg_neg]⟩
  · exact ⟨p, hp, by rw [hneg, hahead]⟩

/-- The points fix how far they reach, and where the middle is. -/
theorem unique [IsStrictOrderedRing K] (hsub : ∀ v w, measure (v - w) = measure v - measure w)
    (h : cloud.Reaches measure center extent) (h' : cloud.Reaches measure center' extent') :
    measure center = measure center' ∧ extent = extent' := by
  obtain ⟨p, hp, hahead⟩ := h.ahead
  obtain ⟨q, hq, hbehind⟩ := h.behind
  obtain ⟨p', hp', hahead'⟩ := h'.ahead
  obtain ⟨q', hq', hbehind'⟩ := h'.behind
  have hp₁ := (abs_le.mp (h'.within p hp)).2
  have hq₁ := (abs_le.mp (h'.within q hq)).1
  have hp₂ := (abs_le.mp (h.within p' hp')).2
  have hq₂ := (abs_le.mp (h.within q' hq')).1
  rw [hsub] at hahead hbehind hahead' hbehind' hp₁ hq₁ hp₂ hq₂
  constructor <;> linarith

end Cloud.Reaches

/-! ### Axes -/

namespace Vec3

theorem sub_dot (v w u : Vec3 K) : (v - w).dot u = v.dot u - w.dot u := by
  simp only [dot, x_sub, y_sub, z_sub]
  ring

theorem dot_neg (v u : Vec3 K) : v.dot (-u) = -v.dot u := by
  simp only [dot, x_neg, y_neg, z_neg]
  ring

theorem leftward_neg (u : Vec3 K) : (-u).leftward = -u.leftward := by
  apply Vec3.ext <;> simp [leftward]

/-- Two quarter turns are half a turn, for a vector that is level. -/
theorem leftward_leftward {u : Vec3 K} (hu : u.IsLevelUnit) : u.leftward.leftward = -u := by
  apply Vec3.ext <;> simp [leftward, hu.z_eq]

end Vec3

namespace Vec3.IsLevelUnit

variable {u w : Vec3 K} {length : K}

theorem neg (hu : u.IsLevelUnit) : (-u).IsLevelUnit := by
  have hunit := hu.unit
  constructor
  · rw [z_neg, hu.z_eq, neg_zero]
  · rw [x_neg, y_neg]
    linear_combination hunit

theorem leftward (hu : u.IsLevelUnit) : u.leftward.IsLevelUnit := by
  have hunit := hu.unit
  constructor
  · rfl
  · unfold Vec3.leftward
    linear_combination hunit

variable [IsStrictOrderedRing K]

theorem abs_le_one (hu : u.IsLevelUnit) : |u.x| ≤ 1 ∧ |u.y| ≤ 1 := by
  have hunit := hu.unit
  constructor
  · rw [abs_le_one_iff_mul_self_le_one]
    linarith [mul_self_nonneg u.y]
  · rw [abs_le_one_iff_mul_self_le_one]
    linarith [mul_self_nonneg u.x]

theorem norm_horizontal_eq (hu : u.IsLevelUnit) (hlength : 0 ≤ length) (hx : w.x = u.x * length)
    (hy : w.y = u.y * length) : w.horizontal.norm = length := by
  have hunit := hu.unit
  refine ExactRoots.sqrt_eq hlength ?_
  unfold Vec2.dot horizontal
  rw [hx, hy]
  linear_combination length * length * hunit

/-- The axis of a vector is the level unit vector that it is a multiple of. -/
theorem axis_eq_of_mul (hu : u.IsLevelUnit) (hlength : directionTolerance < length)
    (hx : w.x = u.x * length) (hy : w.y = u.y * length) : w.axis = u := by
  have hpos := directionTolerance_pos.trans hlength
  have hnorm := hu.norm_horizontal_eq hpos.le hx hy
  unfold axis unitHorizontal?
  dsimp only
  rw [hnorm, if_pos hlength, Option.getD_some, hx, hy, mul_div_cancel_right₀ _ hpos.ne',
    mul_div_cancel_right₀ _ hpos.ne', ← hu.z_eq]

end Vec3.IsLevelUnit

/-! ### Boxes -/

namespace OrientedBox

/-- The box along a level unit vector holds a cloud, and the points touch all its sides. -/
structure IsTight (box : OrientedBox K) (u : Vec3 K) (cloud : Cloud K) : Prop where
  levelUnit : u.IsLevelUnit
  along : cloud.Reaches (·.dot u) box.center box.size.x
  across : cloud.Reaches (·.dot u.leftward) box.center box.size.y
  upright : cloud.Reaches (·.z) box.center box.size.z

/-- The box with its length and its width exchanged. -/
def exchange (box : OrientedBox K) : OrientedBox K :=
  ⟨⟨box.size.y, box.size.x, box.size.z⟩, box.center⟩

variable {box box' : OrientedBox K} {u v w : Vec3 K} {cloud cloud' : Cloud K}

theorem place_coordinates (hu : u.IsLevelUnit) (p : Vec3 K) : place u (coordinates u p) = p := by
  have hz := hu.z_eq
  have hunit := hu.unit
  apply Vec3.ext
  · simp [place, coordinates, Vec3.dot, Vec3.leftward, hz]
    linear_combination p.x * hunit
  · simp [place, coordinates, Vec3.dot, Vec3.leftward, hz]
    linear_combination p.y * hunit
  · simp [place, coordinates, Vec3.leftward, hz]

namespace IsTight

theorem perm (h : box.IsTight u cloud) (hperm : cloud.Perm cloud') : box.IsTight u cloud' :=
  ⟨h.levelUnit, h.along.perm hperm, h.across.perm hperm, h.upright.perm hperm⟩

theorem unique [IsStrictOrderedRing K] (h : box.IsTight u cloud) (h' : box'.IsTight u cloud) :
    box = box' := by
  obtain ⟨hx, hlength⟩ := h.along.unique (fun v w => Vec3.sub_dot v w u) h'.along
  obtain ⟨hy, hwidth⟩ := h.across.unique (fun v w => Vec3.sub_dot v w u.leftward) h'.across
  obtain ⟨hz, hheight⟩ := h.upright.unique Vec3.z_sub h'.upright
  have hcoordinates : coordinates u box.center = coordinates u box'.center := Vec3.ext hx hy hz
  apply OrientedBox.ext
  · exact Vec3.ext hlength hwidth hheight
  · rw [← place_coordinates h.levelUnit box.center, hcoordinates, place_coordinates h.levelUnit]

theorem neg (h : box.IsTight u cloud) : box.IsTight (-u) cloud := by
  constructor
  · exact h.levelUnit.neg
  · exact h.along.neg fun v => Vec3.dot_neg v u
  · rw [Vec3.leftward_neg]
    exact h.across.neg fun v => Vec3.dot_neg v u.leftward
  · exact h.upright

/-- What is along an axis is across the one a quarter turn from it. -/
theorem leftward (h : box.IsTight u cloud) : box.exchange.IsTight u.leftward cloud := by
  constructor
  · exact h.levelUnit.leftward
  · exact h.across
  · rw [Vec3.leftward_leftward h.levelUnit]
    exact h.along.neg fun v => Vec3.dot_neg v u
  · exact h.upright

end IsTight

/-! ### The box around a cloud -/

variable [IsStrictOrderedRing K]

/-- A point is at most twice as far along a level unit vector as along the axes. -/
theorem abs_dot_le (hu : u.IsLevelUnit) {p : Vec3 K} {b : K} (hp : ∀ i, |p.onAxis i| ≤ b) :
    |p.dot u| ≤ 2 * b := by
  obtain ⟨hx, hy⟩ := hu.abs_le_one
  have hpx : |p.x * u.x| ≤ b := by
    rw [abs_mul]
    exact (mul_le_of_le_one_right (abs_nonneg _) hx).trans (hp 0)
  have hpy : |p.y * u.y| ≤ b := by
    rw [abs_mul]
    exact (mul_le_of_le_one_right (abs_nonneg _) hy).trans (hp 1)
  calc |p.dot u| = |p.x * u.x + p.y * u.y| := by rw [Vec3.dot, hu.z_eq, mul_zero, add_zero]
    _ ≤ |p.x * u.x| + |p.y * u.y| := abs_add_le _ _
    _ ≤ 2 * b := by linarith

theorem inReach_coordinates (hu : u.IsLevelUnit) {b : K} (hb : 2 * b ≤ Scalar.farthest)
    (hcloud : ∀ p ∈ cloud, ∀ i, |p.onAxis i| ≤ b) :
    Cloud.InReach (cloud.map (coordinates u)) := by
  intro c hc i
  obtain ⟨p, hp, rfl⟩ := List.mem_map.mp hc
  fin_cases i
  · exact (abs_dot_le hu (hcloud p hp)).trans hb
  · exact (abs_dot_le hu.leftward (hcloud p hp)).trans hb
  · have hz : |p.z| ≤ b := hcloud p hp 2
    have hnonneg := (abs_nonneg p.z).trans hz
    exact hz.trans (by linarith)

/-- Values between the least and the greatest of them reach half their distance from the middle. -/
theorem reaches_of_bounds {measure : Vec3 K → K} {center : Vec3 K} {low high : K}
    (hcenter : ∀ p, measure (p - center) = measure p - (high + low) * Scalar.half)
    (hlow : IsLeast (Cloud.values measure cloud) low)
    (hhigh : IsGreatest (Cloud.values measure cloud) high) :
    cloud.Reaches measure center (high - low) := by
  have hhalf : (Scalar.half : K) = 1 / 2 := ExactScalar.half_eq (α := K)
  obtain ⟨p, hp, hlowest⟩ := hlow.1
  obtain ⟨q, hq, hhighest⟩ := hhigh.1
  constructor
  · intro p hp
    rw [hcenter]
    exact abs_sub_middle_le (hlow.2 ⟨p, hp, rfl⟩) (hhigh.2 ⟨p, hp, rfl⟩)
  · refine ⟨q, hq, ?_⟩
    rw [hcenter, hhighest, hhalf]
    ring
  · refine ⟨p, hp, ?_⟩
    rw [hcenter, hlowest, hhalf]
    ring

theorem exists_isTight (hne : cloud ≠ []) {b : K} (hb : 2 * b ≤ Scalar.farthest)
    (hcloud : ∀ p ∈ cloud, ∀ i, |p.onAxis i| ≤ b) (v : Vec3 K) :
    ∃ box, around? cloud v = some box ∧ box.IsTight v.axis cloud := by
  have hu := Vec3.isLevelUnit_axis v
  have hne' : cloud.map (coordinates v.axis) ≠ [] := by
    rw [Ne, List.map_eq_nil_iff]
    exact hne
  have hbounds := Cloud.isLeast_isGreatest_bounds hne' (inReach_coordinates hu hb hcloud)
  have hvalues : ∀ i, Cloud.values (·.onAxis i) (cloud.map (coordinates v.axis)) =
      Cloud.values (fun p => (coordinates v.axis p).onAxis i) cloud := by
    intro i
    ext x
    simp [Cloud.values]
  cases cloud with
  | nil => exact absurd rfl hne
  | cons p cloud =>
    refine ⟨_, Yaw.around?_cons p cloud v, ?_⟩
    simp only [hvalues] at hbounds
    generalize Cloud.bounds ((p :: cloud).map (coordinates v.axis)) = bounds at hbounds
    constructor
    · exact hu
    · exact reaches_of_bounds (fun p => (coordinates_sub_place hu p _).1)
        (hbounds 0).1 (hbounds 0).2
    · exact reaches_of_bounds (fun p => (coordinates_sub_place hu p _).2.1)
        (hbounds 1).1 (hbounds 1).2
    · exact reaches_of_bounds (fun p => (coordinates_sub_place hu p _).2.2)
        (hbounds 2).1 (hbounds 2).2

theorem two_mul_le_farthest : (2 * 10 ^ 300 : K) ≤ Scalar.farthest := by
  have hle : 2 * 10 ^ 300 ≤ Nat.pow 2 1024 - Nat.pow 2 971 := by decide +kernel
  unfold Scalar.farthest
  exact_mod_cast hle

/-- What is tight along the axis of a direction is the box around the cloud. -/
theorem IsTight.around?_eq (h : box.IsTight v.axis cloud) (hne : cloud ≠ [])
    (hcloud : ∀ p ∈ cloud, ∀ i, |p.onAxis i| ≤ 10 ^ 300) : around? cloud v = some box := by
  obtain ⟨box', hbox', htight⟩ := exists_isTight hne two_mul_le_farthest hcloud v
  rw [hbox', h.unique htight]

/-- The box around a cloud along a direction is tight along its horizontal unit vector. It is the
same for every order of the points, for the opposite direction, and for every direction with a
positive multiple of the horizontal part, whatever its vertical part. A quarter turn either way
exchanges its length and its width. -/
theorem around?_isTight (hne : cloud ≠ [])
    (hcloud : ∀ p ∈ cloud, ∀ i, |p.onAxis i| ≤ 10 ^ 300)
    (hv : directionTolerance < v.horizontal.norm) :
    ∃ box, around? cloud v = some box ∧
      box.IsTight ⟨v.x / v.horizontal.norm, v.y / v.horizontal.norm, 0⟩ cloud ∧
      (∀ cloud', cloud.Perm cloud' → around? cloud' v = some box) ∧
      around? cloud (-v) = some box ∧
      (∀ (w : Vec3 K) (s : K), 0 < s → w.x = v.x * s → w.y = v.y * s →
        directionTolerance < w.horizontal.norm → around? cloud w = some box) ∧
      ∀ z : K, around? cloud ⟨-v.y, v.x, z⟩ = some box.exchange ∧
        around? cloud ⟨v.y, -v.x, z⟩ = some box.exchange := by
  have hpos := directionTolerance_pos.trans hv
  obtain ⟨box, hbox, htight⟩ := exists_isTight hne two_mul_le_farthest hcloud v
  have hu := htight.levelUnit
  have haxis : v.axis = ⟨v.x / v.horizontal.norm, v.y / v.horizontal.norm, 0⟩ := by
    unfold Vec3.axis Vec3.unitHorizontal?
    dsimp only
    rw [if_pos hv, Option.getD_some]
  -- the direction is its axis times a length that is long enough, and so are the others
  have hx : v.x = v.axis.x * v.horizontal.norm := by
    rw [haxis, div_mul_cancel₀ _ hpos.ne']
  have hy : v.y = v.axis.y * v.horizontal.norm := by
    rw [haxis, div_mul_cancel₀ _ hpos.ne']
  refine ⟨box, hbox, haxis ▸ htight, ?_, ?_, ?_, ?_⟩
  · intro cloud' hperm
    have hne' : cloud' ≠ [] := fun hnil => hne (List.perm_nil.mp (hnil ▸ hperm))
    exact (htight.perm hperm).around?_eq hne' fun p hp => hcloud p (hperm.mem_iff.mpr hp)
  · have hopposite : (-v).axis = -v.axis := by
      refine hu.neg.axis_eq_of_mul hv ?_ ?_
      · rw [Vec3.x_neg, Vec3.x_neg, neg_mul, ← hx]
      · rw [Vec3.y_neg, Vec3.y_neg, neg_mul, ← hy]
    exact IsTight.around?_eq (hopposite ▸ htight.neg) hne hcloud
  · intro w s hs hwx hwy hw
    have hwx' : w.x = v.axis.x * (v.horizontal.norm * s) := by rw [hwx, ← mul_assoc, ← hx]
    have hwy' : w.y = v.axis.y * (v.horizontal.norm * s) := by rw [hwy, ← mul_assoc, ← hy]
    rw [hu.norm_horizontal_eq (mul_pos hpos hs).le hwx' hwy'] at hw
    exact IsTight.around?_eq (hu.axis_eq_of_mul hw hwx' hwy' ▸ htight) hne hcloud
  · intro z
    have hleft : (⟨-v.y, v.x, z⟩ : Vec3 K).axis = v.axis.leftward := by
      refine hu.leftward.axis_eq_of_mul hv ?_ hx
      show -v.y = -v.axis.y * v.horizontal.norm
      rw [neg_mul, ← hy]
    have hright : (⟨v.y, -v.x, z⟩ : Vec3 K).axis = -v.axis.leftward := by
      refine hu.leftward.neg.axis_eq_of_mul hv ?_ ?_
      · show v.y = - -v.axis.y * v.horizontal.norm
        rw [neg_neg, ← hy]
      · show -v.x = -v.axis.x * v.horizontal.norm
        rw [neg_mul, ← hx]
    constructor
    · exact IsTight.around?_eq (hleft ▸ htight.leftward) hne hcloud
    · exact IsTight.around?_eq (hright ▸ htight.leftward.neg) hne hcloud

section Example

attribute [local instance] ExactRoots.real

/-- Two points, along a direction of length five over the ground and the other way round. -/
theorem around?_isTight_slanted :
    let cloud : Cloud ℝ := [⟨1, 2, 0⟩, ⟨-1, 0, 3⟩]
    ∃ box, around? cloud ⟨3, 4, 5⟩ = some box ∧ box.IsTight ⟨3 / 5, 4 / 5, 0⟩ cloud ∧
      around? cloud.reverse ⟨3, 4, 5⟩ = some box ∧
      around? cloud ⟨-4, 3, 0⟩ = some box.exchange := by
  intro cloud
  have hnorm : (⟨3, 4, 5⟩ : Vec3 ℝ).horizontal.norm = 5 := by
    refine ExactRoots.sqrt_eq (by norm_num) ?_
    norm_num [Vec2.dot, Vec3.horizontal]
  have hlong : directionTolerance < (⟨3, 4, 5⟩ : Vec3 ℝ).horizontal.norm := by
    rw [hnorm]
    exact directionTolerance_lt_one.trans (by norm_num)
  have hsmall : ∀ p ∈ cloud, ∀ i, |p.onAxis i| ≤ (10 : ℝ) ^ 300 := by
    have hthree : (3 : ℝ) ≤ 10 ^ 300 := by
      calc (3 : ℝ) ≤ 10 ^ 1 := by norm_num
        _ ≤ 10 ^ 300 := pow_le_pow_right₀ (by norm_num) (by norm_num)
    intro p hp i
    refine le_trans ?_ hthree
    simp only [cloud, List.mem_cons, List.not_mem_nil, or_false] at hp
    rcases hp with rfl | rfl
    · fin_cases i <;> norm_num [Vec3.onAxis]
    · fin_cases i <;> norm_num [Vec3.onAxis]
  obtain ⟨box, hbox, htight, hperm, -, -, hturned⟩ :=
    around?_isTight (List.cons_ne_nil _ _) hsmall hlong
  rw [hnorm] at htight
  exact ⟨box, hbox, htight, hperm _ (List.reverse_perm _).symm, (hturned 0).1⟩

end Example

end OrientedBox

end ObstacleTracking
