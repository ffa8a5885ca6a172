import Mathlib.Analysis.Convex.Hull
import ObstacleTracking.Proofs.Geometry.Cloud
import ObstacleTracking.Proofs.Geometry.Tight
import ObstacleTracking.Detection.Segment

/-!
# Outlines

The ground corners of a box are its middle, half its length ahead or behind and half its width to
the left or to the right. Around a tight box they turn left at every corner, nothing of the cloud
is outside of them, and on every side between two of them lies a point of the cloud.
-/

namespace ObstacleTracking

variable {K : Type} [Field K] [LinearOrder K] [ExactRoots K]

/-- The place that a point is above. -/
def Vec3.ground (p : Vec3 K) : K × K := (p.x, p.y)

namespace OrientedBox

/-- Four corners around a box and the cloud in it, counted so that the box is on the left. -/
structure Outlines (corners : Fin 4 → Vec3 K) (box : OrientedBox K) (cloud : Cloud K) : Prop where
  length_nonneg : 0 ≤ box.size.x
  width_nonneg : 0 ≤ box.size.y
  /-- Each side turns to the left of the one before, by the area of the box. -/
  left_turn : ∀ i, (corners (i + 1) - corners i).horizontal.cross
    (corners (i + 2) - corners (i + 1)).horizontal = box.size.x * box.size.y
  lowest : ∀ i, IsLeast (Cloud.values (·.z) cloud) (corners i).z
  mean_eq : (Cloud.mean (List.ofFn corners)).horizontal = box.center.horizontal
  holds : ∀ p ∈ cloud, p.ground ∈ convexHull K (Set.range fun i => (corners i).ground)
  touched : ∀ i, ∃ p ∈ cloud, p.ground ∈ segment K (corners i).ground (corners (i + 1)).ground

/-! ### Corners -/

/-- The place on the ground that is `a` half lengths ahead and `b` half widths to the left of the
middle. -/
def spot (box : OrientedBox K) (u : Vec3 K) (a b : K) : Vec3 K where
  x := box.center.x + u.x * (a * (box.size.x * Scalar.half)) -
    u.y * (b * (box.size.y * Scalar.half))
  y := box.center.y + u.y * (a * (box.size.x * Scalar.half)) +
    u.x * (b * (box.size.y * Scalar.half))
  z := box.center.z - box.size.z * Scalar.half

/-- The corners from front left on, counter-clockwise. -/
def corner (box : OrientedBox K) (u : Vec3 K) : Fin 4 → Vec3 K :=
  ![box.spot u 1 1, box.spot u (-1) 1, box.spot u (-1) (-1), box.spot u 1 (-1)]

variable [IsStrictOrderedRing K] {box : OrientedBox K} {u : Vec3 K} {cloud : Cloud K}

theorem spot_eq (box : OrientedBox K) (u : Vec3 K) (a b : K) : box.spot u a b =
    ⟨box.center.x + u.x * (a * (box.size.x / 2)) - u.y * (b * (box.size.y / 2)),
      box.center.y + u.y * (a * (box.size.x / 2)) + u.x * (b * (box.size.y / 2)),
      box.center.z - box.size.z / 2⟩ := by
  have hhalf : (Scalar.half : K) = 1 / 2 := ExactScalar.half_eq (α := K)
  unfold spot
  simp only [hhalf, mul_one_div]

theorem footprint_eq (hu : u.IsLevelUnit) : box.footprint u = List.ofFn (box.corner u) := by
  have hz := hu.z_eq
  have hlist : List.ofFn (box.corner u) =
      [box.spot u 1 1, box.spot u (-1) 1, box.spot u (-1) (-1), box.spot u 1 (-1)] := rfl
  unfold footprint
  dsimp only
  rw [hu.axis_eq, hlist]
  simp only [List.cons.injEq, and_true]
  refine ⟨?_, ?_, ?_, ?_⟩ <;> apply Vec3.ext <;> simp [spot, Vec3.leftward, hz] <;> ring

theorem left_turn_corner (hu : u.IsLevelUnit) (i : Fin 4) :
    (box.corner u (i + 1) - box.corner u i).horizontal.cross
      (box.corner u (i + 2) - box.corner u (i + 1)).horizontal = box.size.x * box.size.y := by
  have hunit := hu.unit
  fin_cases i <;> simp [corner, spot_eq, Vec2.cross, Vec3.horizontal] <;>
    linear_combination (box.size.x * box.size.y) * hunit

theorem mean_corner : (Cloud.mean (List.ofFn (box.corner u))).horizontal = box.center.horizontal := by
  apply Vec2.ext
  · simp [corner, spot, Cloud.mean, Vec3.horizontal, List.ofFn_succ]
    ring
  · simp [corner, spot, Cloud.mean, Vec3.horizontal, List.ofFn_succ]
    ring

/-! ### Places between corners -/

/-- A length up to `e` is a part of `e`, even if that is zero. -/
theorem exists_part {x e : K} (h : |x| ≤ e) : ∃ a : K, |a| ≤ 1 ∧ x = a * e := by
  rcases ((abs_nonneg x).trans h).eq_or_lt with hzero | hpos
  · rw [← hzero] at h
    refine ⟨0, abs_zero.trans_le zero_le_one, ?_⟩
    rw [zero_mul]
    exact abs_nonpos_iff.mp h
  · refine ⟨x / e, ?_, (div_mul_cancel₀ x hpos.ne').symm⟩
    rw [abs_div, abs_of_pos hpos]
    exact div_le_one_of_le₀ h hpos.le

theorem mem_segment_of_part {p q r : K × K} {a : K} (ha : |a| ≤ 1)
    (hr : r = ((1 + a) / 2) • p + ((1 - a) / 2) • q) : r ∈ segment K p q := by
  obtain ⟨hlow, hhigh⟩ := abs_le.mp ha
  exact ⟨(1 + a) / 2, (1 - a) / 2, by linarith, by linarith, by ring, hr.symm⟩

theorem spot_mem_length {a : K} (ha : |a| ≤ 1) (b : K) :
    (box.spot u a b).ground ∈ segment K (box.spot u 1 b).ground (box.spot u (-1) b).ground := by
  refine mem_segment_of_part ha ?_
  apply Prod.ext
  · simp [Vec3.ground, spot]
    ring
  · simp [Vec3.ground, spot]
    ring

theorem spot_mem_width (a : K) {b : K} (hb : |b| ≤ 1) :
    (box.spot u a b).ground ∈ segment K (box.spot u a 1).ground (box.spot u a (-1)).ground := by
  refine mem_segment_of_part hb ?_
  apply Prod.ext
  · simp [Vec3.ground, spot]
    ring
  · simp [Vec3.ground, spot]
    ring

theorem ground_eq_spot (hu : u.IsLevelUnit) {p : Vec3 K} {a b : K}
    (ha : (p - box.center).dot u = a * (box.size.x / 2))
    (hb : (p - box.center).dot u.leftward = b * (box.size.y / 2)) :
    p.ground = (box.spot u a b).ground := by
  have hp := place_coordinates hu (p - box.center)
  unfold coordinates at hp
  rw [ha, hb] at hp
  have hx := congrArg Vec3.x hp
  have hy := congrArg Vec3.y hp
  simp [place, Vec3.leftward] at hx hy
  apply Prod.ext
  · simp only [Vec3.ground, spot_eq]
    linarith
  · simp only [Vec3.ground, spot_eq]
    linarith

namespace IsTight

variable {p : Vec3 K} {a b : K}

theorem mem_length (h : box.IsTight u cloud) (hp : p ∈ cloud)
    (hb : (p - box.center).dot u.leftward = b * (box.size.y / 2)) :
    p.ground ∈ segment K (box.spot u 1 b).ground (box.spot u (-1) b).ground := by
  -- how far ahead the point is decides where it lies on the line from front to back
  obtain ⟨a, ha, hpart⟩ := exists_part (h.along.within p hp)
  rw [ground_eq_spot h.levelUnit hpart hb]
  exact spot_mem_length ha b

theorem mem_width (h : box.IsTight u cloud) (hp : p ∈ cloud)
    (ha : (p - box.center).dot u = a * (box.size.x / 2)) :
    p.ground ∈ segment K (box.spot u a 1).ground (box.spot u a (-1)).ground := by
  obtain ⟨b, hb, hpart⟩ := exists_part (h.across.within p hp)
  rw [ground_eq_spot h.levelUnit ha hpart]
  exact spot_mem_width a hb

theorem holds (h : box.IsTight u cloud) (hp : p ∈ cloud) :
    p.ground ∈ convexHull K (Set.range fun i => (box.corner u i).ground) := by
  have hcorner : ∀ i, (box.corner u i).ground ∈
      convexHull K (Set.range fun i => (box.corner u i).ground) :=
    fun i => subset_convexHull K _ ⟨i, rfl⟩
  have hconvex := convex_convexHull K (Set.range fun i => (box.corner u i).ground)
  obtain ⟨b, hb, hpart⟩ := exists_part (h.across.within p hp)
  -- the line through the box meets its front and its back side
  have hfront := hconvex.segment_subset (hcorner 0) (hcorner 3) (spot_mem_width 1 hb)
  have hback := hconvex.segment_subset (hcorner 1) (hcorner 2) (spot_mem_width (-1) hb)
  exact hconvex.segment_subset hfront hback (h.mem_length hp hpart)

theorem touched (h : box.IsTight u cloud) (i : Fin 4) : ∃ p ∈ cloud,
    p.ground ∈ segment K (box.corner u i).ground (box.corner u (i + 1)).ground := by
  -- a point that reaches as far as the box lies on the side there: left, back, right and front
  fin_cases i
  · obtain ⟨p, hp, hleft⟩ := h.across.ahead
    exact ⟨p, hp, h.mem_length hp (hleft.trans (one_mul _).symm)⟩
  · obtain ⟨p, hp, hback⟩ := h.along.behind
    exact ⟨p, hp, h.mem_width hp (hback.trans (neg_one_mul _).symm)⟩
  · obtain ⟨p, hp, hright⟩ := h.across.behind
    refine ⟨p, hp, ?_⟩
    rw [segment_symm]
    exact h.mem_length hp (hright.trans (neg_one_mul _).symm)
  · obtain ⟨p, hp, hfront⟩ := h.along.ahead
    refine ⟨p, hp, ?_⟩
    rw [segment_symm]
    exact h.mem_width hp (hfront.trans (one_mul _).symm)

theorem lowest (h : box.IsTight u cloud) (i : Fin 4) :
    IsLeast (Cloud.values (·.z) cloud) (box.corner u i).z := by
  have hz : (box.corner u i).z = box.center.z - box.size.z / 2 := by
    fin_cases i <;> exact congrArg Vec3.z (spot_eq box u _ _)
  rw [hz]
  constructor
  · obtain ⟨p, hp, hbelow⟩ := h.upright.behind
    rw [Vec3.z_sub] at hbelow
    exact ⟨p, hp, by linarith⟩
  · rintro _ ⟨p, hp, rfl⟩
    have hwithin := (abs_le.mp (h.upright.within p hp)).1
    rw [Vec3.z_sub] at hwithin
    linarith

theorem outlines (h : box.IsTight u cloud) : Outlines (box.corner u) box cloud where
  length_nonneg := by
    obtain ⟨p, hp, -⟩ := h.along.ahead
    have hextent := (abs_nonneg _).trans (h.along.within p hp)
    linarith
  width_nonneg := by
    obtain ⟨p, hp, -⟩ := h.across.ahead
    have hextent := (abs_nonneg _).trans (h.across.within p hp)
    linarith
  left_turn := left_turn_corner h.levelUnit
  lowest := h.lowest
  mean_eq := mean_corner
  holds _ hp := h.holds hp
  touched := h.touched

end IsTight

end OrientedBox

/-! ### Segments -/

namespace Segment

variable [IsStrictOrderedRing K] {s : Segment K}

theorem box_isTight (hne : s.points ≠ []) (hpoints : ∀ p ∈ s.points, ∀ i, |p.onAxis i| ≤ 10 ^ 300) :
    s.box.IsTight s.direction.axis s.points := by
  obtain ⟨found, hfound, htight⟩ := OrientedBox.exists_isTight hne OrientedBox.two_mul_le_farthest
    hpoints s.direction.axis
  rw [(Vec3.isLevelUnit_axis s.direction).axis_eq] at htight
  unfold box
  rw [hfound, Option.getD_some]
  exact htight

/-- A detection that is made of points without an outline of its own is outlined by the corners of
the box around them, whichever way it is directed, or if it has no direction. -/
theorem detection_outlined (hnone : s.outline = none) (hne : s.points ≠ [])
    (hpoints : ∀ p ∈ s.points, ∀ i, |p.onAxis i| ≤ 10 ^ 300) :
    ∃ corners : Fin 4 → Vec3 K, s.detection.outline = List.ofFn corners ∧
      OrientedBox.Outlines corners ⟨s.detection.size, s.detection.center⟩ s.points := by
  have htight := box_isTight hne hpoints
  refine ⟨s.box.corner s.direction.axis, ?_, htight.outlines⟩
  show s.outline.getD (s.box.footprint s.direction.axis) = _
  rw [hnone, Option.getD_none, OrientedBox.footprint_eq htight.levelUnit]

section Example

attribute [local instance] ExactRoots.real

/-- Two points without a direction: the corners are at the height of the lower one. -/
theorem detection_outlined_undirected :
    let s : Segment ℝ := ⟨[⟨1, 2, 0⟩, ⟨-1, 0, 3⟩], none, 0, .vehicle⟩
    ∃ corners : Fin 4 → Vec3 ℝ, s.detection.outline = List.ofFn corners ∧
      (∀ i, (corners i).z = 0) ∧
      ((1, 2) : ℝ × ℝ) ∈ convexHull ℝ (Set.range fun i => (corners i).ground) := by
  intro s
  have hsmall : ∀ p ∈ s.points, ∀ i, |p.onAxis i| ≤ (10 : ℝ) ^ 300 := by
    have hthree : (3 : ℝ) ≤ 10 ^ 300 := by
      calc (3 : ℝ) ≤ 10 ^ 1 := by norm_num
        _ ≤ 10 ^ 300 := pow_le_pow_right₀ (by norm_num) (by norm_num)
    intro p hp i
    refine le_trans ?_ hthree
    simp only [s, List.mem_cons, List.not_mem_nil, or_false] at hp
    rcases hp with rfl | rfl
    · fin_cases i <;> norm_num [Vec3.onAxis]
    · fin_cases i <;> norm_num [Vec3.onAxis]
  obtain ⟨corners, houtline, h⟩ := detection_outlined rfl (List.cons_ne_nil _ _) hsmall
  refine ⟨corners, houtline, ?_, h.holds ⟨1, 2, 0⟩ List.mem_cons_self⟩
  intro i
  refine (h.lowest i).unique ⟨⟨⟨1, 2, 0⟩, List.mem_cons_self, rfl⟩, ?_⟩
  rintro _ ⟨p, hp, rfl⟩
  simp only [s, List.mem_cons, List.not_mem_nil, or_false] at hp
  rcases hp with rfl | rfl
  · exact le_rfl
  · exact zero_le_three

end Example

end Segment

end ObstacleTracking
