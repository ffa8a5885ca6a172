import ObstacleTracking.Proofs.Geometry.Cloud
import ObstacleTracking.Proofs.Linear.Lift
import ObstacleTracking.Detection.Observation

/-!
# Moved detections

A detection is moved in one step or in several, to be displaced is to be moved without a turn, and
the point that stands for it is moved with it.
-/

namespace ObstacleTracking.Detection

variable {K : Type} [Field K] [LinearOrder K] [ExactRoots K]

theorem move_move {a : Pose K} (ha : a.IsAffine) (b : Pose K) (d : Detection K) :
    (d.move a).move b = d.move (b * a) := by
  unfold move
  dsimp only
  rw [Cloud.move_move ha, Cloud.move_move ha, Pose.move_mul ha, Pose.turn_mul ha]

theorem shift_eq_move (t : Vec3 K) (d : Detection K) : d.shift t = d.move (Pose.ofOrigin t) := by
  unfold shift move
  rw [Cloud.move_ofOrigin, Cloud.move_ofOrigin, Pose.move_ofOrigin, Pose.turn_ofOrigin]

variable [IsStrictOrderedRing K]

theorem barycenter_ofDetection (p : Pose K) (bins : Option ℕ) (d : Detection K) :
    (Observation.ofDetection p bins d).barycenter =
      p.move ((Cloud.barycenter? d.cloud).getD d.center) := by
  show (Cloud.barycenter? (Cloud.move p d.cloud)).getD (p.move d.center) = _
  rw [Cloud.barycenter?_move, Option.getD_map]

/-- To move by one pose and then by another is to move by their product, and to displace is to move
by a pose that does not turn. A detection is observed at the place to which the mean of its points
is moved, or its center if it has none. -/
theorem moves_compose {a : Pose K} (ha : a.IsAffine) (d : Detection K) :
    (∀ b : Pose K, (d.move a).move b = d.move (b * a)) ∧
      (∀ t : Vec3 K, d.shift t = d.move (Pose.ofOrigin t)) ∧
      ∀ bins : Option ℕ,
        let o := Observation.ofDetection a bins d
        (d.cloud ≠ [] → o.barycenter = a.move (Cloud.mean d.cloud) ∧
          o.anchor = a.move (Cloud.mean d.cloud)) ∧
        (d.cloud = [] → o.barycenter = a.move d.center ∧ o.anchor = a.move d.center) := by
  refine ⟨fun b => move_move ha b d, fun t => shift_eq_move t d, ?_⟩
  intro bins o
  have hbarycenter : o.barycenter = a.move ((Cloud.barycenter? d.cloud).getD d.center) :=
    barycenter_ofDetection a bins d
  -- the anchor starts where the barycenter is
  have hanchor : o.anchor = o.barycenter := rfl
  rw [hanchor, hbarycenter]
  constructor
  · intro h
    rw [Cloud.barycenter?_eq h, Option.getD_some]
    exact ⟨rfl, rfl⟩
  · intro h
    rw [h]
    exact ⟨rfl, rfl⟩

section Example

attribute [local instance] ExactRoots.real

/-- Two points under a pose that stretches and shears, and then a step upwards. -/
theorem moves_compose_sheared :
    let a : Pose ℝ := Mat.ofField !![2, 1, 0, 5; 0, 3, 0, 0; 0, 0, 1, 0; 0, 0, 0, 1]
    let d : Detection ℝ :=
      ⟨[⟨0, 0, 0⟩, ⟨2, 4, 2⟩], [], ⟨9, 9, 9⟩, Vec3.forward, ⟨2, 4, 2⟩, .vehicle⟩
    a.IsAffine ∧ (Observation.ofDetection a none d).anchor = ⟨9, 6, 1⟩ ∧
      (d.move a).shift ⟨0, 0, 1⟩ = d.move ((Pose.ofOrigin ⟨0, 0, 1⟩ : Pose ℝ) * a) := by
  intro a d
  have ha : a.IsAffine := by
    constructor
    intro j
    rw [Mat.get_identity]
    fin_cases j <;> simp [a]
  have hmove : ∀ v, a.move v = ⟨2 * v.x + v.y + 5, 3 * v.y, v.z⟩ := by
    intro v
    apply Vec3.ext <;> simp [a, Pose.move, Pose.turn, Pose.origin]
  obtain ⟨hmoves, -, hobserved⟩ := moves_compose ha d
  obtain ⟨-, hshift, -⟩ := moves_compose ha (d.move a)
  refine ⟨ha, ?_, ?_⟩
  · rw [((hobserved none).1 (List.cons_ne_nil _ _)).2, hmove]
    apply Vec3.ext <;> norm_num [d, Cloud.mean]
  · rw [hshift, hmoves]

end Example

end ObstacleTracking.Detection
