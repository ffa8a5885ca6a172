import ObstacleTracking.Proofs.Scalar.Field
import ObstacleTracking.Proofs.Filter.Axes

/-!
# Means as positions and velocities

A motion state is its position and its velocity. A matrix that does not mix the axes combines the
two on each axis; the transition of a time step moves the position along the velocity.
-/

namespace ObstacleTracking

namespace MotionState

variable {α : Type}

theorem ofParts_position_velocity (s : MotionState α) : ofParts s.position s.velocity = s := by
  apply Vector.ext
  intro i hi
  match i, hi with
  | 0, _ => rfl
  | 1, _ => rfl
  | 2, _ => rfl
  | 3, _ => rfl
  | 4, _ => rfl
  | 5, _ => rfl

theorem ext_parts {s t : MotionState α} (hp : s.position = t.position)
    (hv : s.velocity = t.velocity) : s = t := by
  rw [← ofParts_position_velocity s, hp, hv, ofParts_position_velocity]

variable [Scalar α]

@[simp] theorem position_plus (s t : MotionState α) :
    (s.plus t).position = s.position + t.position := by
  simp [position, plus]
  rfl

@[simp] theorem velocity_plus (s t : MotionState α) :
    (s.plus t).velocity = s.velocity + t.velocity := by
  simp [velocity, plus]
  rfl

@[simp] theorem position_minus (s t : MotionState α) :
    (s.minus t).position = s.position - t.position := by
  simp [position, minus]
  rfl

@[simp] theorem velocity_minus (s t : MotionState α) :
    (s.minus t).velocity = s.velocity - t.velocity := by
  simp [velocity, minus]
  rfl

end MotionState

/-! ### Products with matrices that do not mix the axes -/

section Products

variable {K : Type} [Field K] [LinearOrder K] [ExactRoots K] {m : Fin 3 → Matrix (Fin 2) (Fin 2) K}

theorem get_ofAxes_mul (s : MotionState K) (a : Fin 2) (k : Fin 3) :
    ((Mat.ofField (ofAxes m) : Mat 6 6 K) * s)[place (a, k)] =
      m k a 0 * s[place (0, k)] + m k a 1 * s[place (1, k)] := by
  rw [Mat.get_mulVec, ExactRoots.sum_eq, ← Equiv.sum_comp place, Fintype.sum_prod_type,
    Fin.sum_univ_two]
  simp [Mat.get_ofField, ofAxes_place]

theorem position_ofAxes_mul (s : MotionState K) :
    MotionState.position ((Mat.ofField (ofAxes m) : Mat 6 6 K) * s) =
      ⟨m 0 0 0 * s.position.x + m 0 0 1 * s.velocity.x,
        m 1 0 0 * s.position.y + m 1 0 1 * s.velocity.y,
        m 2 0 0 * s.position.z + m 2 0 1 * s.velocity.z⟩ := by
  apply Vec3.ext
  · exact get_ofAxes_mul s 0 0
  · exact get_ofAxes_mul s 0 1
  · exact get_ofAxes_mul s 0 2

theorem velocity_ofAxes_mul (s : MotionState K) :
    MotionState.velocity ((Mat.ofField (ofAxes m) : Mat 6 6 K) * s) =
      ⟨m 0 1 0 * s.position.x + m 0 1 1 * s.velocity.x,
        m 1 1 0 * s.position.y + m 1 1 1 * s.velocity.y,
        m 2 1 0 * s.position.z + m 2 1 1 * s.velocity.z⟩ := by
  apply Vec3.ext
  · exact get_ofAxes_mul s 1 0
  · exact get_ofAxes_mul s 1 1
  · exact get_ofAxes_mul s 1 2

theorem transition_mul (dt : K) (s : MotionState K) :
    Filter.transition dt * s = MotionState.ofParts (s.position + s.velocity * dt) s.velocity := by
  have htransition := transition_ofField (α := K) dt
  rw [ExactRoots.ofField_self] at htransition
  rw [htransition]
  apply MotionState.ext_parts
  · rw [position_ofAxes_mul, MotionState.position_ofParts]
    apply Vec3.ext <;> simp [axisTransition, mul_comm]
  · rw [velocity_ofAxes_mul, MotionState.velocity_ofParts]
    apply Vec3.ext <;> simp [axisTransition]

end Products

end ObstacleTracking
