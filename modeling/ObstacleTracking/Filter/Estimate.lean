import ObstacleTracking.Linear.Matrix
import ObstacleTracking.Linear.Vec3

/-!
# Estimates

What is believed of a moving point: a mean state of six entries, position before velocity, and
its covariance.
-/

namespace ObstacleTracking

/-- The position of a point followed by its velocity. -/
abbrev MotionState (α : Type) := Vector α 6

namespace MotionState

variable {α : Type}

def ofParts (position velocity : Vec3 α) : MotionState α :=
  #v[position.x, position.y, position.z, velocity.x, velocity.y, velocity.z]

def position (s : MotionState α) : Vec3 α := ⟨s[0], s[1], s[2]⟩

def velocity (s : MotionState α) : Vec3 α := ⟨s[3], s[4], s[5]⟩

@[simp] theorem position_ofParts (p v : Vec3 α) : position (ofParts p v) = p := rfl

@[simp] theorem velocity_ofParts (p v : Vec3 α) : velocity (ofParts p v) = v := rfl

variable [Scalar α]

def plus (s t : MotionState α) : MotionState α := Vector.zipWith (· + ·) s t

def minus (s t : MotionState α) : MotionState α := Vector.zipWith (· - ·) s t

end MotionState

/-- A mean state and how uncertain it is. -/
@[ext]
structure Estimate (α : Type) where
  mean : MotionState α
  covariance : Mat 6 6 α

namespace Estimate

variable {α : Type}

def position (e : Estimate α) : Vec3 α := MotionState.position e.mean

def velocity (e : Estimate α) : Vec3 α := MotionState.velocity e.mean

def velocityCovariance (e : Estimate α) : Mat 3 3 α :=
  Mat.ofFn fun i j => e.covariance (i.natAdd 3) (j.natAdd 3)

end Estimate

end ObstacleTracking
