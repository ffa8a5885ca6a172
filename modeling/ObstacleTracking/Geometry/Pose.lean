import ObstacleTracking.Linear.Matrix
import ObstacleTracking.Linear.Vec3

/-!
# Poses

Where one coordinate frame stands in another, as a matrix of four rows: the upper left block
turns directions, the last column moves points.
-/

namespace ObstacleTracking

/-- A homogeneous transform of space. -/
abbrev Pose (α : Type) := Mat 4 4 α

namespace Pose

variable {α : Type} [Scalar α]

/-- Where the origin of the inner frame stands in the outer one. -/
def origin (p : Pose α) : Vec3 α := ⟨p 0 3, p 1 3, p 2 3⟩

/-- A direction is turned and not displaced. -/
def turn (p : Pose α) (v : Vec3 α) : Vec3 α :=
  ⟨p 0 0 * v.x + p 0 1 * v.y + p 0 2 * v.z,
   p 1 0 * v.x + p 1 1 * v.y + p 1 2 * v.z,
   p 2 0 * v.x + p 2 1 * v.y + p 2 2 * v.z⟩

/-- A point is turned and then displaced. -/
def move (p : Pose α) (v : Vec3 α) : Vec3 α := p.turn v + p.origin

/-- The same pose with the place of the inner origin displaced by `offset`. -/
def displace (p : Pose α) (offset : Vec3 α) : Pose α :=
  Mat.ofFn fun i j =>
    if j = 3 then
      if i = 0 then p i j + offset.x
      else if i = 1 then p i j + offset.y
      else if i = 2 then p i j + offset.z
      else p i j
    else p i j

def ofOrigin (t : Vec3 α) : Pose α := displace Mat.identity t

@[simp] theorem turn_displace (p : Pose α) (t v : Vec3 α) : (p.displace t).turn v = p.turn v := by
  simp [turn, displace]

@[simp] theorem origin_displace (p : Pose α) (t : Vec3 α) :
    (p.displace t).origin = p.origin + t := by
  simp [origin, displace]
  rfl

end Pose

end ObstacleTracking
