import ObstacleTracking.Detection.Basic

/-!
# Segments

Raw points that belong together, and the detection they make: the tight box along their
principal direction, and its ground corners as outline where no other outline is known.
-/

namespace ObstacleTracking

/-- Points of one obstacle before a box is fitted to them. -/
structure Segment (α : Type) [Scalar α] where
  points : Cloud α := []
  /-- An outline that takes the place of the ground corners of the box. -/
  outline : Option (Cloud α) := none
  /-- Principal direction, of which only the horizontal part counts. -/
  direction : Vec3 α := Vec3.forward
  kind : ObstacleKind := .unknown

namespace Segment

variable {α : Type} [Scalar α]

/-- The fitted box; no points make a box without extent at the origin. -/
def box (s : Segment α) : OrientedBox α :=
  (OrientedBox.around? s.points s.direction.axis).getD ⟨0, 0⟩

def detection (s : Segment α) : Detection α :=
  { cloud := s.points
    outline := s.outline.getD (s.box.footprint s.direction.axis)
    center := s.box.center
    direction := s.direction.axis
    size := s.box.size
    kind := s.kind }

end Segment

end ObstacleTracking
