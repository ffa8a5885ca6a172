import ObstacleTracking.Scalar.Basic

/-!
# Vectors of the ground plane

Pairs of scalars: the horizontal part of positions, motions and directions.
-/

namespace ObstacleTracking

/-- A vector of the ground plane. -/
@[ext]
structure Vec2 (α : Type) where
  x : α
  y : α

namespace Vec2

variable {α : Type} [Scalar α]

def dot (v w : Vec2 α) : α := v.x * w.x + v.y * w.y

/-- The signed area spanned by two vectors. -/
def cross (v w : Vec2 α) : α := v.x * w.y - v.y * w.x

def norm (v : Vec2 α) : α := Scalar.sqrt (v.dot v)

instance : HDiv (Vec2 α) α (Vec2 α) := ⟨fun v s => ⟨v.x / s, v.y / s⟩⟩

/-- The vector turned clockwise by a quarter turn. -/
def clockwise (v : Vec2 α) : Vec2 α := ⟨v.y, -v.x⟩

@[simp] theorem x_div (v : Vec2 α) (s : α) : (v / s).x = v.x / s := rfl

@[simp] theorem y_div (v : Vec2 α) (s : α) : (v / s).y = v.y / s := rfl

end Vec2

end ObstacleTracking
