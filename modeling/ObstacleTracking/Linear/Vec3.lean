import ObstacleTracking.Linear.Vec2

/-!
# Vectors of space

Triples of scalars. Points and displacements share this type: the third axis points up, and
`horizontal` forgets it.
-/

namespace ObstacleTracking

/-- A point or a displacement of space. -/
@[ext]
structure Vec3 (α : Type) where
  x : α
  y : α
  z : α

namespace Vec3

variable {α β γ : Type}

def map (f : α → β) (v : Vec3 α) : Vec3 β := ⟨f v.x, f v.y, f v.z⟩

def zipWith (f : α → β → γ) (v : Vec3 α) (w : Vec3 β) : Vec3 γ :=
  ⟨f v.x w.x, f v.y w.y, f v.z w.z⟩

def fill (a : α) : Vec3 α := ⟨a, a, a⟩

def toList (v : Vec3 α) : List α := [v.x, v.y, v.z]

variable [Scalar α]

instance : Zero (Vec3 α) := ⟨fill 0⟩

instance : Add (Vec3 α) := ⟨zipWith (· + ·)⟩

instance : Sub (Vec3 α) := ⟨zipWith (· - ·)⟩

instance : Neg (Vec3 α) := ⟨map (-·)⟩

instance : HMul (Vec3 α) α (Vec3 α) := ⟨fun v s => v.map (· * s)⟩

instance : HDiv (Vec3 α) α (Vec3 α) := ⟨fun v s => v.map (· / s)⟩

def forward : Vec3 α := ⟨1, 0, 0⟩

def dot (v w : Vec3 α) : α := v.x * w.x + v.y * w.y + v.z * w.z

def norm (v : Vec3 α) : α := Scalar.sqrt (v.dot v)

/-- The vector without its vertical component. -/
def horizontal (v : Vec3 α) : Vec2 α := ⟨v.x, v.y⟩

/-- The horizontal vector a quarter turn counter-clockwise of `v`. -/
def leftward (v : Vec3 α) : Vec3 α := ⟨-v.y, v.x, 0⟩

/-- Componentwise least values; a component that does not compare is replaced by the second. -/
def lower (v w : Vec3 α) : Vec3 α := zipWith Scalar.lower v w

/-- Componentwise greatest values; a component that does not compare is replaced by the second. -/
def upper (v w : Vec3 α) : Vec3 α := zipWith Scalar.upper v w

/-! ### Components of the operations -/

@[simp] theorem x_zero : (0 : Vec3 α).x = 0 := rfl

@[simp] theorem y_zero : (0 : Vec3 α).y = 0 := rfl

@[simp] theorem z_zero : (0 : Vec3 α).z = 0 := rfl

@[simp] theorem x_add (v w : Vec3 α) : (v + w).x = v.x + w.x := rfl

@[simp] theorem y_add (v w : Vec3 α) : (v + w).y = v.y + w.y := rfl

@[simp] theorem z_add (v w : Vec3 α) : (v + w).z = v.z + w.z := rfl

@[simp] theorem x_sub (v w : Vec3 α) : (v - w).x = v.x - w.x := rfl

@[simp] theorem y_sub (v w : Vec3 α) : (v - w).y = v.y - w.y := rfl

@[simp] theorem z_sub (v w : Vec3 α) : (v - w).z = v.z - w.z := rfl

@[simp] theorem x_neg (v : Vec3 α) : (-v).x = -v.x := rfl

@[simp] theorem y_neg (v : Vec3 α) : (-v).y = -v.y := rfl

@[simp] theorem z_neg (v : Vec3 α) : (-v).z = -v.z := rfl

@[simp] theorem x_mul (v : Vec3 α) (s : α) : (v * s).x = v.x * s := rfl

@[simp] theorem y_mul (v : Vec3 α) (s : α) : (v * s).y = v.y * s := rfl

@[simp] theorem z_mul (v : Vec3 α) (s : α) : (v * s).z = v.z * s := rfl

@[simp] theorem x_div (v : Vec3 α) (s : α) : (v / s).x = v.x / s := rfl

@[simp] theorem y_div (v : Vec3 α) (s : α) : (v / s).y = v.y / s := rfl

@[simp] theorem z_div (v : Vec3 α) (s : α) : (v / s).z = v.z / s := rfl

end Vec3

end ObstacleTracking
