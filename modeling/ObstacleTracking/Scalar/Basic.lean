/-!
# Scalars

The arithmetic that the whole library is written over. A scalar type has the four operations,
a decidable comparison, square root and two-argument arctangent; nothing is assumed of them, so
that machine numbers (with values that are not numbers and two zeros) and an exact ordered
field are both scalar types. Comparisons are written so that a value that is not a number
fails every one of them.
-/

namespace ObstacleTracking

/-- Numbers that positions, costs and covariances are measured in. -/
class Scalar (α : Type) extends
    Zero α, One α, Add α, Sub α, Mul α, Div α, Neg α, LT α, LE α, NatCast α where
  /-- Strict comparison is decided; with a value that is not a number it is false. -/
  decLt : DecidableLT α
  /-- Comparison is decided; with a value that is not a number it is false. -/
  decLe : DecidableLE α
  sqrt : α → α
  /-- The angle of a point of the plane, counter-clockwise from the first axis. The second
  coordinate is given first. -/
  atan2 : α → α → α
  /-- Neither infinite nor a value that is not a number. -/
  isFinite : α → Bool
  /-- The largest natural number not above the scalar, held between zero and the largest index. -/
  floorIndex : α → Nat

namespace Scalar

variable {α : Type} [Scalar α]

instance instDecidableLT (a b : α) : Decidable (a < b) := decLt a b

instance instDecidableLE (a b : α) : Decidable (a ≤ b) := decLe a b

/-! ### Sign and size -/

def abs (a : α) : α := if a < 0 then -a else a

/-- The larger of two numbers; a number wins over a value that is not one. -/
def maxNum (a b : α) : α := if a ≤ b then b else if a ≤ a then a else b

/-- The smaller of two numbers; a number wins over a value that is not one. -/
def minNum (a b : α) : α := if a ≤ b then a else if b ≤ b then b else a

/-- The smaller of two values, the second whenever they do not compare. -/
def lower (a b : α) : α := if a ≤ b then a else b

/-- The larger of two values, the second whenever they do not compare. -/
def upper (a b : α) : α := if b ≤ a then a else b

/-- The nearest value between `lo` and `hi`. -/
def clamp (lo hi a : α) : α := if a < lo then lo else if hi < a then hi else a

/-! ### Constants -/

/-- The quotient of two natural numbers, nearest to it where scalars round. -/
def ratio (n d : Nat) : α := (n : α) / (d : α)

def half : α := ratio 1 2

/-- Spacing of the 53-bit numbers just above one. -/
def doubleSpacing : α := ratio 1 (Nat.pow 2 52)

/-- Spacing of the 24-bit numbers just above one. -/
def singleSpacing : α := ratio 1 (Nat.pow 2 23)

/-- The least positive number that is held with all 53 bits. -/
def leastNormal : α := ratio 1 (Nat.pow 2 1022)

/-- The largest finite 53-bit number, beyond every coordinate in use. -/
def farthest : α := ((Nat.pow 2 1024 - Nat.pow 2 971 : Nat) : α)

def quarterTurn : α := atan2 1 0

end Scalar

end ObstacleTracking
