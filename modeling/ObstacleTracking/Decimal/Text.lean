import ObstacleTracking.Decimal.Binary
import ObstacleTracking.Decimal.Shortest

/-!
# Number text

How machine numbers are written in messages and descriptions: with their shortest digits, or
with a fixed number of places.
-/

namespace ObstacleTracking

/-- The choices of a style that writes shortest digits. -/
structure DigitStyle where
  /-- A whole number ends in a point and a zero. -/
  marksWhole : Bool
  /-- The powers of ten of the leading digit that are written as a power. -/
  usesPower : Int → Bool

namespace DigitStyle

/-- All digits are written out, and a whole number has no point. -/
def plain : DigitStyle := ⟨false, fun _ => false⟩

/-- A whole number keeps a point; numbers from `10 ^ 16` on and below `10 ^ -4` get a power. -/
def marked : DigitStyle := ⟨true, fun e => 16 ≤ e || e < -4⟩

/-- The text of a number given by its shortest decimal. -/
def decimal (style : DigitStyle) (d : Decimal) : String :=
  if d.coefficient ≠ 0 && style.usesPower d.leadingExponent then d.scientific
  else if style.marksWhole && 0 ≤ d.exponent then d.positional ++ ".0"
  else d.positional

end DigitStyle

/-- The text of a value: a sign in front of negative ones, zero included. -/
def MachineNumber.text (digits : Nat → Int → String) : MachineNumber → String
  | .notNumber => "NaN"
  | .infinite negative => (if negative then "-" else "") ++ "inf"
  | .finite negative m q => (if negative then "-" else "") ++ digits m q

/-- The text of a machine number with its shortest digits. -/
def DigitStyle.text (style : DigitStyle) (x : Float) : String :=
  (MachineNumber.ofFloat x).text fun m q => style.decimal (Decimal.shortest m q)

/-- The text of a machine number rounded to a number of places, ties to even. -/
def fixedText (places : Nat) (x : Float) : String :=
  (MachineNumber.ofFloat x).text fun m q =>
    ((Decimal.ofBinary m q).roundAt (-(places : Int))).positional

end ObstacleTracking
