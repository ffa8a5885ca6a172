/-!
# Decimals

Numbers `coefficient · 10 ^ exponent`. Every binary fraction is one of them exactly, because a
half is five tenths; rounding and printing work on this exact value.
-/

namespace ObstacleTracking

/-- The non-negative number `coefficient · 10 ^ exponent`. -/
structure Decimal where
  coefficient : Nat
  exponent : Int
  deriving DecidableEq

namespace Decimal

/-- The number of decimal digits of a natural number; zero has one. -/
def digitCount (n : Nat) : Nat := (Nat.toDigits 10 n).length

/-- The exact value of `m · 2 ^ q`. -/
def ofBinary (m : Nat) (q : Int) : Decimal :=
  if 0 ≤ q then ⟨m * Nat.pow 2 q.toNat, 0⟩ else ⟨m * Nat.pow 5 (-q).toNat, q⟩

/-- The power of ten of the leading digit. -/
def leadingExponent (d : Decimal) : Int := d.exponent + digitCount d.coefficient - 1

/-! ### Rounding -/

/-- The natural number nearest to `n / d`; of two equally near ones the even one. -/
def divideNearest (n d : Nat) : Nat :=
  let q := n / d
  let r := n % d
  if 2 * r < d ∨ (2 * r = d ∧ q % 2 = 0) then q else q + 1

/-- The nearest multiple of `10 ^ place`, ties to the even multiple. -/
def roundAt (place : Int) (d : Decimal) : Decimal :=
  if place ≤ d.exponent then ⟨d.coefficient * Nat.pow 10 (d.exponent - place).toNat, place⟩
  else ⟨divideNearest d.coefficient (Nat.pow 10 (place - d.exponent).toNat), place⟩

/-- Trailing zeros of the coefficient are moved into the exponent, at most `fuel` of them. -/
def stripZeros : (fuel : Nat) → Decimal → Decimal
  | 0, d => d
  | fuel + 1, d =>
    if d.coefficient ≠ 0 ∧ d.coefficient % 10 = 0 then
      stripZeros fuel ⟨d.coefficient / 10, d.exponent + 1⟩
    else d

/-- The same number without trailing zeros in its coefficient; zero has exponent zero. -/
def normalize (d : Decimal) : Decimal :=
  if d.coefficient = 0 then ⟨0, 0⟩ else stripZeros (digitCount d.coefficient) d

/-! ### Digits -/

/-- The number without exponent: all digits of the whole part, then those after the point. -/
def positional (d : Decimal) : String :=
  let digits := Nat.toDigits 10 d.coefficient
  if 0 ≤ d.exponent then
    String.ofList (digits ++ List.replicate (if d.coefficient = 0 then 0 else d.exponent.toNat) '0')
  else
    let places := (-d.exponent).toNat
    let padded := List.replicate (places + 1 - digits.length) '0' ++ digits
    let whole := padded.length - places
    String.ofList (padded.take whole ++ '.' :: padded.drop whole)

/-- One digit before the point, the others after it, then the power of ten. -/
def scientific (d : Decimal) : String :=
  let power := "e" ++ toString d.leadingExponent
  match Nat.toDigits 10 d.coefficient with
  | [] => power
  | [c] => String.singleton c ++ power
  | c :: rest => String.ofList (c :: '.' :: rest) ++ power

end Decimal

end ObstacleTracking
