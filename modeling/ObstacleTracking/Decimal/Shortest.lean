import ObstacleTracking.Decimal.Basic

/-!
# Shortest decimals

The shortest decimal that reads back as a given machine number: of all decimals inside the
interval of numbers that round to it the one with the fewest digits, and of those the nearest.
-/

namespace ObstacleTracking

/-- A value between the bounds of its rounding interval, in units of a common power of ten. -/
structure RoundingInterval where
  lowest : Nat
  value : Nat
  highest : Nat
  /-- The bounds themselves round to the value. -/
  closed : Bool
  exponent : Int

namespace RoundingInterval

/-- The numbers that round to `m · 2 ^ q`. Below a power of two the neighbour is twice as near. -/
def ofBinary (m : Nat) (q : Int) : RoundingInterval :=
  let unit := if 2 ≤ q then Nat.pow 2 (q - 2).toNat else Nat.pow 5 (2 - q).toNat
  let below := if m = Nat.pow 2 52 ∧ -1074 < q then 1 else 2
  { lowest := (4 * m - below) * unit
    value := 4 * m * unit
    highest := (4 * m + 2) * unit
    closed := m % 2 == 0
    exponent := if 2 ≤ q then 0 else q - 2 }

/-- Membership, the bounds included exactly when the interval is closed. -/
def contains (r : RoundingInterval) (n : Nat) : Bool :=
  if r.closed then r.lowest ≤ n && n ≤ r.highest else r.lowest < n && n < r.highest

/-- The multiple of `unit` in the interval that is nearest to the value, upwards on a tie. -/
def nearestMultiple? (r : RoundingInterval) (unit : Nat) : Option Nat :=
  let low := r.value / unit * unit
  let high := low + unit
  match r.contains low, r.contains high with
  | true, true => if r.value - low < high - r.value then some low else some high
  | true, false => some low
  | false, true => some high
  | false, false => none

/-- The first of the given digit counts for which the interval holds a decimal of that length. -/
def shortest (r : RoundingInterval) : Decimal :=
  let length := Decimal.digitCount r.value
  let found := (List.range' 1 17).findSome? fun count =>
    r.nearestMultiple? (Nat.pow 10 (length - count))
  (⟨found.getD r.value, r.exponent⟩ : Decimal).normalize

end RoundingInterval

/-- The shortest decimal that reads back as `m · 2 ^ q`. -/
def Decimal.shortest (m : Nat) (q : Int) : Decimal :=
  if m = 0 then ⟨0, 0⟩ else (RoundingInterval.ofBinary m q).shortest

end ObstacleTracking
