import ObstacleTracking.Decimal.Basic

/-!
# What a machine number denotes

The 64 bits of a machine number are a sign, eleven bits of exponent and fifty-two bits of
fraction. A finite number is `m · 2 ^ q` up to its sign.
-/

namespace ObstacleTracking

/-- The value of a machine number, read from its bits. -/
inductive MachineNumber where
  /-- The number `± m · 2 ^ q`. -/
  | finite (negative : Bool) (m : Nat) (q : Int)
  | infinite (negative : Bool)
  | notNumber
  deriving DecidableEq

/-- A full exponent field marks values that are not finite, an empty one numbers near zero. -/
def MachineNumber.ofBits (bits : Nat) : MachineNumber :=
  let hidden := Nat.pow 2 52
  let negative := bits / (hidden * 2048) == 1
  let exponent := bits / hidden % 2048
  let fraction := bits % hidden
  if exponent = 2047 then
    if fraction = 0 then .infinite negative else .notNumber
  else if exponent = 0 then .finite negative fraction (-1074)
  else .finite negative (hidden + fraction) (exponent - 1075 : Int)

def MachineNumber.ofFloat (x : Float) : MachineNumber := .ofBits x.toBits.toNat

/-- The value as a multiple of the least positive machine number, which every finite one is. What
is not finite counts as the power of two after the largest finite number. -/
def MachineNumber.units : MachineNumber → Int
  | .finite negative m q =>
    let size : Int := (m <<< (q + 1074).toNat : Nat)
    if negative then -size else size
  | .infinite true => -((1 <<< 2098 : Nat) : Int)
  | .infinite false => (1 <<< 2098 : Nat)
  | .notNumber => (1 <<< 2098 : Nat)

end ObstacleTracking
