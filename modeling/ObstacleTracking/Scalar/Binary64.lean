import ObstacleTracking.Scalar.Basic

/-!
# Machine scalars

The 64-bit binary numbers of the machine as a scalar type.
-/

namespace ObstacleTracking

/-- Every operation rounds to the nearest 64-bit number. -/
instance Binary64.scalar : Scalar Float where
  zero := 0
  one := 1
  natCast := Float.ofNat
  decLt := Float.decLt
  decLe := Float.decLe
  sqrt := Float.sqrt
  atan2 := Float.atan2
  isFinite := Float.isFinite
  floorIndex a := a.floor.toUInt64.toNat

end ObstacleTracking
