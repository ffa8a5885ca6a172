import ObstacleTracking.Config.Basic
import ObstacleTracking.Detection.Observation
import ObstacleTracking.Filter.Estimate

/-!
# Dissimilarity

How little a new observation looks like the continuation of a track: a weighted sum of how far
it is from where the track is expected, how its motion deviates, and how its box, its number of
points and its shape differ from the last observation.
-/

namespace ObstacleTracking.Dissimilarity

variable {α : Type} [Scalar α]

/-! ### Location -/

/-- Obstacles faster than this may be further away along their motion than across it. -/
def fastSpeed : α := ((2 : Nat) : α)

/-- The horizontal length of a deviation; relative to a fast motion its part along the motion
counts half and its part across the motion twice. -/
def deviation (motion difference : Vec2 α) : α :=
  let speed := motion.norm
  if fastSpeed < speed then
    let ahead := motion / speed
    Vec2.norm ⟨difference.dot ahead * Scalar.half, difference.dot ahead.clockwise * ((2 : Nat) : α)⟩
  else difference.norm

/-- The deviation of an observed anchor from its expected position. -/
def location (last : Observation α) (expected : MotionState α) (o : Observation α) : α :=
  deviation last.velocity.horizontal (o.anchor - MotionState.position expected).horizontal

/-! ### Direction -/

/-- The cosine that is taken when one of the motions has no direction. -/
def undirectedCosine : α := Scalar.ratio 994 1000

/-- One less the cosine of the angle between the observed and the expected motion. -/
def direction (last : Observation α) (expected : MotionState α) (o : Observation α) (dt : α) : α :=
  let observed := o.anchor - last.anchor
  let motion := MotionState.velocity expected * dt
  if observed.unitHorizontal?.isNone || motion.unitHorizontal?.isNone then 1 - undirectedCosine
  else 1 - observed.cosHorizontal motion

/-! ### Size -/

/-- The difference of two sizes as a part of the larger; sizes that are both zero are equal. -/
def relativeChange (a b : α) : α :=
  let scale := Scalar.maxNum a b
  if scale ≤ Scalar.doubleSpacing then 0 else Scalar.abs (a - b) / scale

/-- The smaller relative change of length and width between two boxes with horizontal directions
`u` and `v`. Sides are compared that lie closer to parallel. -/
def boxChange (u v : Vec2 α) (old new : Vec3 α) : α :=
  if Scalar.abs (u.cross v) < Scalar.abs (u.dot v) then
    Scalar.minNum (relativeChange old.x new.x) (relativeChange old.y new.y)
  else Scalar.minNum (relativeChange old.x new.y) (relativeChange old.y new.x)

def boxSize (last o : Observation α) : α :=
  boxChange last.detection.direction.horizontal o.detection.direction.horizontal
    last.detection.size o.detection.size

def pointCount (last o : Observation α) : α :=
  relativeChange (last.pointCount : α) (o.pointCount : α)

/-! ### Shape -/

/-- The total difference of two histograms, averaged over the three axes. -/
def histogramDistance (old new : List α) : α :=
  (List.zipWith (fun a b => Scalar.abs (a - b)) old new).foldl (· + ·) 0 / ((3 : Nat) : α)

/-- The difference of the histograms; zero without two histograms of one size. -/
def shape (last o : Observation α) : α :=
  match last.shape, o.shape with
  | some old, some new => if old.length = new.length then histogramDistance old new else 0
  | _, _ => 0

/-! ### The weighted sum -/

/-- A term is added if its weight is enabled. -/
def addTerm (sum weight term : α) : α :=
  if Weights.isEnabled weight then sum + weight * term else sum

/-- How little an observation, `dt` after the last one, looks like the continuation of a track
whose last observation and expected state are given. -/
def total (w : Weights α) (last : Observation α) (expected : MotionState α) (o : Observation α)
    (dt : α) : α :=
  let sum := addTerm 0 w.location (location last expected o)
  let sum := addTerm sum w.direction (direction last expected o dt)
  let sum := addTerm sum w.boxSize (boxSize last o)
  let sum := addTerm sum w.pointCount (pointCount last o)
  addTerm sum w.histogram (shape last o)

end ObstacleTracking.Dissimilarity
