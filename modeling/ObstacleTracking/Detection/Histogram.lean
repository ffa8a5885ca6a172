import ObstacleTracking.Geometry.Cloud

/-!
# Shape histograms

How the points of a cloud spread over equal bins between the least and the greatest coordinate,
axis by axis. Every point falls into one bin of each axis, so the bins of an axis hold the whole
cloud.
-/

namespace ObstacleTracking.Histogram

variable {α : Type} [Scalar α]

/-- What is added to the width of a bin, so that a flat cloud has bins with a width. -/
def slack : α := Scalar.ratio 1 1000000

/-- The bin of a coordinate among bins of a width that start at `low`; the last bin is open. -/
def binIndex (bins : Nat) (low width coordinate : α) : Nat :=
  min (Scalar.floorIndex ((coordinate - low) / width)) (bins - 1)

/-- The fraction of the coordinates in each of the bins, which are bounded by `low` and `high`. -/
def ofCoordinates (bins : Nat) (low high : α) (coordinates : List α) : List α :=
  let width := (high - low) / (bins : α) + slack
  let indices := coordinates.map (binIndex bins low width)
  (List.range bins).map fun k => (indices.count k : α) / (coordinates.length : α)

/-- The bins of the first, the second and the third axis; those of an empty cloud are zero. -/
def ofCloud (bins : Nat) (cloud : Cloud α) : List α :=
  match cloud with
  | [] => List.replicate (3 * bins) 0
  | _ =>
    let (low, high) := Cloud.bounds cloud
    ofCoordinates bins low.x high.x (cloud.map Vec3.x) ++
      ofCoordinates bins low.y high.y (cloud.map Vec3.y) ++
      ofCoordinates bins low.z high.z (cloud.map Vec3.z)

@[simp] theorem length_ofCoordinates (bins : Nat) (low high : α) (coordinates : List α) :
    (ofCoordinates bins low high coordinates).length = bins := by
  simp [ofCoordinates]

@[simp] theorem length_ofCloud (bins : Nat) (cloud : Cloud α) :
    (ofCloud bins cloud).length = 3 * bins := by
  cases cloud with
  | nil => simp [ofCloud]
  | cons p ps =>
    simp only [ofCloud, List.length_append, length_ofCoordinates]
    omega

end ObstacleTracking.Histogram
