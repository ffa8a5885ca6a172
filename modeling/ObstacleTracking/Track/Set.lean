import ObstacleTracking.Track.Basic

/-!
# Track sets

The live tracks of one tracker in the order in which they were started. Ids are issued by
counting up and never again, so the order of the tracks is that of their ids and a track is
found by bisection.
-/

namespace ObstacleTracking

/-- Live tracks, oldest first, and the last id that was issued. -/
structure TrackSet (α : Type) where
  tracks : Array (Track α) := #[]
  lastId : Nat := 0

namespace TrackSet

variable {α : Type}

/-! ### Lookup -/

/-- The place of an id among the tracks from `low` up to `high`. -/
def bisect (tracks : Array (Track α)) (id low high : Nat) : Option Nat :=
  if low < high then
    let middle := low + (high - low) / 2
    match tracks[middle]? with
    | none => none
    | some t =>
      if t.id < id then bisect tracks id (middle + 1) high
      else if id < t.id then bisect tracks id low middle
      else some middle
  else none
termination_by high - low

def position? (s : TrackSet α) (id : Nat) : Option Nat := bisect s.tracks id 0 s.tracks.size

def get? (s : TrackSet α) (id : Nat) : Option (Track α) :=
  (s.position? id).bind fun i => s.tracks[i]?

def ids (s : TrackSet α) : List Nat := s.tracks.toList.map Track.id

/-! ### Changes -/

/-- The track with an id is changed, if it is alive. -/
def modify (s : TrackSet α) (id : Nat) (f : Track α → Track α) : TrackSet α :=
  match s.position? id with
  | none => s
  | some i => { s with tracks := s.tracks.modify i f }

def map (s : TrackSet α) (f : Track α → Track α) : TrackSet α :=
  { s with tracks := s.tracks.map f }

@[simp] theorem lastId_map (f : Track α → Track α) (s : TrackSet α) :
    (s.map f).lastId = s.lastId := rfl

theorem ids_map {f : Track α → Track α} (hf : ∀ t, (f t).id = t.id) (s : TrackSet α) :
    (s.map f).ids = s.ids := by
  simp [ids, map, Function.comp_def, hf]

@[simp] theorem lastId_modify (s : TrackSet α) (id : Nat) (f : Track α → Track α) :
    (s.modify id f).lastId = s.lastId := by
  unfold modify
  split <;> rfl

/-! ### Start and end of tracks -/

variable [Scalar α]

/-- A new track for each observation, in order, and the ids issued to them. -/
def create (f : FilterConfig α) (capacity : Nat) (s : TrackSet α)
    (observations : List (Observation α)) : TrackSet α × List Nat :=
  let ids := List.range' (s.lastId + 1) observations.length
  let started := (ids.zip observations).map fun p => Track.start f capacity p.1 p.2
  ({ tracks := s.tracks ++ started.toArray, lastId := s.lastId + observations.length }, ids)

@[simp] theorem lastId_create (f : FilterConfig α) (capacity : Nat) (s : TrackSet α)
    (os : List (Observation α)) :
    (s.create f capacity os).1.lastId = s.lastId + os.length := rfl

/-- The new ids follow the last one that was issued, one by one. -/
theorem ids_create (f : FilterConfig α) (capacity : Nat) (s : TrackSet α)
    (os : List (Observation α)) :
    (s.create f capacity os).1.ids = s.ids ++ List.range' (s.lastId + 1) os.length := by
  have h : ((List.range' (s.lastId + 1) os.length).zip os).map Prod.fst =
      List.range' (s.lastId + 1) os.length := List.map_fst_zip (by simp)
  simpa [ids, create, Function.comp_def, Track.start] using h

/-- A track is dropped when it was missed too often in a row, or when it is old enough and was
seen in too small a part of its frames. -/
def isExpired (c : LifecycleConfig α) (t : Track α) : Bool :=
  decide (c.invisibleMaximum < t.invisible) ||
    (decide (c.reportAgeMinimum ≤ t.age) && decide (t.visibleRatio < c.visibleRatioMinimum))

/-- The tracks that are not expired, and the ids of those that were. -/
def dropExpired (c : LifecycleConfig α) (s : TrackSet α) : TrackSet α × List Nat :=
  ({ s with tracks := s.tracks.filter fun t => !isExpired c t },
    (s.tracks.toList.filter (isExpired c)).map Track.id)

@[simp] theorem lastId_dropExpired (c : LifecycleConfig α) (s : TrackSet α) :
    (s.dropExpired c).1.lastId = s.lastId := rfl

theorem ids_dropExpired (c : LifecycleConfig α) (s : TrackSet α) :
    (s.dropExpired c).1.ids = (s.tracks.toList.filter fun t => !isExpired c t).map Track.id := by
  simp [ids, dropExpired]

end TrackSet

end ObstacleTracking
