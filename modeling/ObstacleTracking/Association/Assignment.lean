import ObstacleTracking.Association.Block
import ObstacleTracking.Association.Solver

/-!
# Assignments

Which track goes with which detection. An assignment uses only pairs that pass the gate; it has
as many of them as possible, then the least total cost, and of several such it is the first one
when tracks are taken in order and each prefers the lowest detection.

A solver knows nothing of gates, so the block is handed to it as a square matrix in which every
other entry costs more than all gated pairs together. Its answer only says what can be reached;
the choices are then made again, track by track.
-/

namespace ObstacleTracking

/-- Matched pairs in the order of their tracks, and who is left over. -/
@[ext]
structure Assignment where
  matched : List (Nat × Nat)
  unmatchedTracks : List Nat
  unmatchedDetections : List Nat
  deriving DecidableEq

/-- The assignment within a block that consists of some matched pairs. -/
def Assignment.ofMatches (b : Block) (pairs : List (Nat × Nat)) : Assignment :=
  { matched := pairs
    unmatchedTracks := b.tracks.filter fun t => !(pairs.map Prod.fst).contains t
    unmatchedDetections := b.detections.filter fun d => !(pairs.map Prod.snd).contains d }

namespace Assignment

variable {α : Type} [Scalar α]

/-! ### The solver's answer -/

/-- A cost above every total of gated costs in a square matrix of a size. -/
def forbiddingCost (gate : α) (size : Nat) : α :=
  Scalar.maxNum (Scalar.abs gate) 1 * ((size : α) + 1) * ((10 : Nat) : α)

/-- The square matrix of a block: gated pairs have their cost, all else is forbidding. -/
def paddedMatrix (c : CostMatrix α) (gate : α) (b : Block) (size : Nat) : Mat size size α :=
  Mat.ofFn fun i j =>
    match b.tracks[i]?, b.detections[j]? with
    | some t, some d => if c.isGated gate t d then c.entry t d else forbiddingCost gate size
    | _, _ => forbiddingCost gate size

/-- What the solver picks for each track of a block; only gated pairs are kept. A block of one
track and one detection needs no solver, and one without either has nothing to match. -/
def solved (solver : Solver α) (c : CostMatrix α) (gate : α) (b : Block) : List (Option Nat) :=
  match b with
  | ⟨[t], [d]⟩ => [if c.isGated gate t d then some d else none]
  | ⟨[], _⟩ => []
  | ⟨tracks, []⟩ => tracks.map fun _ => none
  | ⟨tracks, detections⟩ =>
    let size := max tracks.length detections.length
    match solver size (paddedMatrix c gate b size) with
    | none => tracks.map fun _ => none
    | some p => tracks.mapIdx fun i t =>
      ((p.column? i).bind fun j => detections[j]?).filter (c.isGated gate t)

/-- The pairs that the choices of some tracks make. -/
def pairs (tracks : List Nat) (choices : List (Option Nat)) : List (Nat × Nat) :=
  (tracks.zip choices).filterMap fun p => p.2.map fun d => (p.1, d)

/-! ### The first choices that lose nothing -/

/-- A number of pairs and their total cost. -/
structure Total (α : Type) where
  count : Nat
  cost : α

def Total.zero : Total α := ⟨0, 0⟩

def Total.add (c : CostMatrix α) (total : Total α) (pair : Nat × Nat) : Total α :=
  ⟨total.count + 1, total.cost + c.entry pair.1 pair.2⟩

def Total.ofPairs (c : CostMatrix α) (pairs : List (Nat × Nat)) : Total α :=
  pairs.foldl (Total.add c) .zero

/-- Costs tie if they differ by no more than a thousand-millionth of the larger, or of one. -/
def ties (a b : α) : Bool :=
  decide (Scalar.abs (a - b) ≤
    Scalar.ratio 1 1000000000 * Scalar.maxNum (Scalar.maxNum (Scalar.abs a) (Scalar.abs b)) 1)

/-- The total after a track has chosen a detection or none. -/
def Total.choose (c : CostMatrix α) (total : Total α) (t : Nat) : Option Nat → Total α
  | none => total
  | some d => total.add c (t, d)

/-- The detections that are left after a choice. -/
def leave (detections : List Nat) : Option Nat → List Nat
  | none => detections
  | some d => detections.filter (· != d)

/-- The target can be reached from what was chosen so far by what the solver picks for the
rest: with as many pairs, and at a cost that ties. -/
def reaches (solver : Solver α) (c : CostMatrix α) (gate : α) (target sofar : Total α)
    (rest : Block) : Bool :=
  let remaining := Total.ofPairs c (pairs rest.tracks (solved solver c gate rest))
  sofar.count + remaining.count == target.count && ties (sofar.cost + remaining.cost) target.cost

/-- The lowest gated detection, or else none, that a track may choose without missing the
target. -/
def choice? (solver : Solver α) (c : CostMatrix α) (gate : α) (target sofar : Total α) (t : Nat)
    (later detections : List Nat) : Option (Option Nat) :=
  ((detections.filter (c.isGated gate t)).map some ++ [none]).find? fun d =>
    reaches solver c gate target (sofar.choose c t d) ⟨later, leave detections d⟩

/-- The choices of the tracks in order, each as low as the target allows. There are none if some
track is left without a choice. -/
def choices? (solver : Solver α) (c : CostMatrix α) (gate : α) (target : Total α) :
    (sofar : Total α) → (tracks detections : List Nat) → Option (List (Option Nat))
  | _, [], _ => some []
  | sofar, t :: later, detections => do
    let d ← choice? solver c gate target sofar t later detections
    let rest ← choices? solver c gate target (sofar.choose c t d) later (leave detections d)
    return d :: rest

/-! ### Assignments of a block and of a matrix -/

def pairsOf (solver : Solver α) (c : CostMatrix α) (gate : α) (b : Block) : List (Nat × Nat) :=
  let picked := solved solver c gate b
  let target := Total.ofPairs c (pairs b.tracks picked)
  pairs b.tracks ((choices? solver c gate target .zero b.tracks b.detections).getD picked)

def global (solver : Solver α) (c : CostMatrix α) (gate : α) : Assignment :=
  ofMatches (.whole c) (pairsOf solver c gate (.whole c))

/-- The matched pairs of a connected block; one track and one detection need no solver. -/
def pairsOfComponent (solver : Solver α) (c : CostMatrix α) (gate : α) (b : Block) :
    List (Nat × Nat) :=
  match b with
  | ⟨[t], [d]⟩ => [(t, d)]
  | _ => pairsOf solver c gate b

def blockwise (solver : Solver α) (c : CostMatrix α) (gate : α) : Assignment :=
  ofMatches (.whole c) <|
    ((Block.components c gate).flatMap (pairsOfComponent solver c gate)).mergeSort
      fun p q => p.1 ≤ q.1

end Assignment

end ObstacleTracking
