import ObstacleTracking.Association.Solver

/-!
# Assignment by shortest augmenting paths

A solver for whole costs, which are added and compared without loss. Rows are matched one after
another: a search by growing distance finds the cheapest way to rearrange the columns of the rows
matched before so that one column gets free. Every column has a price that whoever takes it pays
on top of the cost, and each matched row has the column that is cheapest for it at these prices.
-/

namespace ObstacleTracking.ShortestPath

/-- The rows matched so far and the prices that prove their matching cheapest. -/
structure Progress where
  price : Array Int
  /-- The row that a column is matched to. -/
  rowOf : Array (Option Nat)

namespace Progress

/-- Nothing is matched, and all columns are free of charge. -/
def start (n : Nat) : Progress := ⟨Array.replicate n 0, Array.replicate n none⟩

def row? (p : Progress) (column : Nat) : Option Nat := p.rowOf.getD column none

def column? (p : Progress) (row : Nat) : Option Nat := p.rowOf.findIdx? fun r => r == some row

/-- What a row pays for a column, the cost and the price. -/
def payment (p : Progress) (cost : Nat → Nat → Int) (row column : Nat) : Int :=
  cost row column + p.price.getD column 0

/-- A column goes to a row, and who had it has it no more. -/
def give (p : Progress) (row column : Nat) : Progress :=
  { p with rowOf := p.rowOf.setIfInBounds column (some row) }

end Progress

/-! ### Search -/

/-- A column, how far it is from the row of the search, and the row before it on the way. -/
structure Label where
  column : Nat
  distance : Int
  row : Nat

/-- Every column is as far from a row as the row pays for it. -/
def labels (p : Progress) (cost : Nat → Nat → Int) (n row : Nat) : List Label :=
  (List.range n).map fun j => ⟨j, p.payment cost row j, row⟩

/-- The nearest label; of equally near ones the first whose column is still free. -/
def nearest (p : Progress) (first : Label) (others : List Label) : Label :=
  others.foldl (fun best l =>
    if l.distance < best.distance then l
    else if l.distance = best.distance ∧ (p.row? l.column).isNone ∧
      (p.row? best.column).isSome then l
    else best) first

theorem nearest_mem (p : Progress) (first : Label) (others : List Label) :
    nearest p first others ∈ first :: others := by
  induction others generalizing first with
  | nil => exact List.mem_singleton.mpr rfl
  | cons l others ih =>
    rw [nearest, List.foldl_cons]
    split
    · exact List.mem_cons_of_mem first (ih l)
    · split
      · exact List.mem_cons_of_mem first (ih l)
      · rcases List.mem_cons.mp (ih first) with h | h
        · exact List.mem_cons.mpr (Or.inl h)
        · exact List.mem_cons_of_mem first (List.mem_cons_of_mem l h)

/-- A label when the row of the settled label `best` may give up its column: the way to it may be
shorter through that row. -/
def Label.renew (p : Progress) (cost : Nat → Nat → Int) (best : Label) (row : Nat) (l : Label) :
    Label :=
  let distance := best.distance + (p.payment cost row l.column - p.payment cost row best.column)
  if distance < l.distance then { l with distance, row } else l

/-- The search with some open and some settled labels: the nearest open one is settled and the
others are renewed, until the nearest column is free. The result is its label and the settled
ones, the last of them first. -/
def search (p : Progress) (cost : Nat → Nat → Int) (labels settled : List Label) :
    Option (Label × List Label) :=
  match labels with
  | [] => none
  | first :: others =>
    let best := nearest p first others
    match p.row? best.column with
    | none => some (best, settled)
    | some row =>
      search p cost
        (((first :: others).filter fun l => l.column != best.column).map (.renew p cost best row))
        (best :: settled)
termination_by labels.length
decreasing_by
  rw [List.length_map]
  exact List.length_filter_lt_length_iff_exists.mpr ⟨_, nearest_mem p first others, by simp⟩

/-! ### Augmentation -/

/-- Settled columns become dearer by what they are nearer than the column in reach. -/
def reprice (reach : Int) (settled : List Label) (p : Progress) : Progress :=
  let rise := fun (price : Array Int) (l : Label) =>
    price.modify l.column (· + (reach - l.distance))
  { p with price := settled.foldl rise p.price }

/-- Columns are handed on along the way: a column goes to the row before it, and what this row
had before goes on in the same manner. The row of the search had none. -/
def handOn (p : Progress) (l : Label) : (settled : List Label) → Progress
  | [] => p.give l.row l.column
  | s :: settled =>
    if p.row? s.column = some l.row then handOn (p.give l.row l.column) s settled
    else handOn p l settled

def augment (cost : Nat → Nat → Int) (n : Nat) (p : Progress) (row : Nat) : Option Progress :=
  (search p cost (labels p cost n row) []).map fun (free, settled) =>
    handOn (reprice free.distance settled p) free settled

def solve : Solver Int := fun n a =>
  let table := a.rows.toArray.map Vector.toArray
  let cost := fun i j => ((table[i]?.getD #[])[j]?).getD 0
  ((List.range n).foldlM (augment cost n) (Progress.start n)).bind fun p =>
    Permutation.ofColumns? n p.column?

end ObstacleTracking.ShortestPath
