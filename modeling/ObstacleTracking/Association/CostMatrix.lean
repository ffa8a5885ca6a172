import ObstacleTracking.Scalar.Basic

/-!
# Cost matrices

How far every track is from every detection, and the gate that says which pairs may be matched.
-/

namespace ObstacleTracking

/-- A matrix of costs, with a row for each track and a column for each detection. -/
structure CostMatrix (α : Type) where
  cols : Nat
  table : Array (Array α)

namespace CostMatrix

variable {α : Type}

def rows (c : CostMatrix α) : Nat := c.table.size

def ofFn (rows cols : Nat) (f : Nat → Nat → α) : CostMatrix α :=
  ⟨cols, Array.ofFn fun i : Fin rows => Array.ofFn fun j : Fin cols => f i j⟩

@[simp] theorem rows_ofFn (rows cols : Nat) (f : Nat → Nat → α) :
    (ofFn rows cols f).rows = rows := Array.size_ofFn

@[simp] theorem cols_ofFn (rows cols : Nat) (f : Nat → Nat → α) :
    (ofFn rows cols f).cols = cols := rfl

variable [Scalar α]

/-- The cost of a track and a detection; outside the matrix it is zero. -/
def entry (c : CostMatrix α) (track detection : Nat) : α :=
  ((c.table[track]?.getD #[])[detection]?).getD 0

theorem entry_ofFn {rows cols : Nat} (f : Nat → Nat → α) {i j : Nat} (hi : i < rows)
    (hj : j < cols) : (ofFn rows cols f).entry i j = f i j := by
  simp [entry, ofFn, hi, hj]

/-- A cost passes the gate if it is a finite number that is not above it. -/
def passes (gate cost : α) : Bool := Scalar.isFinite cost && decide (cost ≤ gate)

def isGated (c : CostMatrix α) (gate : α) (track detection : Nat) : Bool :=
  passes gate (c.entry track detection)

end CostMatrix

end ObstacleTracking
