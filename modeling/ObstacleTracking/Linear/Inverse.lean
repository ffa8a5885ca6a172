import ObstacleTracking.Linear.Matrix

/-!
# Matrix inversion

Gaussian elimination with partial pivoting. A system `left · X = right` starts with the
identity on its right side; row operations make its left side upper triangular, and back
substitution then turns the right side into the inverse. Elimination fails only when a pivot,
the largest of its column, is exactly zero.
-/

namespace ObstacleTracking

/-- A matrix equation `left · X = right` for an unknown `X`. -/
structure LinearSystem (n : Nat) (α : Type) where
  left : Mat n n α
  right : Mat n n α

namespace LinearSystem

variable {n : Nat} {α : Type} [Scalar α]

/-- The first row, from row `i` on, whose entry in column `i` has the largest size. -/
def pivotRow (a : Mat n n α) (i : Fin n) : Fin n :=
  (List.finRange n).foldl
    (fun best r => if i < r ∧ Scalar.abs (a best i) < Scalar.abs (a r i) then r else best) i

/-- Rows `i` and `r` change places. -/
def swapRows (a : Mat n n α) (i r : Fin n) : Mat n n α :=
  Mat.ofFn fun p k => if p = i then a r k else if p = r then a i k else a p k

/-- Multiples of row `i` are taken from the rows below it, which clears column `i` there. -/
def clearBelow (s : LinearSystem n α) (i : Fin n) : LinearSystem n α :=
  let inverse := 1 / s.left i i
  let factor := Vector.ofFn fun r => s.left r i * inverse
  { left := Mat.ofFn fun r k =>
      if r ≤ i ∨ k < i then s.left r k
      else if k = i then 0
      else -(s.left i k) * factor.get r + s.left r k
    right := Mat.ofFn fun r k =>
      if r ≤ i then s.right r k else -(s.right i k) * factor.get r + s.right r k }

/-- One elimination step: the pivot row moves to row `i` and column `i` is cleared below it. -/
def eliminate (s : LinearSystem n α) (i : Fin n) : Option (LinearSystem n α) :=
  let r := pivotRow s.left i
  let pivot := s.left r i
  if pivot ≤ 0 ∧ 0 ≤ pivot then none
  else some (clearBelow ⟨swapRows s.left i r, swapRows s.right i r⟩ i)

/-- Row `i` of the right side is divided by its pivot and taken out of the rows above it. -/
def substitute (left right : Mat n n α) (i : Fin n) : Mat n n α :=
  let solved := Vector.ofFn fun k => right i k / left i i
  Mat.ofFn fun r k =>
    if r = i then solved.get k
    else if r < i then -(solved.get k) * left r i + right r k
    else right r k

end LinearSystem

/-- The inverse of a square matrix, unless elimination meets a pivot that is zero. -/
def Mat.inverse? {n : Nat} {α : Type} [Scalar α] (a : Mat n n α) : Option (Mat n n α) :=
  ((List.finRange n).foldlM LinearSystem.eliminate ⟨a, Mat.identity⟩).map fun s =>
    (List.finRange n).reverse.foldl (LinearSystem.substitute s.left) s.right

end ObstacleTracking
