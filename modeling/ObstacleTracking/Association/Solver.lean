import ObstacleTracking.Linear.Matrix

/-!
# Assignment solvers

A solver sends every row of a square cost matrix to a column of its own, at least total cost, or
gives up. Which of several cheapest permutations it picks is left open.
-/

namespace ObstacleTracking

/-- A one-to-one map from the rows to the columns of a square matrix. -/
@[ext]
structure Permutation (n : Nat) where
  image : Vector (Fin n) n
  nodup : image.toList.Nodup

namespace Permutation

variable {n : Nat}

def column? (p : Permutation n) (row : Nat) : Option Nat := p.image[row]?.map Fin.val

/-- The permutation that a partial map from rows to columns makes, if it makes one. -/
def ofColumns? (n : Nat) (column : Nat → Option Nat) : Option (Permutation n) := do
  let image ← (Vector.ofFn fun i : Fin n => i).mapM fun i =>
    (column i.val).bind fun j => if h : j < n then some (⟨j, h⟩ : Fin n) else none
  if h : image.toList.Nodup then some ⟨image, h⟩ else none

def cost {α : Type} [Scalar α] (p : Permutation n) (a : Mat n n α) : α :=
  sumFirstToLast n fun i => a i (p.image.get i)

end Permutation

/-- A solver picks a permutation for a square cost matrix, or none. -/
abbrev Solver (α : Type) := (n : Nat) → Mat n n α → Option (Permutation n)

end ObstacleTracking
