import ObstacleTracking.Scalar.Basic

/-!
# Matrices

Matrices of a fixed shape, held row by row. Every entry is computed once and stored, so a
matrix is data and not a function; `get` reads an entry and `get_ofFn` says that it reads what
was put there. Products are full sums: no term is left out for being zero, so that a value
which is not a number reaches every entry whose sum meets it.
-/

namespace ObstacleTracking

/-! ### Sums -/

/-- The terms of a finite family, added from the first to the last. -/
def sumFirstToLast {α : Type} [Scalar α] : (n : Nat) → (Fin n → α) → α
  | 0, _ => 0
  | 1, f => f 0
  | n + 2, f => sumFirstToLast (n + 1) (fun i => f i.castSucc) + f (Fin.last (n + 1))

/-! ### Entries -/

structure Mat (m n : Nat) (α : Type) where
  rows : Vector (Vector α n) m

namespace Mat

variable {m n k : Nat} {α : Type}

def get (a : Mat m n α) (i : Fin m) (j : Fin n) : α := a.rows[i][j]

instance : CoeFun (Mat m n α) (fun _ => Fin m → Fin n → α) := ⟨get⟩

def ofFn (f : Fin m → Fin n → α) : Mat m n α :=
  ⟨Vector.ofFn fun i => Vector.ofFn fun j => f i j⟩

@[simp] theorem get_ofFn (f : Fin m → Fin n → α) (i : Fin m) (j : Fin n) :
    (ofFn f).get i j = f i j := by
  simp [get, ofFn]

theorem ext_get {a b : Mat m n α} (h : ∀ i j, a.get i j = b.get i j) : a = b := by
  cases a with
  | mk as =>
    cases b with
    | mk bs =>
      congr 1
      ext i hi j hj
      exact h ⟨i, hi⟩ ⟨j, hj⟩

/-- Rows become columns. -/
def transpose (a : Mat m n α) : Mat n m α := ofFn fun i j => a j i

@[simp] theorem get_transpose (a : Mat m n α) (i : Fin n) (j : Fin m) :
    a.transpose.get i j = a.get j i := get_ofFn _ i j

def toList (a : Mat m n α) : List α := (a.rows.map Vector.toList).toList.flatten

/-! ### Arithmetic -/

variable [Scalar α]

def fill (c : α) : Mat m n α := ofFn fun _ _ => c

def diagonal (d : Fin n → α) : Mat n n α := ofFn fun i j => if i = j then d i else 0

def identity : Mat n n α := diagonal fun _ => 1

instance : Add (Mat m n α) := ⟨fun a b => ofFn fun i j => a i j + b i j⟩

instance : Sub (Mat m n α) := ⟨fun a b => ofFn fun i j => a i j - b i j⟩

instance : HMul (Mat m n α) α (Mat m n α) := ⟨fun a s => ofFn fun i j => a i j * s⟩

instance : HMul (Mat m n α) (Mat n k α) (Mat m k α) :=
  ⟨fun a b => ofFn fun i j => sumFirstToLast n fun l => a i l * b l j⟩

instance : HMul (Mat m n α) (Vector α n) (Vector α m) :=
  ⟨fun a v => Vector.ofFn fun i => sumFirstToLast n fun l => a i l * v[l]⟩

def isFinite (a : Mat m n α) : Bool := a.rows.all fun r => r.all Scalar.isFinite

/-! ### Entries of the operations -/

@[simp] theorem get_diagonal (d : Fin n → α) (i j : Fin n) :
    (diagonal d).get i j = if i = j then d i else 0 := get_ofFn _ i j

@[simp] theorem get_identity (i j : Fin n) :
    (identity : Mat n n α).get i j = if i = j then 1 else 0 := get_diagonal _ i j

@[simp] theorem get_add (a b : Mat m n α) (i : Fin m) (j : Fin n) :
    (a + b).get i j = a.get i j + b.get i j := get_ofFn _ i j

@[simp] theorem get_sub (a b : Mat m n α) (i : Fin m) (j : Fin n) :
    (a - b).get i j = a.get i j - b.get i j := get_ofFn _ i j

@[simp] theorem get_scale (a : Mat m n α) (s : α) (i : Fin m) (j : Fin n) :
    (a * s).get i j = a.get i j * s := get_ofFn _ i j

@[simp] theorem get_mul (a : Mat m n α) (b : Mat n k α) (i : Fin m) (j : Fin k) :
    (a * b).get i j = sumFirstToLast n fun l => a.get i l * b.get l j := get_ofFn _ i j

@[simp] theorem get_mulVec (a : Mat m n α) (v : Vector α n) (i : Fin m) :
    (a * v)[i] = sumFirstToLast n fun l => a.get i l * v[l] := by
  show (Vector.ofFn _)[i] = _
  simp

end Mat

end ObstacleTracking
