import ObstacleTracking.Scalar.Basic

/-!
# Structured values

What a configuration bundle is written in: values that are nested by key or by position. A
record may stand as an object or as an array of exactly its fields; the first thing that is
wrong with it is reported, where an object is read by ascending keys before its missing fields
are noticed, and an array from its first item to its last.
-/

namespace ObstacleTracking

/-- A structured value. Numbers written without fraction and exponent are kept apart. -/
inductive Value (α : Type) where
  | null
  | bool (b : Bool)
  | integer (n : Int)
  | real (x : α)
  | text (s : String)
  | array (items : List (Value α))
  | object (fields : List (String × Value α))

/-- Why a value is not the record that was asked for. -/
inductive BundleError where
  | missingField (name : String)
  /-- A value of the wrong type, or an array of the wrong length. -/
  | malformed
  deriving DecidableEq

def BundleError.message? : BundleError → Option String
  | .missingField name => some ("missing field `" ++ name ++ "`")
  | .malformed => none

namespace Value

variable {α : Type}

/-! ### Leaves -/

/-- Any number, with or without fraction. -/
def number [Scalar α] : Value α → Except BundleError α
  | .integer (.ofNat n) => .ok (n : α)
  | .integer (.negSucc n) => .ok (-((n + 1 : Nat) : α))
  | .real x => .ok x
  | _ => .error .malformed

/-- A number written without fraction that is at least zero and at most `largest`. -/
def count (largest : Nat) : Value α → Except BundleError Nat
  | .integer (.ofNat n) => if n ≤ largest then .ok n else .error .malformed
  | _ => .error .malformed

def flag : Value α → Except BundleError Bool
  | .bool b => .ok b
  | _ => .error .malformed

/-- A number as a value; one that is infinite or not a number has no form of its own. -/
def ofNumber [Scalar α] (x : α) : Value α := if Scalar.isFinite x then .real x else .null

/-! ### Records -/

/-- Where the fields of a record stand. -/
inductive Layout (α : Type) where
  | byKey (fields : List (String × Value α))
  | byPosition (items : List (Value α))

/-- Objects and arrays may hold a record. -/
def layout : Value α → Except BundleError (Layout α)
  | .object fields => .ok (.byKey fields)
  | .array items => .ok (.byPosition items)
  | _ => .error .malformed

/-- What was found in the place of one field, if there was anything. -/
structure Slot (β : Type) where
  key : String
  found : Option (Except BundleError β)

namespace Layout

/-- The value that stands at a position or under a key. -/
def at? (l : Layout α) (position : Nat) (key : String) : Option (Value α) :=
  match l with
  | .byKey fields => fields.lookup key
  | .byPosition items => items[position]?

/-- The field at a position or under a key, read by `read`. -/
def slot {β : Type} (l : Layout α) (position : Nat) (key : String)
    (read : Value α → Except BundleError β) : Slot β :=
  ⟨key, (l.at? position key).map read⟩

end Layout

/-- Whether a field is present, and what is wrong with it. -/
structure Status where
  key : String
  present : Bool
  error? : Option BundleError

namespace Slot

variable {β : Type}

/-- The state of a field without its content. -/
def status (s : Slot β) : Status :=
  { key := s.key
    present := s.found.isSome
    error? := match s.found with
      | some (.error e) => some e
      | _ => none }

/-- The content of a field that is present and well formed. -/
def content (s : Slot β) : Except BundleError β := s.found.getD (.error (.missingField s.key))

end Slot

/-- The first thing that is wrong with the fields of a record, given in declaration order. -/
def Layout.error? (l : Layout α) (fields : List Status) : Option BundleError :=
  match l with
  | .byKey _ =>
    ((fields.mergeSort fun a b => a.key ≤ b.key).findSome? Status.error?).or <|
      (fields.find? fun f => !f.present).map fun f => .missingField f.key
  | .byPosition items =>
    (fields.findSome? Status.error?).or <|
      if items.length = fields.length then none else some .malformed

/-- The record that its fields make, once nothing is wrong with any of them. -/
def Layout.record {β : Type} (l : Layout α) (fields : List Status)
    (make : Except BundleError β) : Except BundleError β :=
  match l.error? fields with
  | some e => .error e
  | none => make

end Value

end ObstacleTracking
