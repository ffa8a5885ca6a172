import Mathlib.Data.List.Nodup
import ObstacleTracking.Config.Value

/-!
# Records in structured values

The places that the fields of nested records have in a structured value, and what becomes of a
record when one key is removed: the record that lost it reports it, and every record around it
reports what the one inside reports.
-/

namespace ObstacleTracking.Value

variable {α β : Type}

/-! ### Places -/

/-- Where a record declares one of its fields. -/
structure Field where
  position : Nat
  key : String

/-- The value of a field: under its key in an object, at its position in an array. -/
def child? (v : Value α) (f : Field) : Option (Value α) :=
  match v with
  | .object fields => fields.lookup f.key
  | .array items => items[f.position]?
  | _ => none

/-- The value at the end of a way through nested records. -/
def follow? : List Field → Value α → Option (Value α)
  | [], v => some v
  | f :: rest, v => (v.child? f).bind (follow? rest)

/-- The value without a key of the object at the end of a way. -/
def without : List Field → String → Value α → Value α
  | [], key, .object fields => .object (fields.filter fun p => p.1 != key)
  | f :: rest, key, .object fields =>
    .object (fields.map fun p => if p.1 = f.key then (p.1, without rest key p.2) else p)
  | _, _, v => v

theorem child?_eq_at? {v : Value α} {l : Layout α} (h : v.layout = .ok l) (f : Field) :
    v.child? f = l.at? f.position f.key := by
  cases v with
  | object fields =>
    cases h
    rfl
  | array items =>
    cases h
    rfl
  | null => cases h
  | bool b => cases h
  | integer n => cases h
  | real x => cases h
  | text s => cases h

/-! ### Objects without a key -/

section Lookup

variable (fields : List (String × Value α)) (key k : String)

theorem lookup_filter :
    (fields.filter fun p => p.1 != key).lookup k = if k = key then none else fields.lookup k := by
  induction fields with
  | nil => simp
  | cons p fields ih =>
    by_cases hp : p.1 = key
    · rw [List.filter_cons_of_neg (by simpa using hp), ih]
      split
      · rfl
      · rename_i hk
        have hne : (k == p.1) = false := by
          rw [hp]
          exact beq_false_of_ne hk
        rw [List.lookup_cons, hne]
    · rw [List.filter_cons_of_pos (by simpa using hp), List.lookup_cons, List.lookup_cons, ih]
      by_cases hk : k = p.1
      · simp [hk, hp]
      · rw [beq_false_of_ne hk]

theorem lookup_change (change : Value α → Value α) :
    (fields.map fun p => if p.1 = key then (p.1, change p.2) else p).lookup k =
      if k = key then (fields.lookup k).map change else fields.lookup k := by
  induction fields with
  | nil => simp
  | cons p fields ih =>
    have hpair : (if p.1 = key then (p.1, change p.2) else p) =
        (p.1, if p.1 = key then change p.2 else p.2) := by
      split
      · rfl
      · rfl
    rw [List.map_cons, hpair, List.lookup_cons, List.lookup_cons, ih]
    by_cases hk : k = p.1
    · rw [hk, beq_self_eq_true]
      dsimp only
      split
      · rfl
      · rfl
    · rw [beq_false_of_ne hk]

end Lookup

/-! ### Reading a record -/

theorem bind_eq_ok {x : Except BundleError α} {f : α → Except BundleError β} {b : β} :
    (x >>= f) = .ok b ↔ ∃ a, x = .ok a ∧ f a = .ok b := by
  cases x with
  | error e =>
    constructor
    · intro h
      cases h
    · rintro ⟨a, ha, -⟩
      cases ha
  | ok a =>
    constructor
    · intro h
      exact ⟨a, rfl, h⟩
    · rintro ⟨a', ha, h⟩
      cases ha
      exact h

theorem Layout.record_eq_ok {l : Layout α} {fields : List Status} {make : Except BundleError β}
    {b : β} : l.record fields make = .ok b ↔ l.error? fields = none ∧ make = .ok b := by
  unfold record
  cases l.error? fields with
  | none => simp
  | some e => simp

/-- A record that was read was made from the fields of an object or an array. -/
theorem exists_layout {v : Value α} {states : Layout α → List Status}
    {make : Layout α → Except BundleError β} {b : β}
    (h : (v.layout >>= fun l => l.record (states l) (make l)) = .ok b) :
    ∃ l, v.layout = .ok l ∧ make l = .ok b := by
  obtain ⟨l, hl, hrecord⟩ := bind_eq_ok.mp h
  exact ⟨l, hl, (Layout.record_eq_ok.mp hrecord).2⟩

theorem Layout.content_slot_eq_ok {l : Layout α} {position : Nat} {key : String}
    {read : Value α → Except BundleError β} {b : β} :
    (l.slot position key read).content = .ok b ↔
      ∃ w, l.at? position key = some w ∧ read w = .ok b := by
  unfold slot Slot.content
  cases l.at? position key with
  | none => simp
  | some w => simp

@[simp] theorem Layout.slot_byKey (fields : List (String × Value α)) (position : Nat) (key : String)
    (read : Value α → Except BundleError β) :
    (byKey fields).slot position key read = ⟨key, (fields.lookup key).map read⟩ := rfl

@[simp] theorem Slot.status_found (key : String) (b : β) :
    Slot.status ⟨key, some (.ok b)⟩ = ⟨key, true, none⟩ := rfl

@[simp] theorem Slot.content_found (key : String) (b : β) :
    Slot.content ⟨key, some (.ok b)⟩ = .ok b := rfl

/-! ### What is wrong with an object -/

section Object

variable {fields : List (String × Value α)} {states : List Status} {s : Status} {e : BundleError}

theorem Layout.error?_byKey_eq_none :
    (Layout.byKey fields).error? states = none ↔
      ∀ s ∈ states, s.error? = none ∧ s.present = true := by
  unfold error?
  simp only [Option.or_eq_none_iff, List.findSome?_eq_none_iff, List.mem_mergeSort,
    Option.map_eq_none_iff, List.find?_eq_none, Bool.not_eq_true', Bool.not_eq_false,
    forall_and]

/-- An object whose fields are all there and read makes the record. -/
theorem object_eq_ok {states : Layout α → List Status} {make : Layout α → Except BundleError β}
    {b : β} (hstates : ∀ s ∈ states (.byKey fields), s.error? = none ∧ s.present = true)
    (hmake : make (.byKey fields) = .ok b) :
    ((Value.object fields).layout >>= fun l => l.record (states l) (make l)) = .ok b :=
  bind_eq_ok.mpr ⟨_, rfl, Layout.record_eq_ok.mpr
    ⟨Layout.error?_byKey_eq_none.mpr hstates, hmake⟩⟩

/-- A field that is there but wrong is reported if no other is. -/
theorem Layout.error?_byKey_of_error (hs : s ∈ states) (he : s.error? = some e)
    (hothers : ∀ t ∈ states, ∀ e', t.error? = some e' → e' = e) :
    (Layout.byKey fields).error? states = some e := by
  unfold error?
  cases hfirst : (states.mergeSort fun a b => a.key ≤ b.key).findSome? Status.error? with
  | none =>
    rw [List.findSome?_eq_none_iff] at hfirst
    have hnone := hfirst s (List.mem_mergeSort.mpr hs)
    rw [he] at hnone
    cases hnone
  | some e' =>
    obtain ⟨t, ht, hte⟩ := List.exists_of_findSome?_eq_some hfirst
    rw [hothers t (List.mem_mergeSort.mp ht) e' hte]
    rfl

/-- A field that is missing is reported if it is all that is wrong. -/
theorem Layout.error?_byKey_of_missing (hs : s ∈ states) (hmissing : s.present = false)
    (hnone : ∀ t ∈ states, t.error? = none)
    (honly : ∀ t ∈ states, t.present = false → t.key = s.key) :
    (Layout.byKey fields).error? states = some (.missingField s.key) := by
  have hfirst : (states.mergeSort fun a b => a.key ≤ b.key).findSome? Status.error? = none := by
    rw [List.findSome?_eq_none_iff]
    intro t ht
    exact hnone t (List.mem_mergeSort.mp ht)
  unfold error?
  dsimp only
  rw [hfirst, Option.none_or]
  cases hfind : states.find? fun t => !t.present with
  | none =>
    rw [List.find?_eq_none] at hfind
    have hpresent := hfind s hs
    rw [hmissing] at hpresent
    exact absurd rfl hpresent
  | some t =>
    have hmem := List.mem_of_find?_eq_some hfind
    have habsent : t.present = false := by simpa using List.find?_some hfind
    rw [Option.map_some, honly t hmem habsent]

end Object

/-! ### Records and their fields -/

/-- A field together with how its value is read. -/
structure Entry (α : Type) extends Field where
  Content : Type
  read : Value α → Except BundleError Content

def Entry.status (fields : List (String × Value α)) (f : Entry α) : Status :=
  ((Layout.byKey fields).slot f.position f.key f.read).status

/-- Without any one of the keys of the object at the end of a way, `read` fails for that key. -/
def Refuses (read : Value α → Except BundleError β) (v : Value α) (way : List Field)
    (keys : List String) : Prop :=
  ∀ key ∈ keys, read (v.without way key) = .error (.missingField key)

/-- From an object, `read` makes a record with these fields. -/
def ReadsBy (read : Value α → Except BundleError β) (entries : List (Entry α)) : Prop :=
  ∀ fields, ∃ make, read (.object fields) =
    (Layout.byKey fields).record (entries.map (Entry.status fields)) make

namespace Entry

variable {fields fields' : List (String × Value α)} {f : Entry α}

theorem status_eq (fields : List (String × Value α)) (f : Entry α) :
    f.status fields = Slot.status ⟨f.key, (fields.lookup f.key).map f.read⟩ := rfl

theorem status_of_none (h : fields.lookup f.key = none) :
    f.status fields = ⟨f.key, false, none⟩ := by
  rw [status_eq, h]
  rfl

theorem status_of_error {w : Value α} {e : BundleError} (h : fields.lookup f.key = some w)
    (he : f.read w = .error e) : f.status fields = ⟨f.key, true, some e⟩ := by
  rw [status_eq, h, Option.map_some, he]
  rfl

theorem status_congr (h : fields'.lookup f.key = fields.lookup f.key) :
    f.status fields' = f.status fields := by
  rw [status_eq, status_eq, h]

/-- A field with nothing wrong about it is there and is read. -/
theorem exists_of_status (herror : (f.status fields).error? = none)
    (hpresent : (f.status fields).present = true) :
    ∃ w, fields.lookup f.key = some w ∧ ∃ x, f.read w = .ok x := by
  cases hw : fields.lookup f.key with
  | none =>
    rw [status_of_none hw] at hpresent
    cases hpresent
  | some w =>
    refine ⟨w, rfl, ?_⟩
    cases hread : f.read w with
    | ok x => exact ⟨x, rfl⟩
    | error e =>
      rw [status_of_error hw hread] at herror
      cases herror

end Entry

namespace ReadsBy

variable {read : Value α → Except BundleError β} {entries : List (Entry α)}
  {fields fields' : List (String × Value α)} {x : β} {f : Entry α}

theorem eq_error (h : ReadsBy read entries) {e : BundleError}
    (he : (Layout.byKey fields).error? (entries.map (Entry.status fields)) = some e) :
    read (.object fields) = .error e := by
  obtain ⟨make, hread⟩ := h fields
  rw [hread, Layout.record, he]

theorem status_eq_none (h : ReadsBy read entries) (hread : read (.object fields) = .ok x)
    (hf : f ∈ entries) :
    (f.status fields).error? = none ∧ (f.status fields).present = true := by
  obtain ⟨make, hmake⟩ := h fields
  rw [hmake, Layout.record_eq_ok] at hread
  exact Layout.error?_byKey_eq_none.mp hread.1 _ (List.mem_map_of_mem hf)

/-- In an object that is read, every field is there and is read. -/
theorem exists_read (h : ReadsBy read entries) (hread : read (.object fields) = .ok x)
    (hf : f ∈ entries) : ∃ w, fields.lookup f.key = some w ∧ ∃ y, f.read w = .ok y := by
  obtain ⟨herror, hpresent⟩ := h.status_eq_none hread hf
  exact Entry.exists_of_status herror hpresent

/-- The record in a field, where it is an object. -/
theorem exists_object (h : ReadsBy read entries) (hread : read (.object fields) = .ok x)
    (hf : f ∈ entries) {inner : List (String × Value α)}
    (hinner : (Value.object fields).follow? [f.toField] = some (.object inner)) :
    fields.lookup f.key = some (.object inner) ∧ ∃ y, f.read (.object inner) = .ok y := by
  obtain ⟨w, hw, y, hy⟩ := h.exists_read hread hf
  have hlookup : fields.lookup f.key = some (.object inner) := by
    rw [hw]
    rw [follow?, child?, hw] at hinner
    exact hinner
  cases hw.symm.trans hlookup
  exact ⟨hw, y, hy⟩

/-- Nothing is wrong with a field whose value is the same as in an object that was read. -/
theorem status_of_kept (h : ReadsBy read entries) (hread : read (.object fields) = .ok x)
    (hf : f ∈ entries) (hkept : fields'.lookup f.key = fields.lookup f.key) :
    (f.status fields').error? = none ∧ (f.status fields').present = true := by
  rw [Entry.status_congr hkept]
  exact h.status_eq_none hread hf

/-- An object that is read is refused once it has lost one of its fields. -/
theorem refuses_fields (h : ReadsBy read entries) (hread : read (.object fields) = .ok x) :
    Refuses read (.object fields) [] (entries.map fun f => f.key) := by
  intro key hkey
  obtain ⟨f, hf, rfl⟩ := List.mem_map.mp hkey
  let fields' := fields.filter fun p => p.1 != f.key
  have hlost : ∀ g : Entry α, g.key = f.key → g.status fields' = ⟨g.key, false, none⟩ := by
    intro g heq
    apply Entry.status_of_none
    rw [lookup_filter, if_pos heq]
  have hkept : ∀ g ∈ entries, g.key ≠ f.key →
      (g.status fields').error? = none ∧ (g.status fields').present = true := by
    intro g hg hne
    apply h.status_of_kept hread hg
    rw [lookup_filter, if_neg hne]
  refine h.eq_error (Layout.error?_byKey_of_missing (List.mem_map_of_mem hf)
    (congrArg Status.present (hlost f rfl)) ?_ ?_)
  · intro t ht
    obtain ⟨g, hg, rfl⟩ := List.mem_map.mp ht
    by_cases hkey : g.key = f.key
    · rw [hlost g hkey]
    · exact (hkept g hg hkey).1
  · intro t ht habsent
    obtain ⟨g, hg, rfl⟩ := List.mem_map.mp ht
    by_contra hkey
    rw [(hkept g hg hkey).2] at habsent
    cases habsent

/-- An object that is read is refused once a record in one of its fields is. -/
theorem refuses_inside (h : ReadsBy read entries) (hread : read (.object fields) = .ok x)
    (hkeys : (entries.map fun f => f.key).Nodup) (hf : f ∈ entries) {w : Value α}
    (hw : fields.lookup f.key = some w) {way : List Field} {keys : List String}
    (hinside : Refuses f.read w way keys) :
    Refuses read (.object fields) (f.toField :: way) keys := by
  intro key hkey
  let fields' := fields.map fun p => if p.1 = f.key then (p.1, p.2.without way key) else p
  have hwrong : f.status fields' = ⟨f.key, true, some (.missingField key)⟩ := by
    refine Entry.status_of_error ?_ (hinside key hkey)
    rw [lookup_change, if_pos rfl, hw]
    rfl
  refine h.eq_error (Layout.error?_byKey_of_error (List.mem_map_of_mem hf)
    (congrArg Status.error? hwrong) ?_)
  intro t ht e he
  obtain ⟨g, hg, rfl⟩ := List.mem_map.mp ht
  by_cases hsame : g.key = f.key
  · obtain rfl : g = f := List.inj_on_of_nodup_map hkeys hg hf hsame
    rw [hwrong] at he
    exact (Option.some.inj he).symm
  · have hkept : fields'.lookup g.key = fields.lookup g.key := by
      rw [lookup_change, if_neg hsame]
    rw [(h.status_of_kept hread hg hkept).1] at he
    cases he

end ReadsBy

end ObstacleTracking.Value
