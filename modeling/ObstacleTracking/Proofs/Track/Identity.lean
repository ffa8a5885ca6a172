import Mathlib.Data.List.Nodup
import ObstacleTracking.Proofs.Scalar.ExactNumber
import ObstacleTracking.Proofs.Track.Lookup

/-!
# Identity of tracks

A track set is made by starting tracks, by dropping expired ones and by changing live ones that keep
their ids, in any order. Every id that was issued belongs to one live track or to one that was
dropped, and the live ones ascend. So a lookup by id finds its track or nothing, a new id is larger
than all before it, and a dropped one never comes back.
-/

namespace ObstacleTracking

namespace TrackSet

/-! ### Changes -/

/-- What may happen to a track set. -/
inductive Change (α : Type) where
  | create (f : FilterConfig α) (capacity : ℕ) (observations : List (Observation α))
  | dropExpired (c : LifecycleConfig α)
  /-- The track with an id is changed and keeps it. -/
  | modify (id : ℕ) (f : Track α → Track α) (keeps : ∀ t, (f t).id = t.id)
  /-- All live tracks are changed, each at its place, and keep their ids. -/
  | edit (f : ℕ → Track α → Track α) (keeps : ∀ i t, (f i t).id = t.id)

section Runs

variable {α : Type} [Scalar α]

namespace Change

def apply (s : TrackSet α) : Change α → TrackSet α
  | create f capacity observations => (s.create f capacity observations).1
  | dropExpired c => (s.dropExpired c).1
  | modify id f _ => s.modify id f
  | edit f _ => { s with tracks := s.tracks.mapIdx f }

/-- The ids that a change issues to the tracks it starts. -/
def issued (s : TrackSet α) : Change α → List ℕ
  | create f capacity observations => (s.create f capacity observations).2
  | _ => []

/-- The ids of the tracks that a change drops. -/
def dropped (s : TrackSet α) : Change α → List ℕ
  | dropExpired c => (s.dropExpired c).2
  | _ => []

end Change

/-- The track set after some changes. -/
def after (s : TrackSet α) (changes : List (Change α)) : TrackSet α :=
  changes.foldl Change.apply s

/-- All ids that some changes issue, in order. -/
def issuedBy : TrackSet α → List (Change α) → List ℕ
  | _, [] => []
  | s, change :: changes => change.issued s ++ issuedBy (change.apply s) changes

/-- The ids of all tracks that some changes drop. -/
def droppedBy : TrackSet α → List (Change α) → List ℕ
  | _, [] => []
  | s, change :: changes => change.dropped s ++ droppedBy (change.apply s) changes

end Runs

/-! ### Lookup by id -/

section Lookup

variable {α : Type} {s : TrackSet α}

/-- What a bisection finds has the id, in whatever order the tracks are. -/
theorem id_eq_of_bisect {tracks : Array (Track α)} {id low high i : ℕ}
    (h : bisect tracks id low high = some i) : ∃ t, tracks[i]? = some t ∧ t.id = id := by
  fun_induction bisect tracks id low high with
  | case1 low high hlt middle hnone => cases h
  | case2 low high hlt middle t ht hless ih => exact ih h
  | case3 low high hlt middle t ht hnot hgreater ih => exact ih h
  | case4 low high hlt middle t ht hnot hnot' =>
    rw [← Option.some.inj h]
    exact ⟨t, ht, by omega⟩
  | case5 low high hnot => cases h

theorem position?_of_not_mem {id : ℕ} (h : id ∉ s.ids) : s.position? id = none := by
  cases hi : s.position? id with
  | none => rfl
  | some i =>
    obtain ⟨t, ht, heq⟩ := id_eq_of_bisect hi
    exact absurd (mem_ids_iff.mpr ⟨i, t, ht, heq⟩) h

/-- A lookup finds the live track with an id, and nothing else. -/
theorem Ordered.get?_eq_some_iff (hs : s.Ordered) {id : ℕ} {t : Track α} :
    s.get? id = some t ↔ t ∈ s.tracks.toList ∧ t.id = id := by
  unfold get?
  constructor
  · intro h
    obtain ⟨i, hi, ht⟩ := Option.bind_eq_some_iff.mp h
    obtain ⟨u, hu, heq⟩ := id_eq_of_bisect hi
    rw [ht, Option.some_inj] at hu
    rw [← hu] at heq
    exact ⟨Array.mem_toList_iff.mpr (Array.mem_of_getElem? ht), heq⟩
  · intro h
    obtain ⟨hmem, rfl⟩ := h
    obtain ⟨i, ht⟩ := Array.mem_iff_getElem?.mp (Array.mem_toList_iff.mp hmem)
    rw [hs.position?_eq ht, Option.bind_some, ht]

theorem modify_of_not_mem {id : ℕ} (h : id ∉ s.ids) (f : Track α → Track α) :
    s.modify id f = s := by
  unfold modify
  rw [position?_of_not_mem h]

theorem ids_modify {f : Track α → Track α} (hf : ∀ t, (f t).id = t.id) (s : TrackSet α) (id : ℕ) :
    (s.modify id f).ids = s.ids := by
  unfold modify
  split
  · rfl
  · refine List.ext_getElem? ?_
    intro k
    rw [getElem?_ids, getElem?_ids, Array.getElem?_modify]
    split
    · rw [Option.map_map]
      exact congrArg (fun g => Option.map g _) (funext hf)
    · rfl

theorem ids_mapIdx {f : ℕ → Track α → Track α} (hf : ∀ i t, (f i t).id = t.id) (s : TrackSet α) :
    ({ s with tracks := s.tracks.mapIdx f } : TrackSet α).ids = s.ids := by
  refine List.ext_getElem? ?_
  intro k
  rw [getElem?_ids, getElem?_ids, Array.getElem?_mapIdx, Option.map_map]
  exact congrArg (fun g => Option.map g _) (funext (hf k))

end Lookup

/-! ### Live, dropped, issued -/

variable {α : Type} [Scalar α] {s : TrackSet α}

theorem dropExpired_sublist (c : LifecycleConfig α) (s : TrackSet α) :
    (s.dropExpired c).1.tracks.toList.Sublist s.tracks.toList := by
  unfold dropExpired
  rw [Array.toList_filter]
  exact List.filter_sublist

/-- The ids of the tracks that are kept and those of the ones that are dropped are all ids. -/
theorem ids_dropExpired_perm (c : LifecycleConfig α) (s : TrackSet α) :
    ((s.dropExpired c).1.ids ++ (s.dropExpired c).2).Perm s.ids := by
  rw [ids_dropExpired]
  show (_ ++ (s.tracks.toList.filter (isExpired c)).map Track.id).Perm
    (s.tracks.toList.map Track.id)
  rw [← List.map_append]
  refine List.Perm.map Track.id (List.perm_append_comm.trans ?_)
  exact List.filter_append_perm (isExpired c) s.tracks.toList

/-- The ids that were issued so far count up to the last one, and each is that of one live track or
of one that was dropped. The live ones ascend. -/
structure Accounts (issued dropped : List ℕ) (s : TrackSet α) : Prop where
  issued_eq : issued = List.range' 1 s.lastId
  perm : (s.ids ++ dropped).Perm issued
  ordered : s.Ordered

namespace Accounts

variable {issued dropped : List ℕ}

omit [Scalar α] in
theorem mem_issued_iff (h : Accounts issued dropped s) {id : ℕ} :
    id ∈ issued ↔ 1 ≤ id ∧ id ≤ s.lastId := by
  rw [h.issued_eq, List.mem_range'_1]
  omega

omit [Scalar α] in
theorem mem_issued_of_mem_ids (h : Accounts issued dropped s) {id : ℕ} (hid : id ∈ s.ids) :
    id ∈ issued :=
  h.perm.subset (List.mem_append_left dropped hid)

omit [Scalar α] in
theorem not_mem_ids (h : Accounts issued dropped s) {id : ℕ} (hid : id ∈ dropped) :
    id ∉ s.ids := by
  have hnodup : (s.ids ++ dropped).Nodup := by
    rw [h.perm.nodup_iff, h.issued_eq]
    exact List.nodup_range'
  obtain ⟨-, -, hapart⟩ := List.nodup_append'.mp hnodup
  exact fun hlive => hapart hlive hid

omit [Scalar α] in
theorem of_ids_eq (h : Accounts issued dropped s) {s' : TrackSet α} (hids : s'.ids = s.ids)
    (hlast : s'.lastId = s.lastId) : Accounts issued dropped s' := by
  constructor
  · rw [hlast]
    exact h.issued_eq
  · rw [hids]
    exact h.perm
  · rw [Ordered, hids]
    exact h.ordered

theorem create (h : Accounts issued dropped s) (f : FilterConfig α) (capacity : ℕ)
    (observations : List (Observation α)) :
    Accounts (issued ++ (s.create f capacity observations).2) dropped
      (s.create f capacity observations).1 := by
  have hnew : (s.create f capacity observations).2 =
      List.range' (s.lastId + 1) observations.length := rfl
  constructor
  · rw [lastId_create, hnew, h.issued_eq, Nat.add_comm s.lastId 1]
    exact List.range'_append_1
  · rw [ids_create, hnew, List.append_assoc]
    refine (List.perm_append_comm.append_left s.ids).trans ?_
    rw [← List.append_assoc]
    exact h.perm.append_right _
  · rw [Ordered, ids_create]
    refine List.pairwise_append.mpr ⟨h.ordered, List.pairwise_lt_range', ?_⟩
    intro id hid id' hid'
    have hle := (h.mem_issued_iff.mp (h.mem_issued_of_mem_ids hid)).2
    have hlt := (List.mem_range'_1.mp hid').1
    omega

theorem dropExpired (h : Accounts issued dropped s) (c : LifecycleConfig α) :
    Accounts issued (dropped ++ (s.dropExpired c).2) (s.dropExpired c).1 := by
  constructor
  · exact h.issued_eq
  · have hsplit := (ids_dropExpired_perm c s).append_right dropped
    rw [List.append_assoc] at hsplit
    exact ((List.perm_append_comm.append_left _).trans hsplit).trans h.perm
  · exact h.ordered.sublist ((dropExpired_sublist c s).map Track.id)

theorem apply (h : Accounts issued dropped s) (change : Change α) :
    Accounts (issued ++ change.issued s) (dropped ++ change.dropped s) (change.apply s) := by
  cases change with
  | create f capacity observations =>
    show Accounts _ (dropped ++ []) _
    rw [List.append_nil]
    exact h.create f capacity observations
  | dropExpired c =>
    show Accounts (issued ++ []) _ _
    rw [List.append_nil]
    exact h.dropExpired c
  | modify id f keeps =>
    show Accounts (issued ++ []) (dropped ++ []) _
    rw [List.append_nil, List.append_nil]
    exact h.of_ids_eq (ids_modify keeps s id) (lastId_modify s id f)
  | edit f keeps =>
    show Accounts (issued ++ []) (dropped ++ []) _
    rw [List.append_nil, List.append_nil]
    exact h.of_ids_eq (ids_mapIdx keeps s) rfl

theorem after (h : Accounts issued dropped s) (changes : List (Change α)) :
    Accounts (issued ++ s.issuedBy changes) (dropped ++ s.droppedBy changes) (s.after changes) := by
  induction changes generalizing issued dropped s with
  | nil =>
    rw [issuedBy, droppedBy, List.append_nil, List.append_nil]
    exact h
  | cons change changes ih =>
    rw [issuedBy, droppedBy, ← List.append_assoc, ← List.append_assoc]
    exact ih (h.apply change)

end Accounts

theorem accounts_after (changes : List (Change α)) :
    Accounts (({} : TrackSet α).issuedBy changes) (({} : TrackSet α).droppedBy changes)
      (({} : TrackSet α).after changes) := by
  have hempty : Accounts [] [] ({} : TrackSet α) := by
    constructor
    · rfl
    · exact List.Perm.refl []
    · exact List.Pairwise.nil
  exact hempty.after changes

/-! ### What ids are good for -/

/-- After any changes of an empty track set: the live ids ascend and are among those issued; a
lookup finds the live track with an id and nothing else, and so does a change by id; new tracks get
the ids that follow all that were ever issued; what is dropped and what stays make up the live
tracks; and an id that was dropped is live no more. -/
theorem identity_after (changes : List (Change α)) :
    let s := ({} : TrackSet α).after changes
    let issued := ({} : TrackSet α).issuedBy changes
    let dropped := ({} : TrackSet α).droppedBy changes
    s.ids.Pairwise (· < ·) ∧
      (∀ id ∈ s.ids, 1 ≤ id ∧ id ≤ issued.length) ∧
      (∀ id t, s.get? id = some t ↔ t ∈ s.tracks.toList ∧ t.id = id) ∧
      (∀ id f, (id ∈ s.ids → s.modify id f = s.map (onId id f)) ∧
        (id ∉ s.ids → s.modify id f = s)) ∧
      (∀ f capacity observations,
        let (created, ids) := s.create f capacity observations
        created.ids = s.ids ++ ids ∧ ids = List.range' (issued.length + 1) observations.length ∧
          ∀ id ∈ issued, ∀ id' ∈ ids, id < id') ∧
      (∀ c,
        let (kept, ids) := s.dropExpired c
        kept.tracks.toList.Sublist s.tracks.toList ∧ (kept.ids ++ ids).Perm s.ids) ∧
      ∀ id ∈ dropped, id ∉ s.ids := by
  intro s issued dropped
  have haccounts : Accounts issued dropped s := accounts_after changes
  have hlength : issued.length = s.lastId := by rw [haccounts.issued_eq, List.length_range']
  refine ⟨haccounts.ordered, ?_, ?_, ?_, ?_, ?_, ?_⟩
  · intro id hid
    rw [hlength]
    exact haccounts.mem_issued_iff.mp (haccounts.mem_issued_of_mem_ids hid)
  · intro id t
    exact haccounts.ordered.get?_eq_some_iff
  · intro id f
    exact ⟨fun hid => modify_eq_of_modify? (haccounts.ordered.modify?_eq hid f),
      fun hid => modify_of_not_mem hid f⟩
  · intro f capacity observations
    rw [hlength]
    refine ⟨ids_create f capacity s observations, rfl, ?_⟩
    intro id hid id' hid'
    have hle := (haccounts.mem_issued_iff.mp hid).2
    have hlt := (List.mem_range'_1.mp hid').1
    omega
  · intro c
    exact ⟨dropExpired_sublist c s, ids_dropExpired_perm c s⟩
  · intro id hid
    exact haccounts.not_mem_ids hid

/-- Of two tracks the first is missed twice and dropped; the track that is started then does not get
its id. -/
theorem identity_after_dropped :
    let seen : Observation ExactNumber :=
      .ofDetection Mat.identity none ⟨[], [], 0, 0, 0, .vehicle⟩
    let changes : List (Change ExactNumber) :=
      [.create .standard 5 [seen, seen],
        .edit (fun i t => { t with invisible := if i = 0 then 2 else 0 }) fun _ _ => rfl,
        .dropExpired { LifecycleConfig.standard with reportAgeMinimum := 1 },
        .create .standard 5 [seen]]
    1 ∈ ({} : TrackSet ExactNumber).droppedBy changes ∧
      1 ∉ (({} : TrackSet ExactNumber).after changes).ids ∧
      (({} : TrackSet ExactNumber).after changes).ids = [2, 3] := by
  intro seen changes
  obtain ⟨-, -, -, -, -, -, hdropped⟩ := identity_after changes
  have hfirst : ({} : TrackSet ExactNumber).droppedBy changes = [1] := rfl
  have hmem : 1 ∈ ({} : TrackSet ExactNumber).droppedBy changes := by
    rw [hfirst]
    exact List.mem_singleton_self 1
  refine ⟨hmem, hdropped 1 hmem, ?_⟩
  show (TrackSet.create _ _ _ _).1.ids = _
  rw [ids_create]
  show (TrackSet.dropExpired _ _).1.ids ++ _ = _
  rw [ids_dropExpired]
  rfl

end TrackSet

end ObstacleTracking
