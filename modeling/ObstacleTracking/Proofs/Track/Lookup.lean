import Mathlib.Data.List.Basic
import ObstacleTracking.Track.Set

/-!
# Lookup in track sets

Where ids ascend the bisection finds every live track, so that a change of the track with an id
is a change of all tracks that leaves the others as they are.
-/

namespace ObstacleTracking

namespace TrackSet

variable {α : Type} {s : TrackSet α}

/-- The ids of the live tracks ascend. -/
def Ordered (s : TrackSet α) : Prop := s.ids.Pairwise (· < ·)

/-! ### Places of ids -/

theorem getElem?_ids (s : TrackSet α) (i : ℕ) : s.ids[i]? = s.tracks[i]?.map Track.id := by
  rw [ids, List.getElem?_map, Array.getElem?_toList]

theorem mem_ids_iff {id : ℕ} : id ∈ s.ids ↔
    ∃ (i : ℕ) (t : Track α), s.tracks[i]? = some t ∧ t.id = id := by
  rw [List.mem_iff_getElem?]
  simp only [getElem?_ids, Option.map_eq_some_iff]

theorem id_mem_ids {i : ℕ} {t : Track α} (h : s.tracks[i]? = some t) : t.id ∈ s.ids :=
  mem_ids_iff.mpr ⟨i, t, h, rfl⟩

theorem Ordered.id_lt (hs : s.Ordered) {i k : ℕ} {t u : Track α} (ht : s.tracks[i]? = some t)
    (hu : s.tracks[k]? = some u) (hik : i < k) : t.id < u.id := by
  have hi : s.ids[i]? = some t.id := by rw [getElem?_ids, ht, Option.map_some]
  have hk : s.ids[k]? = some u.id := by rw [getElem?_ids, hu, Option.map_some]
  obtain ⟨hilt, hi⟩ := List.getElem?_eq_some_iff.mp hi
  obtain ⟨hklt, hk⟩ := List.getElem?_eq_some_iff.mp hk
  rw [← hi, ← hk]
  exact List.pairwise_iff_getElem.mp hs i k hilt hklt hik

theorem Ordered.index_eq (hs : s.Ordered) {i k : ℕ} {t u : Track α} (ht : s.tracks[i]? = some t)
    (hu : s.tracks[k]? = some u) (heq : t.id = u.id) : i = k := by
  rcases Nat.lt_trichotomy i k with hlt | hik | hgt
  · have h := hs.id_lt ht hu hlt
    omega
  · exact hik
  · have h := hs.id_lt hu ht hgt
    omega

/-- Bisection ends at the track it looks for. -/
theorem Ordered.bisect_eq (hs : s.Ordered) {i low high : ℕ} {t : Track α}
    (ht : s.tracks[i]? = some t) (hlow : low ≤ i) (hhigh : i < high)
    (hsize : high ≤ s.tracks.size) : bisect s.tracks t.id low high = some i := by
  fun_induction bisect s.tracks t.id low high with
  | case1 low high hlt middle hnone =>
    have hmiddle : s.tracks.size ≤ middle := Array.getElem?_eq_none_iff.mp hnone
    omega
  | case2 low high hlt middle u hu hless ih =>
    have hafter : middle < i := by
      by_contra hle
      rcases Nat.lt_or_eq_of_le (Nat.le_of_not_lt hle) with hbefore | heq
      · have h := hs.id_lt ht hu hbefore
        omega
      · rw [heq, hu] at ht
        have h := congrArg Track.id (Option.some.inj ht)
        omega
    exact ih hafter hhigh hsize
  | case3 low high hlt middle u hu hnot hgreater ih =>
    have hbefore : i < middle := by
      by_contra hle
      rcases Nat.lt_or_eq_of_le (Nat.le_of_not_lt hle) with hafter | heq
      · have h := hs.id_lt hu ht hafter
        omega
      · rw [← heq, hu] at ht
        have h := congrArg Track.id (Option.some.inj ht)
        omega
    exact ih hlow hbefore (by omega)
  | case4 low high hlt middle u hu hnot hnot' =>
    have heq : i = middle := hs.index_eq ht hu (by omega)
    rw [heq]
  | case5 low high hnot => omega

theorem Ordered.position?_eq (hs : s.Ordered) {i : ℕ} {t : Track α} (ht : s.tracks[i]? = some t) :
    s.position? t.id = some i :=
  hs.bisect_eq ht (Nat.zero_le i) (Array.getElem?_eq_some_iff.mp ht).1 (Nat.le_refl _)

/-! ### Changes at an id -/

/-- The track is changed if it has the id. -/
def onId (id : ℕ) (f : Track α → Track α) (t : Track α) : Track α := if t.id = id then f t else t

theorem id_onId {id : ℕ} {f : Track α → Track α} (hf : ∀ t, (f t).id = t.id) (t : Track α) :
    (onId id f t).id = t.id := by
  unfold onId
  split
  · exact hf t
  · rfl

def modify? (s : TrackSet α) (id : ℕ) (f : Track α → Track α) : Option (TrackSet α) :=
  (s.position? id).map fun i => { s with tracks := s.tracks.modify i f }

theorem modify_eq_of_modify? {s' : TrackSet α} {id : ℕ} {f : Track α → Track α}
    (h : s.modify? id f = some s') : s.modify id f = s' := by
  obtain ⟨i, hi, rfl⟩ := Option.map_eq_some_iff.mp h
  rw [modify, hi]

/-- A live track is found, and the change leaves all other tracks as they are. -/
theorem Ordered.modify?_eq (hs : s.Ordered) {id : ℕ} (h : id ∈ s.ids) (f : Track α → Track α) :
    s.modify? id f = some (s.map (onId id f)) := by
  obtain ⟨i, t, ht, rfl⟩ := mem_ids_iff.mp h
  rw [modify?, hs.position?_eq ht, Option.map_some, map]
  congr 2
  refine Array.ext_getElem? ?_
  intro k
  rw [Array.getElem?_modify, Array.getElem?_map]
  cases hk : s.tracks[k]? with
  | none => exact ite_self none
  | some u =>
    rw [Option.map_some, Option.map_some, onId]
    by_cases heq : i = k
    · have hut : u = t := by
        rw [← heq, ht] at hk
        exact (Option.some.inj hk).symm
      rw [if_pos heq, if_pos (congrArg Track.id hut)]
    · rw [if_neg heq, if_neg fun hid => heq (hs.index_eq ht hk hid.symm)]

theorem Ordered.map (hs : s.Ordered) {f : Track α → Track α} (hf : ∀ t, (f t).id = t.id) :
    (s.map f).Ordered := by
  rw [Ordered, ids_map hf]
  exact hs

theorem map_self (s : TrackSet α) : s.map (fun t => t) = s := by
  unfold map
  rw [Array.map_id']

theorem map_map (f g : Track α → Track α) : (s.map f).map g = s.map fun t => g (f t) := by
  unfold map
  rw [Array.map_map]
  rfl

end TrackSet

end ObstacleTracking
