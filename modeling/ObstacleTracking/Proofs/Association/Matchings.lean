import Mathlib.Algebra.BigOperators.Group.Finset.Basic
import ObstacleTracking.Association.Assignment

/-!
# Matchings of a block

Sets of gated pairs in which no track and no detection occurs twice. A matching of a block whose
first track is `t` consists of what `t` chooses, a detection or none, and of a matching of the
later tracks and the detections that are left; assignments are made and compared along this
decomposition.
-/

namespace ObstacleTracking

open Assignment (leave pairs)

variable {α : Type} [Scalar α] {c : CostMatrix α} {gate : α}

namespace Block

/-- Gated pairs of a block that share no track and no detection. -/
structure IsMatching (c : CostMatrix α) (gate : α) (b : Block) (m : Finset (ℕ × ℕ)) : Prop where
  track_mem : ∀ p ∈ m, p.1 ∈ b.tracks
  detection_mem : ∀ p ∈ m, p.2 ∈ b.detections
  gated : ∀ p ∈ m, c.isGated gate p.1 p.2 = true
  track_inj : ∀ p ∈ m, ∀ q ∈ m, p.1 = q.1 → p = q
  detection_inj : ∀ p ∈ m, ∀ q ∈ m, p.2 = q.2 → p = q

/-- Both kinds of indices of a block come in ascending order. -/
structure Ascending (b : Block) : Prop where
  tracks : b.tracks.Pairwise (· < ·)
  detections : b.detections.Pairwise (· < ·)

omit [Scalar α] in
theorem ascending_whole (c : CostMatrix α) : (whole c).Ascending :=
  ⟨List.pairwise_lt_range, List.pairwise_lt_range⟩

theorem Ascending.nodup_tracks {b : Block} (h : b.Ascending) : b.tracks.Nodup :=
  h.tracks.imp Nat.ne_of_lt

theorem Ascending.nodup_detections {b : Block} (h : b.Ascending) : b.detections.Nodup :=
  h.detections.imp Nat.ne_of_lt

namespace IsMatching

variable {b b' : Block} {m m' : Finset (ℕ × ℕ)}

theorem empty (c : CostMatrix α) (gate : α) (b : Block) : IsMatching c gate b ∅ := by
  constructor <;> intro p hp <;> exact absurd hp (Finset.notMem_empty p)

theorem subset (h : IsMatching c gate b m) (hs : m' ⊆ m) : IsMatching c gate b m' where
  track_mem p hp := h.track_mem p (hs hp)
  detection_mem p hp := h.detection_mem p (hs hp)
  gated p hp := h.gated p (hs hp)
  track_inj p hp q hq := h.track_inj p (hs hp) q (hs hq)
  detection_inj p hp q hq := h.detection_inj p (hs hp) q (hs hq)

/-- The block of a matching may be exchanged for any other that has the pairs. -/
theorem of_mem (h : IsMatching c gate b m) (ht : ∀ p ∈ m, p.1 ∈ b'.tracks)
    (hd : ∀ p ∈ m, p.2 ∈ b'.detections) : IsMatching c gate b' m where
  track_mem := ht
  detection_mem := hd
  gated := h.gated
  track_inj := h.track_inj
  detection_inj := h.detection_inj

/-- Two matchings without common tracks and detections make one. -/
theorem union (h : IsMatching c gate b m) (h' : IsMatching c gate b m')
    (ht : ∀ p ∈ m, ∀ q ∈ m', p.1 ≠ q.1) (hd : ∀ p ∈ m, ∀ q ∈ m', p.2 ≠ q.2) :
    IsMatching c gate b (m ∪ m') := by
  constructor
  · intro p hp
    exact (Finset.mem_union.mp hp).elim (h.track_mem p) (h'.track_mem p)
  · intro p hp
    exact (Finset.mem_union.mp hp).elim (h.detection_mem p) (h'.detection_mem p)
  · intro p hp
    exact (Finset.mem_union.mp hp).elim (h.gated p) (h'.gated p)
  · intro p hp q hq heq
    rcases Finset.mem_union.mp hp with hp | hp <;> rcases Finset.mem_union.mp hq with hq | hq
    · exact h.track_inj p hp q hq heq
    · exact absurd heq (ht p hp q hq)
    · exact absurd heq.symm (ht q hq p hp)
    · exact h'.track_inj p hp q hq heq
  · intro p hp q hq heq
    rcases Finset.mem_union.mp hp with hp | hp <;> rcases Finset.mem_union.mp hq with hq | hq
    · exact h.detection_inj p hp q hq heq
    · exact absurd heq (hd p hp q hq)
    · exact absurd heq.symm (hd q hq p hp)
    · exact h'.detection_inj p hp q hq heq

/-- Where at most one pair is gated a matching has no other. -/
theorem subset_singleton (h : IsMatching c gate b m) {p : ℕ × ℕ}
    (honly : ∀ t ∈ b.tracks, ∀ d ∈ b.detections, c.isGated gate t d = true → (t, d) = p) :
    m ⊆ {p} := by
  intro q hq
  exact Finset.mem_singleton.mpr
    (honly q.1 (h.track_mem q hq) q.2 (h.detection_mem q hq) (h.gated q hq))

end IsMatching

/-! ### The choice of the first track -/

/-- A matching and what one more track chooses. -/
def withChoice (t : ℕ) (m : Finset (ℕ × ℕ)) : Option ℕ → Finset (ℕ × ℕ)
  | none => m
  | some d => insert (t, d) m

/-- What a track may choose among some detections: a gated one, or none. -/
def candidates (c : CostMatrix α) (gate : α) (t : ℕ) (detections : List ℕ) : List (Option ℕ) :=
  (detections.filter (c.isGated gate t)).map some ++ [none]

theorem none_mem_candidates (t : ℕ) (detections : List ℕ) :
    none ∈ candidates c gate t detections := by
  simp [candidates]

theorem some_mem_candidates_iff {t d : ℕ} {detections : List ℕ} :
    some d ∈ candidates c gate t detections ↔ d ∈ detections ∧ c.isGated gate t d = true := by
  simp [candidates]

theorem mem_leave_some_iff {detections : List ℕ} {d e : ℕ} :
    e ∈ leave detections (some d) ↔ e ∈ detections ∧ e ≠ d := by
  simp [leave]

theorem leave_sublist (detections : List ℕ) (choice : Option ℕ) :
    (leave detections choice).Sublist detections := by
  cases choice with
  | none => exact List.Sublist.refl _
  | some d => exact List.filter_sublist

variable {t : ℕ} {later detections : List ℕ} {m : Finset (ℕ × ℕ)} {choice : Option ℕ}

theorem IsMatching.singleton {b : Block} {d : ℕ} (ht : t ∈ b.tracks) (hd : d ∈ b.detections)
    (hg : c.isGated gate t d = true) : IsMatching c gate b {(t, d)} := by
  constructor <;> intro p hp <;> rw [Finset.mem_singleton.mp hp]
  · exact ht
  · exact hd
  · exact hg
  · intro q hq _
    exact (Finset.mem_singleton.mp hq).symm
  · intro q hq _
    exact (Finset.mem_singleton.mp hq).symm

/-- What a track chooses may be added to a matching of what it leaves. -/
theorem IsMatching.withChoice (h : IsMatching c gate ⟨later, leave detections choice⟩ m)
    (ht : t ∉ later) (hc : choice ∈ candidates c gate t detections) :
    IsMatching c gate ⟨t :: later, detections⟩ (withChoice t m choice) := by
  have hm : IsMatching c gate ⟨t :: later, detections⟩ m :=
    h.of_mem (fun p hp => List.mem_cons_of_mem t (h.track_mem p hp))
      (fun p hp => (leave_sublist detections choice).subset (h.detection_mem p hp))
  cases choice with
  | none => exact hm
  | some d =>
    obtain ⟨hd, hg⟩ := some_mem_candidates_iff.mp hc
    have hpair : IsMatching c gate ⟨t :: later, detections⟩ {(t, d)} :=
      .singleton List.mem_cons_self hd hg
    refine hpair.union hm ?_ ?_
    · intro p hp q hq heq
      rw [Finset.mem_singleton.mp hp] at heq
      have heq : t = q.1 := heq
      rw [heq] at ht
      exact ht (h.track_mem q hq)
    · intro p hp q hq heq
      rw [Finset.mem_singleton.mp hp] at heq
      exact (mem_leave_some_iff.mp (h.detection_mem q hq)).2 heq.symm

/-- Every matching is made of what its first track chooses and a matching of what is left. -/
theorem IsMatching.exists_withChoice (h : IsMatching c gate ⟨t :: later, detections⟩ m) :
    ∃ choice ∈ candidates c gate t detections, ∃ m',
      IsMatching c gate ⟨later, leave detections choice⟩ m' ∧
        m = Block.withChoice t m' choice := by
  by_cases hex : ∃ d, (t, d) ∈ m
  · obtain ⟨d, hd⟩ := hex
    refine ⟨some d, some_mem_candidates_iff.mpr ⟨h.detection_mem _ hd, h.gated _ hd⟩,
      m.erase (t, d), ?_, (Finset.insert_erase hd).symm⟩
    have hrest : IsMatching c gate ⟨t :: later, detections⟩ (m.erase (t, d)) :=
      h.subset (Finset.erase_subset _ m)
    refine hrest.of_mem ?_ ?_
    · intro p hp
      obtain ⟨hne, hp⟩ := Finset.mem_erase.mp hp
      rcases List.mem_cons.mp (h.track_mem p hp) with heq | hlater
      · exact absurd (h.track_inj p hp (t, d) hd heq) hne
      · exact hlater
    · intro p hp
      obtain ⟨hne, hp⟩ := Finset.mem_erase.mp hp
      refine mem_leave_some_iff.mpr ⟨h.detection_mem p hp, ?_⟩
      intro heq
      exact hne (h.detection_inj p hp (t, d) hd heq)
  · refine ⟨none, none_mem_candidates t detections, m, ?_, rfl⟩
    refine h.of_mem ?_ h.detection_mem
    intro p hp
    rcases List.mem_cons.mp (h.track_mem p hp) with heq | hlater
    · exact absurd ⟨p.2, heq ▸ hp⟩ hex
    · exact hlater

/-! ### Matchings as lists of pairs -/

theorem pairs_cons (t : ℕ) (tracks : List ℕ) (choice : Option ℕ) (choices : List (Option ℕ)) :
    pairs (t :: tracks) (choice :: choices) =
      (choice.map fun d => (t, d)).toList ++ pairs tracks choices := by
  cases choice <;> simp [pairs]

theorem toFinset_pairs_cons (t : ℕ) (tracks : List ℕ) (choice : Option ℕ)
    (choices : List (Option ℕ)) :
    (pairs (t :: tracks) (choice :: choices)).toFinset =
      Block.withChoice t (pairs tracks choices).toFinset choice := by
  rw [pairs_cons]
  cases choice with
  | none => rfl
  | some d => exact List.toFinset_cons

theorem map_fst_pairs_sublist (tracks : List ℕ) (choices : List (Option ℕ)) :
    ((pairs tracks choices).map Prod.fst).Sublist tracks := by
  induction tracks generalizing choices with
  | nil => simp [pairs]
  | cons t tracks ih =>
    cases choices with
    | nil => simp [pairs]
    | cons choice choices =>
      rw [pairs_cons]
      cases choice with
      | none => exact (ih choices).cons t
      | some d => exact (ih choices).cons_cons t

theorem pairwise_pairs {tracks : List ℕ} (h : tracks.Pairwise (· < ·))
    (choices : List (Option ℕ)) : (pairs tracks choices).Pairwise fun p q => p.1 < q.1 :=
  List.pairwise_map.mp (h.sublist (map_fst_pairs_sublist tracks choices))

theorem nodup_of_pairwise_fst {l : List (ℕ × ℕ)} (h : l.Pairwise fun p q => p.1 < q.1) :
    l.Nodup := by
  apply h.imp
  intro p q hlt heq
  rw [heq] at hlt
  exact Nat.lt_irrefl q.1 hlt

end Block

end ObstacleTracking
