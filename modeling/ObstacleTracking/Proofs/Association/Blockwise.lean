import Mathlib.Data.List.Nodup
import Mathlib.Data.List.Pairwise
import ObstacleTracking.Proofs.Association.Components
import ObstacleTracking.Proofs.Association.Feasibility

/-!
# Assignments block by block

The matched pairs of all connected blocks together are a matching of the matrix, whatever the
solver does. Together with what they leave over they are a valid assignment. No law of the
arithmetic is used.
-/

namespace ObstacleTracking

open Block Assignment

variable {α : Type} [Scalar α] {solver : Solver α} {c : CostMatrix α} {gate : α} {b b' : Block}

/-! ### Connected blocks -/

theorem tracks_sublist_of_mem_components (h : b ∈ components c gate) :
    b.tracks.Sublist (whole c).tracks :=
  (sublist_of_mem_componentsOf h).1

theorem detections_sublist_of_mem_components (h : b ∈ components c gate) :
    b.detections.Sublist (whole c).detections :=
  (sublist_of_mem_componentsOf h).2

theorem ascending_of_mem_components (h : b ∈ components c gate) : b.Ascending :=
  ⟨(ascending_whole c).tracks.sublist (tracks_sublist_of_mem_components h),
    (ascending_whole c).detections.sublist (detections_sublist_of_mem_components h)⟩

theorem pairwise_apart_components (c : CostMatrix α) (gate : α) :
    (components c gate).Pairwise Apart :=
  pairwise_apart_componentsOf List.nodup_range

theorem apart_of_mem_components (h : b ∈ components c gate) (h' : b' ∈ components c gate)
    (hne : b ≠ b') : Apart b b' :=
  (pairwise_apart_components c gate).forall h h' hne

theorem eq_of_track_mem (h : b ∈ components c gate) (h' : b' ∈ components c gate) {t : ℕ}
    (ht : t ∈ b.tracks) (ht' : t ∈ b'.tracks) : b = b' := by
  by_contra hne
  exact (apart_of_mem_components h h' hne).tracks t ht ht'

theorem eq_of_detection_mem (h : b ∈ components c gate) (h' : b' ∈ components c gate) {d : ℕ}
    (hd : d ∈ b.detections) (hd' : d ∈ b'.detections) : b = b' := by
  by_contra hne
  exact (apart_of_mem_components h h' hne).detections d hd hd'

/-! ### The pairs of a connected block -/

/-- A block of one track and one detection has its pair, any other what a solver makes of it. -/
theorem pairsOfComponent_cases (solver : Solver α) (h : b ∈ components c gate) :
    (∃ t d, b = ⟨[t], [d]⟩ ∧ c.isGated gate t d = true ∧
      pairsOfComponent solver c gate b = [(t, d)]) ∨
    pairsOfComponent solver c gate b = pairsOf solver c gate b := by
  unfold pairsOfComponent
  split
  · exact Or.inl ⟨_, _, rfl, isGated_of_singleton_mem h, rfl⟩
  · exact Or.inr rfl

theorem isMatching_pairsOfComponent (solver : Solver α) (h : b ∈ components c gate) :
    IsMatching c gate b (pairsOfComponent solver c gate b).toFinset := by
  have hb := ascending_of_mem_components h
  rcases pairsOfComponent_cases solver h with ⟨t, d, rfl, hgated, heq⟩ | heq
  · rw [heq]
    exact .singleton (List.mem_singleton_self t) (List.mem_singleton_self d) hgated
  · rw [heq]
    exact isMatching_pairsOf solver hb.nodup_tracks hb.nodup_detections

theorem nodup_pairsOfComponent (solver : Solver α) (h : b ∈ components c gate) :
    (pairsOfComponent solver c gate b).Nodup := by
  rcases pairsOfComponent_cases solver h with ⟨t, d, -, -, heq⟩ | heq
  · rw [heq]
    exact List.nodup_singleton (t, d)
  · rw [heq]
    exact nodup_of_pairwise_fst (pairwise_pairsOf solver (ascending_of_mem_components h).tracks)

/-! ### All pairs -/

theorem mem_matched_blockwise {p : ℕ × ℕ} :
    p ∈ (blockwise solver c gate).matched ↔
      ∃ b ∈ components c gate, p ∈ pairsOfComponent solver c gate b := by
  unfold blockwise ofMatches
  rw [List.mem_mergeSort, List.mem_flatMap]

/-- The matched pairs of all blocks are a matching of the matrix. -/
theorem isMatching_blockwise (solver : Solver α) (c : CostMatrix α) (gate : α) :
    IsMatching c gate (whole c) (blockwise solver c gate).matched.toFinset := by
  have hpart : ∀ p ∈ (blockwise solver c gate).matched.toFinset,
      ∃ b ∈ components c gate, p ∈ (pairsOfComponent solver c gate b).toFinset := by
    intro p hp
    obtain ⟨b, hb, hmem⟩ := mem_matched_blockwise.mp (List.mem_toFinset.mp hp)
    exact ⟨b, hb, List.mem_toFinset.mpr hmem⟩
  constructor
  · intro p hp
    obtain ⟨b, hb, hmem⟩ := hpart p hp
    exact (tracks_sublist_of_mem_components hb).subset
      ((isMatching_pairsOfComponent solver hb).track_mem p hmem)
  · intro p hp
    obtain ⟨b, hb, hmem⟩ := hpart p hp
    exact (detections_sublist_of_mem_components hb).subset
      ((isMatching_pairsOfComponent solver hb).detection_mem p hmem)
  · intro p hp
    obtain ⟨b, hb, hmem⟩ := hpart p hp
    exact (isMatching_pairsOfComponent solver hb).gated p hmem
  · intro p hp q hq heq
    obtain ⟨b, hb, hpb⟩ := hpart p hp
    obtain ⟨b', hb', hqb⟩ := hpart q hq
    have hm := isMatching_pairsOfComponent solver hb
    have hm' := isMatching_pairsOfComponent solver hb'
    have hsame : b = b' :=
      eq_of_track_mem hb hb' (hm.track_mem p hpb) (heq ▸ hm'.track_mem q hqb)
    subst hsame
    exact hm.track_inj p hpb q hqb heq
  · intro p hp q hq heq
    obtain ⟨b, hb, hpb⟩ := hpart p hp
    obtain ⟨b', hb', hqb⟩ := hpart q hq
    have hm := isMatching_pairsOfComponent solver hb
    have hm' := isMatching_pairsOfComponent solver hb'
    have hsame : b = b' :=
      eq_of_detection_mem hb hb' (hm.detection_mem p hpb) (heq ▸ hm'.detection_mem q hqb)
    subst hsame
    exact hm.detection_inj p hpb q hqb heq

theorem nodup_matched_blockwise (solver : Solver α) (c : CostMatrix α) (gate : α) :
    (blockwise solver c gate).matched.Nodup := by
  unfold blockwise ofMatches
  rw [(List.mergeSort_perm _ _).nodup_iff, List.nodup_flatMap]
  refine ⟨fun b hb => nodup_pairsOfComponent solver hb, ?_⟩
  refine (pairwise_apart_components c gate).imp_of_mem ?_
  intro b b' hb hb' hapart p hp hp'
  exact hapart.tracks p.1
    ((isMatching_pairsOfComponent solver hb).track_mem p (List.mem_toFinset.mpr hp))
    ((isMatching_pairsOfComponent solver hb').track_mem p (List.mem_toFinset.mpr hp'))

theorem pairwise_mergeSort_fst (l : List (ℕ × ℕ)) :
    (l.mergeSort fun p q => p.1 ≤ q.1).Pairwise fun p q => p.1 ≤ q.1 := by
  have htrans : ∀ p q r : ℕ × ℕ, decide (p.1 ≤ q.1) = true → decide (q.1 ≤ r.1) = true →
      decide (p.1 ≤ r.1) = true := by
    intro p q r
    simp only [decide_eq_true_eq]
    exact Nat.le_trans
  have htotal : ∀ p q : ℕ × ℕ, (decide (p.1 ≤ q.1) || decide (q.1 ≤ p.1)) = true := by
    intro p q
    simp only [Bool.or_eq_true, decide_eq_true_eq]
    exact Nat.le_total p.1 q.1
  exact (List.pairwise_mergeSort htrans htotal l).imp of_decide_eq_true

theorem pairwise_matched_blockwise (solver : Solver α) (c : CostMatrix α) (gate : α) :
    (blockwise solver c gate).matched.Pairwise fun p q => p.1 < q.1 := by
  have hle : (blockwise solver c gate).matched.Pairwise fun p q => p.1 ≤ q.1 :=
    pairwise_mergeSort_fst _
  refine (hle.and (nodup_matched_blockwise solver c gate)).imp_of_mem ?_
  intro p q hp hq hpq
  refine Nat.lt_of_le_of_ne hpq.1 ?_
  intro heq
  exact hpq.2 ((isMatching_blockwise solver c gate).track_inj p (List.mem_toFinset.mpr hp) q
    (List.mem_toFinset.mpr hq) heq)

/-- No track is matched twice. -/
theorem nodup_fst_matched_blockwise (solver : Solver α) (c : CostMatrix α) (gate : α) :
    ((blockwise solver c gate).matched.map Prod.fst).Nodup :=
  List.pairwise_map.mpr ((pairwise_matched_blockwise solver c gate).imp Nat.ne_of_lt)

/-! ### Matched or left over -/

theorem perm_append_left_over {l : List ℕ} {n : ℕ} (hl : l.Nodup) (hn : ∀ i ∈ l, i < n) :
    (l ++ (List.range n).filter fun i => !l.contains i).Perm (List.range n) := by
  have hnodup : (l ++ (List.range n).filter fun i => !l.contains i).Nodup := by
    refine List.nodup_append'.mpr ⟨hl, List.nodup_range.filter _, ?_⟩
    intro i hi hrest
    have hnot := (List.mem_filter.mp hrest).2
    simp [hi] at hnot
  refine (List.perm_ext_iff_of_nodup hnodup List.nodup_range).mpr ?_
  intro i
  rw [List.mem_append, List.mem_filter, List.mem_range]
  constructor
  · intro h
    rcases h with h | h
    · exact hn i h
    · exact h.1
  · intro h
    by_cases hi : i ∈ l
    · exact Or.inl hi
    · exact Or.inr ⟨h, by simpa using hi⟩

section OfMatches

variable {l : List (ℕ × ℕ)} (hm : IsMatching c gate (whole c) l.toFinset)
  (hl : l.Pairwise fun p q => p.1 < q.1)

include hm hl

/-- No detection is matched twice. -/
theorem nodup_snd_of_isMatching : (l.map Prod.snd).Nodup := by
  refine List.pairwise_map.mpr (hl.imp_of_mem ?_)
  intro p q hp hq hlt heq
  have hpq := hm.detection_inj p (List.mem_toFinset.mpr hp) q (List.mem_toFinset.mpr hq) heq
  rw [hpq] at hlt
  omega

theorem perm_tracks_ofMatches :
    (l.map Prod.fst ++ (ofMatches (whole c) l).unmatchedTracks).Perm (List.range c.rows) := by
  refine perm_append_left_over (List.pairwise_map.mpr (hl.imp Nat.ne_of_lt)) ?_
  intro i hi
  obtain ⟨p, hp, rfl⟩ := List.mem_map.mp hi
  exact List.mem_range.mp (hm.track_mem p (List.mem_toFinset.mpr hp))

theorem perm_detections_ofMatches :
    (l.map Prod.snd ++ (ofMatches (whole c) l).unmatchedDetections).Perm (List.range c.cols) := by
  refine perm_append_left_over (nodup_snd_of_isMatching hm hl) ?_
  intro i hi
  obtain ⟨p, hp, rfl⟩ := List.mem_map.mp hi
  exact List.mem_range.mp (hm.detection_mem p (List.mem_toFinset.mpr hp))

end OfMatches

theorem perm_tracks_blockwise (solver : Solver α) (c : CostMatrix α) (gate : α) :
    ((blockwise solver c gate).matched.map Prod.fst ++
      (blockwise solver c gate).unmatchedTracks).Perm (List.range c.rows) :=
  perm_tracks_ofMatches (isMatching_blockwise solver c gate)
    (pairwise_matched_blockwise solver c gate)

theorem perm_detections_blockwise (solver : Solver α) (c : CostMatrix α) (gate : α) :
    ((blockwise solver c gate).matched.map Prod.snd ++
      (blockwise solver c gate).unmatchedDetections).Perm (List.range c.cols) :=
  perm_detections_ofMatches (isMatching_blockwise solver c gate)
    (pairwise_matched_blockwise solver c gate)

/-! ### Valid assignments -/

/-- What holds of an assignment of a matrix, however it was found. -/
structure Assignment.IsValid (c : CostMatrix α) (gate : α) (a : Assignment) : Prop where
  ascending_matched : a.matched.Pairwise fun p q => p.1 < q.1
  nodup_detections : (a.matched.map Prod.snd).Nodup
  passes : ∀ p ∈ a.matched, Scalar.isFinite (c.entry p.1 p.2) = true ∧ c.entry p.1 p.2 ≤ gate
  /-- Every track is matched or left over, once. -/
  perm_tracks : (a.matched.map Prod.fst ++ a.unmatchedTracks).Perm (List.range c.rows)
  perm_detections : (a.matched.map Prod.snd ++ a.unmatchedDetections).Perm (List.range c.cols)
  ascending_unmatchedTracks : a.unmatchedTracks.Pairwise (· < ·)
  ascending_unmatchedDetections : a.unmatchedDetections.Pairwise (· < ·)

theorem isValid_ofMatches {l : List (ℕ × ℕ)} (hm : IsMatching c gate (whole c) l.toFinset)
    (hl : l.Pairwise fun p q => p.1 < q.1) : (ofMatches (whole c) l).IsValid c gate where
  ascending_matched := hl
  nodup_detections := nodup_snd_of_isMatching hm hl
  passes p hp := by
    have hgated : c.isGated gate p.1 p.2 = true := hm.gated p (List.mem_toFinset.mpr hp)
    simpa [CostMatrix.isGated, CostMatrix.passes] using hgated
  perm_tracks := perm_tracks_ofMatches hm hl
  perm_detections := perm_detections_ofMatches hm hl
  ascending_unmatchedTracks := List.pairwise_lt_range.filter _
  ascending_unmatchedDetections := List.pairwise_lt_range.filter _

/-- Whatever permutations a solver returns, or none, and whatever the costs and the gate are, both
ways to assign a matrix give valid assignments. -/
theorem isValid_assignments (solver : Solver α) (c : CostMatrix α) (gate : α) :
    (blockwise solver c gate).IsValid c gate ∧ (global solver c gate).IsValid c gate := by
  have hb := ascending_whole c
  constructor
  · exact isValid_ofMatches (isMatching_blockwise solver c gate)
      (pairwise_matched_blockwise solver c gate)
  · exact isValid_ofMatches (isMatching_pairsOf solver hb.nodup_tracks hb.nodup_detections)
      (pairwise_pairsOf solver hb.tracks)

end ObstacleTracking
