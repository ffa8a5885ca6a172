import ObstacleTracking.Proofs.Association.Agreement
import ObstacleTracking.Proofs.Association.Renumber

/-!
# Matrices within matrices

A matrix with some of the tracks and detections of another, under new numbers and at the same costs.
Its matchings are those of the other that use no track and no detection besides. So if the other is
matched within it, both are matched alike, provided that no two largest matchings nearly tie and the
numbers come in the same order, or that one largest matching alone is as cheap as a tie allows.
-/

namespace ObstacleTracking

open Block Assignment ExactScalar

/-! ### Embedded matrices -/

theorem Renumbering.pair_inj (r : Renumbering) : Function.Injective r.pair := by
  intro p q h
  unfold pair at h
  rw [Prod.mk.injEq] at h
  exact Prod.ext (r.track_inj h.1) (r.detection_inj h.2)

/-- The pairs of a track and a detection of a matrix. -/
def CostMatrix.places {α : Type} (c : CostMatrix α) : Finset (ℕ × ℕ) :=
  Finset.range c.rows ×ˢ Finset.range c.cols

section Matchings

variable {α : Type} [Scalar α] {r : Renumbering} {c c' : CostMatrix α} {gate : α}
  {m n : Finset (ℕ × ℕ)}

/-- Under new numbers a matrix has tracks and detections of another, at the same costs. -/
structure IsEmbedded (r : Renumbering) (c c' : CostMatrix α) : Prop where
  track_lt : ∀ i < c.rows, r.track i < c'.rows
  detection_lt : ∀ j < c.cols, r.detection j < c'.cols
  agrees : r.Agrees c c' (whole c)

theorem Block.IsMatching.subset_places (hm : IsMatching c gate (whole c) m) : m ⊆ c.places := by
  intro p hp
  refine Finset.mem_product.mpr ⟨?_, ?_⟩
  · exact Finset.mem_range.mpr (List.mem_range.mp (hm.track_mem p hp))
  · exact Finset.mem_range.mpr (List.mem_range.mp (hm.detection_mem p hp))

omit [Scalar α] in
theorem mem_whole_of_subset_places (hm : m ⊆ c.places) {p : ℕ × ℕ} (hp : p ∈ m) :
    p.1 ∈ (whole c).tracks ∧ p.2 ∈ (whole c).detections := by
  obtain ⟨htrack, hdetection⟩ := Finset.mem_product.mp (hm hp)
  exact ⟨List.mem_range.mpr (Finset.mem_range.mp htrack),
    List.mem_range.mpr (Finset.mem_range.mp hdetection)⟩

namespace IsEmbedded

theorem isGated_pair (h : IsEmbedded r c c') (hm : m ⊆ c.places) {p : ℕ × ℕ} (hp : p ∈ m) :
    c'.isGated gate (r.pair p).1 (r.pair p).2 = c.isGated gate p.1 p.2 := by
  obtain ⟨htrack, hdetection⟩ := mem_whole_of_subset_places hm hp
  exact h.agrees.isGated htrack hdetection

theorem isMatching_image (h : IsEmbedded r c c') (hm : IsMatching c gate (whole c) m) :
    IsMatching c' gate (whole c') (m.image r.pair) := by
  constructor
  · intro p hp
    obtain ⟨q, hq, rfl⟩ := Finset.mem_image.mp hp
    exact List.mem_range.mpr (h.track_lt q.1 (List.mem_range.mp (hm.track_mem q hq)))
  · intro p hp
    obtain ⟨q, hq, rfl⟩ := Finset.mem_image.mp hp
    exact List.mem_range.mpr (h.detection_lt q.2 (List.mem_range.mp (hm.detection_mem q hq)))
  · intro p hp
    obtain ⟨q, hq, rfl⟩ := Finset.mem_image.mp hp
    rw [h.isGated_pair hm.subset_places hq]
    exact hm.gated q hq
  · intro p hp p' hp' heq
    obtain ⟨q, hq, rfl⟩ := Finset.mem_image.mp hp
    obtain ⟨q', hq', rfl⟩ := Finset.mem_image.mp hp'
    rw [hm.track_inj q hq q' hq' (r.track_inj heq)]
  · intro p hp p' hp' heq
    obtain ⟨q, hq, rfl⟩ := Finset.mem_image.mp hp
    obtain ⟨q', hq', rfl⟩ := Finset.mem_image.mp hp'
    rw [hm.detection_inj q hq q' hq' (r.detection_inj heq)]

/-- A matching of the other matrix that keeps to the embedded one is a matching there. -/
theorem exists_matching (h : IsEmbedded r c c') {m' : Finset (ℕ × ℕ)}
    (hm' : IsMatching c' gate (whole c') m') (hwithin : m' ⊆ c.places.image r.pair) :
    ∃ m, IsMatching c gate (whole c) m ∧ m.image r.pair = m' := by
  obtain ⟨m, hm, rfl⟩ := Finset.subset_image_iff.mp hwithin
  have hmem : ∀ p ∈ m, r.pair p ∈ m.image r.pair := fun p hp => Finset.mem_image_of_mem r.pair hp
  refine ⟨m, ?_, rfl⟩
  constructor
  · exact fun p hp => (mem_whole_of_subset_places hm hp).1
  · exact fun p hp => (mem_whole_of_subset_places hm hp).2
  · intro p hp
    rw [← h.isGated_pair hm hp]
    exact hm'.gated _ (hmem p hp)
  · intro p hp q hq heq
    exact r.pair_inj (hm'.track_inj _ (hmem p hp) _ (hmem q hq) (congrArg r.track heq))
  · intro p hp q hq heq
    exact r.pair_inj (hm'.detection_inj _ (hmem p hp) _ (hmem q hq) (congrArg r.detection heq))

end IsEmbedded

theorem Renumbering.card_image (r : Renumbering) (m : Finset (ℕ × ℕ)) :
    (m.image r.pair).card = m.card :=
  Finset.card_image_of_injective m r.pair_inj

theorem Renumbering.precedes_of_image (htrack : StrictMono r.track)
    (hdetection : StrictMono r.detection) (h : Precedes (m.image r.pair) (n.image r.pair)) :
    Precedes m n := by
  obtain ⟨t, d, hbelow, hmem, hlow⟩ := h
  obtain ⟨⟨t, d⟩, hp, heq⟩ := Finset.mem_image.mp hmem
  unfold pair at heq
  rw [Prod.mk.injEq] at heq
  obtain ⟨rfl, rfl⟩ := heq
  refine ⟨t, d, ?_, hp, ?_⟩
  · intro s hs e
    rw [← r.pair_inj.mem_finset_image (s := m), ← r.pair_inj.mem_finset_image (s := n)]
    exact hbelow (r.track s) (htrack hs) (r.detection e)
  · intro e he
    have hmem' : (r.track t, r.detection e) ∈ n.image r.pair :=
      Finset.mem_image_of_mem r.pair he
    exact hdetection.lt_iff_lt.mp (hlow (r.detection e) hmem')

/-! ### Left over -/

section LeftOver

variable {solver : Solver α} {i j : ℕ}

theorem not_contains_map_iff {f : ℕ × ℕ → ℕ} {l : List (ℕ × ℕ)} :
    (!(l.map f).contains i) = true ↔ ∀ p ∈ l, f p ≠ i := by
  rw [Bool.not_eq_true', ← Bool.not_eq_true, List.contains_iff_mem, List.mem_map]
  exact ⟨fun h p hp heq => h ⟨p, hp, heq⟩, fun h hex => hex.elim fun p hp => h p hp.1 hp.2⟩

theorem mem_unmatchedTracks_blockwise :
    i ∈ (blockwise solver c gate).unmatchedTracks ↔
      i < c.rows ∧ ∀ p ∈ (blockwise solver c gate).matched, p.1 ≠ i := by
  show i ∈ (List.range c.rows).filter _ ↔ _
  rw [List.mem_filter, List.mem_range]
  exact and_congr_right' not_contains_map_iff

theorem mem_unmatchedDetections_blockwise :
    j ∈ (blockwise solver c gate).unmatchedDetections ↔
      j < c.cols ∧ ∀ p ∈ (blockwise solver c gate).matched, p.2 ≠ j := by
  show j ∈ (List.range c.cols).filter _ ↔ _
  rw [List.mem_filter, List.mem_range]
  exact and_congr_right' not_contains_map_iff

theorem exists_unmatchedDetections (solver : Solver α) (h : c.rows < c.cols) :
    ∃ j, j ∈ (blockwise solver c gate).unmatchedDetections := by
  have htracks := (perm_tracks_blockwise solver c gate).length_eq
  have hdetections := (perm_detections_blockwise solver c gate).length_eq
  simp only [List.length_append, List.length_map, List.length_range] at htracks hdetections
  exact List.exists_mem_of_length_pos (by omega)

end LeftOver

end Matchings

variable {K α : Type} [Field K] [LinearOrder K] [Scalar α] [ExactScalar K α]
  {r : Renumbering} {c c' : CostMatrix α} {gate : α} {m n : Finset (ℕ × ℕ)}

/-! ### Preferred matchings -/

namespace IsEmbedded

theorem total_image (h : IsEmbedded r c c') (hm : IsMatching c gate (whole c) m) :
    c'.total (m.image r.pair) = c.total m := by
  unfold CostMatrix.total
  rw [Finset.sum_image r.pair_inj.injOn]
  refine Finset.sum_congr rfl ?_
  intro p hp
  exact congrArg value (h.agrees p.1 (hm.track_mem p hp) p.2 (hm.detection_mem p hp))

theorem isNonneg (h : IsEmbedded r c c') (hc' : IsNonneg c' gate (whole c')) :
    IsNonneg c gate (whole c) := by
  intro i hi j hj hgated
  rw [← h.agrees i hi j hj]
  refine hc' _ (List.mem_range.mpr (h.track_lt i (List.mem_range.mp hi))) _
    (List.mem_range.mpr (h.detection_lt j (List.mem_range.mp hj))) ?_
  rw [h.agrees.isGated hi hj]
  exact hgated

theorem isLargest_of_image (h : IsEmbedded r c c') (hm : IsMatching c gate (whole c) m)
    (hlargest : IsLargest c' gate (whole c') (m.image r.pair)) : IsLargest c gate (whole c) m := by
  refine ⟨hm, ?_⟩
  intro n hn
  have hle := hlargest.card_le _ (h.isMatching_image hn)
  rw [r.card_image, r.card_image] at hle
  exact hle

theorem isLargest_image (h : IsEmbedded r c c') (hm : IsLargest c gate (whole c) m)
    (hn : IsMatching c gate (whole c) n)
    (hlargest : IsLargest c' gate (whole c') (n.image r.pair)) :
    IsLargest c' gate (whole c') (m.image r.pair) := by
  refine (h.isMatching_image hm.isMatching).isLargest_of_card hlargest ?_
  rw [r.card_image, r.card_image]
  exact hm.card_le n hn

theorem isCheapest_of_image (h : IsEmbedded r c c') (hm : IsMatching c gate (whole c) m)
    (hcheapest : IsCheapest c' gate (whole c') (m.image r.pair)) :
    IsCheapest c gate (whole c) m := by
  refine ⟨h.isLargest_of_image hm hcheapest.isLargest, ?_⟩
  intro n hn
  have hle := hcheapest.total_le _ (h.isLargest_image hn hm hcheapest.isLargest)
  rw [h.total_image hm, h.total_image hn.isMatching] at hle
  exact hle

theorem isCheapest_image (h : IsEmbedded r c c')
    (honto : c'.places ⊆ c.places.image r.pair) (hm : IsCheapest c gate (whole c) m) :
    IsCheapest c' gate (whole c') (m.image r.pair) := by
  have hmatching := hm.isLargest.isMatching
  -- the embedded matrix has all places of the other, so every matching there is an image
  refine ⟨⟨h.isMatching_image hmatching, ?_⟩, ?_⟩
  · intro n' hn'
    obtain ⟨n, hn, rfl⟩ := h.exists_matching hn' (hn'.subset_places.trans honto)
    rw [r.card_image, r.card_image]
    exact hm.isLargest.card_le n hn
  · intro n' hn'
    obtain ⟨n, hn, rfl⟩ :=
      h.exists_matching hn'.isMatching (hn'.isMatching.subset_places.trans honto)
    rw [h.total_image hn, h.total_image hmatching]
    exact hm.total_le n (h.isLargest_of_image hn hn')

theorem isCanonical_of_image (h : IsEmbedded r c c') (htrack : StrictMono r.track)
    (hdetection : StrictMono r.detection) (hm : IsMatching c gate (whole c) m) {least : K}
    (hcanonical : IsCanonical c' gate (whole c') least (m.image r.pair)) :
    IsCanonical c gate (whole c) least m := by
  refine ⟨h.isLargest_of_image hm hcanonical.isLargest, ?_, ?_⟩
  · have htie := hcanonical.tie
    rw [h.total_image hm] at htie
    exact htie
  · intro n hn htie
    rw [← h.total_image hn.isMatching] at htie
    rcases hcanonical.first _ (h.isLargest_image hn hm hcanonical.isLargest) htie with heq | hlt
    · exact Or.inl (Finset.image_injective r.pair_inj heq)
    · exact Or.inr (Renumbering.precedes_of_image htrack hdetection hlt)

end IsEmbedded

/-! ### No near ties -/

variable [IsStrictOrderedRing K] {solver : Solver α}

/-- Without near ties what is matched is a cheapest matching, and the first of those that tie. -/
theorem CostMatrix.HasNoNearTies.preferred {g : K} (h : c.HasNoNearTies (ofField g))
    (hs : solver.IsExact) (hc : IsNonneg c (ofField g) (whole c)) :
    let m := (blockwise solver c (ofField g)).matched.toFinset
    IsCheapest c (ofField g) (whole c) m ∧ IsCanonical c (ofField g) (whole c) (c.total m) m := by
  have hb := ascending_whole c
  have hm₀ := isCheapest_solved hs hb hc
  have htie := fun m hm htie => h.total_eq hc (m := m) hm hm₀.isLargest htie
  have hcheapest := isCheapest_blockwise hs hc hm₀ htie
  have hcanonical := (isCanonical_pairsOf hs hb hc hm₀).2
  have hmatched := toFinset_matched_eq hs hc hm₀ htie hcanonical
  have htotal := le_antisymm (hm₀.total_le _ hcheapest.isLargest)
    (hcheapest.total_le _ hm₀.isLargest)
  rw [← hmatched, htotal] at hcanonical
  exact ⟨hcheapest, hcanonical⟩

/-- What is left out of a matrix does not change what is matched, if it was not matched. -/
theorem IsEmbedded.toFinset_matched_eq (h : IsEmbedded r c c') (htrack : StrictMono r.track)
    (hdetection : StrictMono r.detection) (hs : solver.IsExact)
    (hfinite : Scalar.isFinite gate = true) (hc' : IsNonneg c' gate (whole c'))
    (hties : c'.HasNoNearTies gate)
    (hwithin : (blockwise solver c' gate).matched.toFinset ⊆ c.places.image r.pair) :
    (blockwise solver c' gate).matched.toFinset =
      (blockwise solver c gate).matched.toFinset.image r.pair := by
  obtain ⟨g, rfl⟩ := exists_of_isFinite (K := K) hfinite
  obtain ⟨hcheapest, hcanonical⟩ := hties.preferred hs hc'
  -- what is matched keeps to the embedded matrix, and there it is preferred to all others
  obtain ⟨n, hn, hmatched⟩ :=
    h.exists_matching (isMatching_blockwise solver c' (ofField g)) hwithin
  rw [← hmatched] at hcheapest
  rw [← hmatched, h.total_image hn] at hcanonical
  have htie : ∀ m, IsLargest c (ofField g) (whole c) m → Tie (c.total m) (c.total n) →
      c.total m = c.total n := by
    intro m hm htie
    have hm' := h.isLargest_image hm hn hcheapest.isLargest
    rw [← h.total_image hm.isMatching, ← h.total_image hn] at htie ⊢
    exact hties.total_eq hc' hm' hcheapest.isLargest htie
  have heq := ObstacleTracking.toFinset_matched_eq hs (h.isNonneg hc')
    (h.isCheapest_of_image hn hcheapest) htie
    (h.isCanonical_of_image htrack hdetection hn hcanonical)
  rw [heq, hmatched]

/-! ### One best matching -/

/-- Where at most one pair is gated one matching alone is best. -/
theorem CostMatrix.hasOneBest_of_one_gated (hfinite : Scalar.isFinite gate = true)
    (hc : IsNonneg c gate (whole c)) {p : ℕ × ℕ}
    (h : ∀ i < c.rows, ∀ j < c.cols, c.isGated gate i j = true → (i, j) = p) :
    c.HasOneBest gate := by
  obtain ⟨g, rfl⟩ := exists_of_isFinite (K := K) hfinite
  have hm := isCheapest_solved (Solver.isExact_cheapest (α := α)) (ascending_whole c) hc
  have hsubset : ∀ n, IsLargest c (ofField g) (whole c) n → n ⊆ {p} := fun n hn =>
    hn.isMatching.subset_singleton fun i hi j hj =>
      h i (List.mem_range.mp hi) j (List.mem_range.mp hj)
  have hnonneg := hc.total_nonneg hm.isLargest.isMatching
  refine ⟨_, ⟨hm.isLargest, _, hm, (tie_self _).le_max hnonneg hnonneg⟩, ?_⟩
  intro n hn
  have hcard := hn.1.card_eq hm.isLargest
  rcases Finset.subset_singleton_iff.mp (hsubset n hn.1) with rfl | rfl
  · exact (Finset.card_eq_zero.mp hcard.symm).symm
  · exact (Finset.eq_of_subset_of_card_le (hsubset _ hm.isLargest) hcard.le).symm

theorem toFinset_matched_of_only {g : K} (hs : solver.IsExact)
    (hc : IsNonneg c (ofField g) (whole c)) (hm : IsCheapest c (ofField g) (whole c) m)
    (honly : ∀ n, IsLargest c (ofField g) (whole c) n → Tie (c.total n) (c.total m) → n = m) :
    (blockwise solver c (ofField g)).matched.toFinset = m := by
  refine toFinset_matched_eq hs hc hm ?_ ⟨hm.isLargest, tie_self _, ?_⟩
  · intro n hn htie
    rw [honly n hn htie]
  · intro n hn htie
    exact Or.inl (honly n hn htie)

/-- New numbers for all tracks and detections do not change what is matched. -/
theorem IsEmbedded.toFinset_matched_image (h : IsEmbedded r c c')
    (honto : c'.places ⊆ c.places.image r.pair) (hs : solver.IsExact)
    (hfinite : Scalar.isFinite gate = true) (hc' : IsNonneg c' gate (whole c'))
    (hone : c.HasOneBest gate) :
    (blockwise solver c' gate).matched.toFinset =
      (blockwise solver c gate).matched.toFinset.image r.pair := by
  obtain ⟨g, rfl⟩ := exists_of_isFinite (K := K) hfinite
  have hc := h.isNonneg hc'
  obtain ⟨m, hm⟩ : ∃ m, IsCheapest c (ofField g) (whole c) m :=
    ⟨_, isCheapest_solved hs (ascending_whole c) hc⟩
  have hnonneg := hc.total_nonneg hm.isLargest.isMatching
  -- the cheapest matching itself is the one that ties with the least total
  have honly : ∀ n, IsLargest c (ofField g) (whole c) n → Tie (c.total n) (c.total m) → n = m := by
    intro n hn htie
    refine hone.unique ⟨hn, m, hm, ?_⟩ ⟨hm.isLargest, m, hm, ?_⟩
    · exact htie.le_max (hc.total_nonneg hn.isMatching) hnonneg
    · exact (tie_self _).le_max hnonneg hnonneg
  rw [toFinset_matched_of_only hs hc hm honly]
  refine toFinset_matched_of_only hs hc' (h.isCheapest_image honto hm) ?_
  intro n' hn' htie
  obtain ⟨n, hn, rfl⟩ :=
    h.exists_matching hn'.isMatching (hn'.isMatching.subset_places.trans honto)
  rw [h.total_image hn, h.total_image hm.isLargest.isMatching] at htie
  rw [honly n (h.isLargest_of_image hn hn') htie]

end ObstacleTracking
