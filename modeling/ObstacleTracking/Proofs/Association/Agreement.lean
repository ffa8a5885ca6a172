import ObstacleTracking.Proofs.Association.Blockwise
import ObstacleTracking.Proofs.Association.Canonical

/-!
# Blockwise and global assignments agree

A matching of the matrix is made of its parts in the connected blocks, and each part may be
exchanged for another matching of its block. So the parts of a largest matching are largest in
their blocks and the parts of a cheapest one are cheapest. Within a block a tie may cost more than
the least; if no two largest matchings of the matrix tie without being equal in cost, this cannot
happen, and the first matching of the matrix is made of the first ones of the blocks.
-/

namespace ObstacleTracking

open Block Assignment ExactScalar

section Parts

variable {α : Type} [Scalar α] {solver : Solver α} {c : CostMatrix α} {gate : α} {b : Block}
  {m n : Finset (ℕ × ℕ)}

/-! ### Parts of a matching -/

def inside (b : Block) (m : Finset (ℕ × ℕ)) : Finset (ℕ × ℕ) := m.filter fun p => p.1 ∈ b.tracks

def outside (b : Block) (m : Finset (ℕ × ℕ)) : Finset (ℕ × ℕ) := m.filter fun p => p.1 ∉ b.tracks

theorem inside_union_outside (b : Block) (m : Finset (ℕ × ℕ)) : inside b m ∪ outside b m = m :=
  Finset.filter_union_filter_not_eq _ m

theorem Block.IsMatching.exists_component (hm : IsMatching c gate (whole c) m) {p : ℕ × ℕ}
    (hp : p ∈ m) : ∃ b ∈ components c gate, p.1 ∈ b.tracks ∧ p.2 ∈ b.detections :=
  exists_mem_componentsOf (hm.track_mem p hp) (hm.detection_mem p hp) (hm.gated p hp)

theorem Block.IsMatching.inside (hm : IsMatching c gate (whole c) m)
    (hb : b ∈ components c gate) : IsMatching c gate b (inside b m) := by
  refine (hm.subset (Finset.filter_subset _ m)).of_mem ?_ ?_
  · intro p hp
    exact (Finset.mem_filter.mp hp).2
  · intro p hp
    obtain ⟨hp, htrack⟩ := Finset.mem_filter.mp hp
    obtain ⟨b', hb', htrack', hdetection⟩ := hm.exists_component hp
    rw [eq_of_track_mem hb hb' htrack htrack']
    exact hdetection

/-- The part of a matching in a connected block may be exchanged. -/
theorem Block.IsMatching.exchange (hm : IsMatching c gate (whole c) m)
    (hb : b ∈ components c gate) (hn : IsMatching c gate b n) :
    IsMatching c gate (whole c) (n ∪ outside b m) := by
  have hwhole : IsMatching c gate (whole c) n :=
    hn.of_mem (fun p hp => (tracks_sublist_of_mem_components hb).subset (hn.track_mem p hp))
      (fun p hp => (detections_sublist_of_mem_components hb).subset (hn.detection_mem p hp))
  refine hwhole.union (hm.subset (Finset.filter_subset _ m)) ?_ ?_
  · intro p hp q hq heq
    have htrack := hn.track_mem p hp
    rw [heq] at htrack
    exact (Finset.mem_filter.mp hq).2 htrack
  · intro p hp q hq heq
    obtain ⟨hq, hout⟩ := Finset.mem_filter.mp hq
    have hdetection := hn.detection_mem p hp
    rw [heq] at hdetection
    obtain ⟨b', hb', htrack', hdetection'⟩ := hm.exists_component hq
    rw [eq_of_detection_mem hb hb' hdetection hdetection'] at hout
    exact hout htrack'

theorem disjoint_outside (hn : IsMatching c gate b n) (m : Finset (ℕ × ℕ)) :
    Disjoint n (outside b m) := by
  refine Finset.disjoint_left.mpr ?_
  intro p hp hout
  exact (Finset.mem_filter.mp hout).2 (hn.track_mem p hp)

theorem card_exchange (hn : IsMatching c gate b n) (m : Finset (ℕ × ℕ)) :
    (n ∪ outside b m).card = n.card + (outside b m).card :=
  Finset.card_union_of_disjoint (disjoint_outside hn m)

/-! ### Sums over the blocks -/

theorem pairwiseDisjoint_components {f : Block → Finset (ℕ × ℕ)}
    (hf : ∀ b ∈ components c gate, IsMatching c gate b (f b)) :
    ((components c gate).toFinset : Set Block).PairwiseDisjoint f := by
  intro b hb b' hb' hne
  have hb := List.mem_toFinset.mp (Finset.mem_coe.mp hb)
  have hb' := List.mem_toFinset.mp (Finset.mem_coe.mp hb')
  refine Finset.disjoint_left.mpr ?_
  intro p hp hp'
  exact hne (eq_of_track_mem hb hb' ((hf b hb).track_mem p hp) ((hf b' hb').track_mem p hp'))

theorem biUnion_inside (hm : IsMatching c gate (whole c) m) :
    (components c gate).toFinset.biUnion (fun b => inside b m) = m := by
  ext p
  rw [Finset.mem_biUnion]
  constructor
  · intro h
    obtain ⟨b, -, hp⟩ := h
    exact (Finset.mem_filter.mp hp).1
  · intro hp
    obtain ⟨b, hb, htrack, -⟩ := hm.exists_component hp
    exact ⟨b, List.mem_toFinset.mpr hb, Finset.mem_filter.mpr ⟨hp, htrack⟩⟩

theorem biUnion_pairsOfComponent (solver : Solver α) (c : CostMatrix α) (gate : α) :
    (components c gate).toFinset.biUnion (fun b => (pairsOfComponent solver c gate b).toFinset) =
      (blockwise solver c gate).matched.toFinset := by
  ext p
  simp only [Finset.mem_biUnion, List.mem_toFinset, mem_matched_blockwise]

theorem inside_blockwise (solver : Solver α) (hb : b ∈ components c gate) :
    inside b (blockwise solver c gate).matched.toFinset =
      (pairsOfComponent solver c gate b).toFinset := by
  ext p
  rw [inside, Finset.mem_filter, List.mem_toFinset, List.mem_toFinset, mem_matched_blockwise]
  constructor
  · intro h
    obtain ⟨⟨b', hb', hp⟩, htrack⟩ := h
    have htrack' := (isMatching_pairsOfComponent solver hb').track_mem p (List.mem_toFinset.mpr hp)
    rw [eq_of_track_mem hb hb' htrack htrack']
    exact hp
  · intro hp
    exact ⟨⟨b, hb, hp⟩,
      (isMatching_pairsOfComponent solver hb).track_mem p (List.mem_toFinset.mpr hp)⟩

end Parts

variable {K α : Type} [Field K] [LinearOrder K] [Scalar α] [ExactScalar K α]
  {solver : Solver α} {c : CostMatrix α} {gate : α} {g : K} {b : Block} {m n : Finset (ℕ × ℕ)}

/-! ### Parts of the best matchings -/

theorem total_exchange (hn : IsMatching c gate b n) (m : Finset (ℕ × ℕ)) :
    c.total (n ∪ outside b m) = c.total n + c.total (outside b m) :=
  Finset.sum_union (disjoint_outside hn m)

theorem total_inside_add_outside (hm : IsMatching c gate (whole c) m)
    (hb : b ∈ components c gate) :
    c.total (inside b m) + c.total (outside b m) = c.total m := by
  rw [← total_exchange (hm.inside hb), inside_union_outside]

theorem Block.IsLargest.inside (hm : IsLargest c gate (whole c) m) (hb : b ∈ components c gate) :
    IsLargest c gate b (inside b m) := by
  have hpart := hm.isMatching.inside hb
  refine ⟨hpart, ?_⟩
  intro n hn
  have hle := hm.card_le _ (hm.isMatching.exchange hb hn)
  rw [card_exchange hn] at hle
  have hcard := card_exchange hpart m
  rw [inside_union_outside] at hcard
  omega

theorem Block.IsLargest.exchange (hm : IsLargest c gate (whole c) m) (hb : b ∈ components c gate)
    (hn : IsLargest c gate b n) : IsLargest c gate (whole c) (n ∪ outside b m) := by
  refine (hm.isMatching.exchange hb hn.isMatching).isLargest_of_card hm ?_
  have hcard := card_exchange (hm.isMatching.inside hb) m
  rw [inside_union_outside] at hcard
  rw [hcard, card_exchange hn.isMatching, (hm.inside hb).card_eq hn]

variable [IsStrictOrderedRing K]

theorem Block.IsCheapest.inside (hm : IsCheapest c gate (whole c) m)
    (hb : b ∈ components c gate) : IsCheapest c gate b (inside b m) := by
  refine ⟨hm.isLargest.inside hb, ?_⟩
  intro n hn
  have hle := hm.total_le _ (hm.isLargest.exchange hb hn)
  rw [total_exchange hn.isMatching, ← total_inside_add_outside hm.isLargest.isMatching hb] at hle
  exact le_of_add_le_add_right hle

/-! ### The blocks of the blockwise assignment -/

theorem Block.isNonneg_of_mem_components (hc : IsNonneg c gate (whole c))
    (hb : b ∈ components c gate) : IsNonneg c gate b :=
  hc.mono (tracks_sublist_of_mem_components hb).subset
    (detections_sublist_of_mem_components hb).subset

omit [IsStrictOrderedRing K] in
/-- Where one pair alone is gated it is matched. -/
theorem eq_singleton_of_isLargest {t d : ℕ} (ht : t ∈ b.tracks) (hd : d ∈ b.detections)
    (hgated : c.isGated gate t d = true)
    (honly : ∀ i ∈ b.tracks, ∀ j ∈ b.detections, c.isGated gate i j = true → (i, j) = (t, d))
    (hm : IsLargest c gate b m) : m = {(t, d)} :=
  Finset.eq_of_subset_of_card_le (hm.isMatching.subset_singleton honly)
    (hm.card_le _ (.singleton ht hd hgated))

omit [IsStrictOrderedRing K] in
theorem eq_singleton_of_isLargest_pair {t d : ℕ} (hgated : c.isGated gate t d = true)
    (hm : IsLargest c gate ⟨[t], [d]⟩ m) : m = {(t, d)} := by
  refine eq_singleton_of_isLargest (List.mem_singleton_self t) (List.mem_singleton_self d) hgated
    ?_ hm
  intro i hi j hj _
  exact Prod.ext (List.mem_singleton.mp hi) (List.mem_singleton.mp hj)

theorem isCanonical_pairsOfComponent (hs : solver.IsExact) (hc : IsNonneg c (ofField g) (whole c))
    (hb : b ∈ components c (ofField g)) {m₀ : Finset (ℕ × ℕ)}
    (hm₀ : IsCheapest c (ofField g) b m₀) :
    IsCanonical c (ofField g) b (c.total m₀) (pairsOfComponent solver c (ofField g) b).toFinset := by
  rcases pairsOfComponent_cases solver hb with ⟨t, d, rfl, hgated, heq⟩ | heq
  · have hpair : [(t, d)].toFinset = m₀ := (eq_singleton_of_isLargest_pair hgated hm₀.isLargest).symm
    rw [heq, hpair]
    refine ⟨hm₀.isLargest, tie_self _, ?_⟩
    intro m hm _
    rw [eq_singleton_of_isLargest_pair hgated hm, eq_singleton_of_isLargest_pair hgated hm₀.isLargest]
    exact Or.inl rfl
  · rw [heq]
    exact (isCanonical_pairsOf hs (ascending_of_mem_components hb)
      (isNonneg_of_mem_components hc hb) hm₀).2

/-- The matched pairs of all blocks are as many as possible, and in each block the part of a
cheapest matching decides what ties. -/
theorem isLargest_blockwise (hs : solver.IsExact) (hc : IsNonneg c (ofField g) (whole c))
    {m₀ : Finset (ℕ × ℕ)} (hm₀ : IsCheapest c (ofField g) (whole c) m₀) :
    IsLargest c (ofField g) (whole c) (blockwise solver c (ofField g)).matched.toFinset := by
  refine (isMatching_blockwise solver c (ofField g)).isLargest_of_card hm₀.isLargest ?_
  have hm := hm₀.isLargest.isMatching
  rw [← biUnion_inside hm, ← biUnion_pairsOfComponent,
    Finset.card_biUnion (pairwiseDisjoint_components fun b hb => hm.inside hb),
    Finset.card_biUnion (pairwiseDisjoint_components fun b hb =>
      isMatching_pairsOfComponent solver hb)]
  refine Finset.sum_le_sum ?_
  intro b hb
  have hb := List.mem_toFinset.mp hb
  exact (isCanonical_pairsOfComponent hs hc hb (hm₀.inside hb)).isLargest.card_le _
    (hm.inside hb)

theorem matched_ext {l l' : List (ℕ × ℕ)} (h : l.Pairwise fun p q => p.1 < q.1)
    (h' : l'.Pairwise fun p q => p.1 < q.1) (heq : l.toFinset = l'.toFinset) : l = l' := by
  have hperm := List.perm_of_nodup_nodup_toFinset_eq (nodup_of_pairwise_fst h)
    (nodup_of_pairwise_fst h') heq
  exact hperm.eq_of_pairwise (fun p q _ _ hlt hgt => absurd hgt (Nat.lt_asymm hlt)) h h'

variable (K) in
include K in
/-- If one pair alone is gated the assignment of the matrix is that pair. -/
theorem blockwise_eq_singleton (hs : solver.IsExact) (hfinite : Scalar.isFinite gate = true)
    {t d : ℕ} (ht : t < c.rows) (hd : d < c.cols) (hgated : c.isGated gate t d = true)
    (hnonneg : 0 ≤ c.entry t d)
    (honly : ∀ i < c.rows, ∀ j < c.cols, c.isGated gate i j = true → (i, j) = (t, d)) :
    blockwise solver c gate = ofMatches (whole c) [(t, d)] := by
  obtain ⟨g, rfl⟩ := exists_of_isFinite (K := K) hfinite
  have honly : ∀ i ∈ (whole c).tracks, ∀ j ∈ (whole c).detections,
      c.isGated (ofField g) i j = true → (i, j) = (t, d) :=
    fun i hi j hj => honly i (List.mem_range.mp hi) j (List.mem_range.mp hj)
  have hc : IsNonneg c (ofField g) (whole c) := by
    intro i hi j hj hij
    obtain ⟨rfl, rfl⟩ := Prod.mk.inj (honly i hi j hj hij)
    exact hnonneg
  have hlargest := isLargest_blockwise hs hc (isCheapest_solved hs (ascending_whole c) hc)
  have hmatched := eq_singleton_of_isLargest (List.mem_range.mpr ht) (List.mem_range.mpr hd) hgated
    honly hlargest
  have hlist : (blockwise solver c (ofField g)).matched = [(t, d)] :=
    matched_ext (pairwise_matched_blockwise solver c (ofField g)) (List.pairwise_singleton _ _)
      hmatched
  exact congrArg (ofMatches (whole c)) hlist

/-! ### Agreement -/

/-- If ties are equal in cost, the blockwise assignment is as cheap as any with as many pairs. -/
theorem isCheapest_blockwise (hs : solver.IsExact) (hc : IsNonneg c (ofField g) (whole c))
    {m₀ : Finset (ℕ × ℕ)} (hm₀ : IsCheapest c (ofField g) (whole c) m₀)
    (htie : ∀ m, IsLargest c (ofField g) (whole c) m → Tie (c.total m) (c.total m₀) →
      c.total m = c.total m₀) :
    IsCheapest c (ofField g) (whole c) (blockwise solver c (ofField g)).matched.toFinset := by
  have hlargest := isLargest_blockwise hs hc hm₀
  have hm := hm₀.isLargest.isMatching
  have hblock : ∀ b ∈ components c (ofField g),
      c.total (pairsOfComponent solver c (ofField g) b).toFinset = c.total (inside b m₀) := by
    intro b hb
    have hcanonical := isCanonical_pairsOfComponent hs hc hb (hm₀.inside hb)
    have hrest : IsMatching c (ofField g) (whole c) (outside b m₀) :=
      hm.subset (Finset.filter_subset _ m₀)
    have hbc := isNonneg_of_mem_components hc hb
    have hexchange := htie _ (hm₀.isLargest.exchange hb hcanonical.isLargest) (by
      rw [total_exchange hcanonical.isLargest.isMatching, ← total_inside_add_outside hm hb]
      exact hcanonical.tie.add_right (hbc.total_nonneg hcanonical.isLargest.isMatching)
        (hbc.total_nonneg (hm.inside hb)) (hc.total_nonneg hrest))
    rw [total_exchange hcanonical.isLargest.isMatching, ← total_inside_add_outside hm hb]
      at hexchange
    exact add_right_cancel hexchange
  have htotal : c.total (blockwise solver c (ofField g)).matched.toFinset = c.total m₀ := by
    rw [← biUnion_pairsOfComponent, ← biUnion_inside hm]
    unfold CostMatrix.total at hblock ⊢
    rw [Finset.sum_biUnion (pairwiseDisjoint_components fun b hb => hm.inside hb),
      Finset.sum_biUnion (pairwiseDisjoint_components fun b hb =>
        isMatching_pairsOfComponent solver hb)]
    exact Finset.sum_congr rfl fun b hb => hblock b (List.mem_toFinset.mp hb)
  refine ⟨hlargest, ?_⟩
  intro m hm
  rw [htotal]
  exact hm₀.total_le m hm

/-- No cheapest matching of the matrix comes before the blockwise assignment. -/
theorem not_precedes_blockwise (hs : solver.IsExact) (hc : IsNonneg c (ofField g) (whole c))
    (hm : IsCheapest c (ofField g) (whole c) m) :
    ¬ Precedes m (blockwise solver c (ofField g)).matched.toFinset := by
  intro h
  obtain ⟨t, d, hbelow, hmem, hlow⟩ := h
  obtain ⟨b, hb, htrack, -⟩ := hm.isLargest.isMatching.exists_component hmem
  have hpart : Precedes (inside b m) (pairsOfComponent solver c (ofField g) b).toFinset := by
    rw [← inside_blockwise solver hb]
    refine ⟨t, d, ?_, Finset.mem_filter.mpr ⟨hmem, htrack⟩, ?_⟩
    · intro s hs e
      rw [inside, inside, Finset.mem_filter, Finset.mem_filter, hbelow s hs e]
    · intro e he
      exact hlow e (Finset.mem_filter.mp he).1
  have hcanonical := isCanonical_pairsOfComponent hs hc hb (hm.inside hb)
  rcases hcanonical.first _ (hm.inside hb).isLargest (tie_self _) with heq | hafter
  · rw [heq] at hpart
    exact hpart.asymm hpart
  · exact hpart.asymm hafter

/-- If ties are equal in cost, the canonical matching of the matrix is the blockwise one. -/
theorem toFinset_matched_eq (hs : solver.IsExact) (hc : IsNonneg c (ofField g) (whole c))
    {m₀ : Finset (ℕ × ℕ)} (hm₀ : IsCheapest c (ofField g) (whole c) m₀)
    (htie : ∀ m, IsLargest c (ofField g) (whole c) m → Tie (c.total m) (c.total m₀) →
      c.total m = c.total m₀)
    (hm : IsCanonical c (ofField g) (whole c) (c.total m₀) m) :
    (blockwise solver c (ofField g)).matched.toFinset = m := by
  have hcheapest := isCheapest_blockwise hs hc hm₀ htie
  have htotal := le_antisymm (hcheapest.total_le _ hm₀.isLargest)
    (hm₀.total_le _ hcheapest.isLargest)
  rcases hm.first _ hcheapest.isLargest (htotal ▸ tie_self _) with heq | hprecedes
  · exact heq
  · refine absurd hprecedes (not_precedes_blockwise hs hc ⟨hm.isLargest, ?_⟩)
    intro n hn
    rw [htie _ hm.isLargest hm.tie]
    exact hm₀.total_le n hn

/-- Both assignments have the same number of pairs, and they are the same if any two largest
matchings have totals that are equal or differ by more than a tie may. -/
theorem blockwise_eq_global (hs : solver.IsExact) (c : CostMatrix α)
    (hfinite : Scalar.isFinite gate = true) (hpos : 0 < gate) (hc : IsNonneg c gate (whole c)) :
    (blockwise solver c gate).matched.length = (global solver c gate).matched.length ∧
      ((∀ m m', IsLargest c gate (whole c) m → IsLargest c gate (whole c) m' →
          c.total m = c.total m' ∨
            1 / 10 ^ 9 * max (max (c.total m) (c.total m')) 1 < |c.total m - c.total m'|) →
        blockwise solver c gate = global solver c gate) := by
  obtain ⟨g, -, rfl⟩ := exists_pos hfinite hpos
  have hb := ascending_whole c
  obtain ⟨m₀, hm₀⟩ : ∃ m₀, IsCheapest c (ofField g) (whole c) m₀ := ⟨_, isCheapest_solved hs hb hc⟩
  have hblockwise := isLargest_blockwise hs hc hm₀
  have hglobal : IsCanonical c (ofField g) (whole c) (c.total m₀)
      (global solver c (ofField g)).matched.toFinset :=
    (isCanonical_pairsOf hs hb hc hm₀).2
  have hpairwise : (global solver c (ofField g)).matched.Pairwise fun p q => p.1 < q.1 :=
    pairwise_pairsOf solver hb.tracks
  constructor
  · rw [← List.toFinset_card_of_nodup (nodup_matched_blockwise solver c (ofField g)),
      ← List.toFinset_card_of_nodup (nodup_of_pairwise_fst hpairwise)]
    exact hblockwise.card_eq hglobal.isLargest
  · intro hgap
    have htie : ∀ m, IsLargest c (ofField g) (whole c) m → Tie (c.total m) (c.total m₀) →
        c.total m = c.total m₀ := by
      intro m hm h
      rcases hgap m m₀ hm hm₀.isLargest with heq | hlt
      · exact heq
      · have hle := h.le_max (hc.total_nonneg hm.isMatching)
          (hc.total_nonneg hm₀.isLargest.isMatching)
        exact absurd hlt (not_lt_of_ge hle)
    have hmatched := toFinset_matched_eq hs hc hm₀ htie hglobal
    have hlist := matched_ext (pairwise_matched_blockwise solver c (ofField g)) hpairwise hmatched
    exact congrArg (ofMatches (whole c)) hlist

/-- Costs of the even tracks and detections among each other, and of the odd ones. The even ones
have two largest matchings that tie. -/
noncomputable def CostMatrix.twoBlocks : CostMatrix ExactNumber :=
  let whole : ℕ → ExactNumber := fun k => .real k
  ⟨4, #[#[whole 1, .infinite false, whole 3, .notNumber],
    #[whole 5, whole 2, .notNumber, whole 4],
    #[whole 2, .notNumber, whole 4, .infinite false],
    #[.infinite false, whole 3, whole 6, whole 1]]⟩

theorem CostMatrix.cost_twoBlocks {i j : ℕ} (hi : i < 4) (hj : j < 4)
    (hgated : twoBlocks.isGated (.real 4) i j = true) :
    0 ≤ twoBlocks.entry i j ∧ ∃ k : ℕ, twoBlocks.cost (i, j) = (k : ℝ) := by
  have hnatural : ∀ k : ℕ, twoBlocks.entry i j = .real k →
      0 ≤ twoBlocks.entry i j ∧ ∃ k : ℕ, twoBlocks.cost (i, j) = (k : ℝ) := by
    intro k hk
    have hcost : twoBlocks.cost (i, j) = (k : ℝ) := congrArg value hk
    rw [hk]
    exact ⟨Nat.cast_nonneg (α := ℝ) k, k, hcost⟩
  interval_cases i <;> interval_cases j
  · exact hnatural 1 rfl
  · cases hgated
  · exact hnatural 3 rfl
  · cases hgated
  · exact hnatural 5 rfl
  · exact hnatural 2 rfl
  · cases hgated
  · exact hnatural 4 rfl
  · exact hnatural 2 rfl
  · cases hgated
  · exact hnatural 4 rfl
  · cases hgated
  · cases hgated
  · exact hnatural 3 rfl
  · exact hnatural 6 rfl
  · exact hnatural 1 rfl

theorem blockwise_eq_global_twoBlocks :
    blockwise (Solver.cheapest ExactNumber) CostMatrix.twoBlocks (.real 4) =
      global (Solver.cheapest ExactNumber) CostMatrix.twoBlocks (.real 4) := by
  have hnonneg : IsNonneg CostMatrix.twoBlocks (.real 4) (whole CostMatrix.twoBlocks) :=
    fun i hi j hj hgated =>
      (CostMatrix.cost_twoBlocks (List.mem_range.mp hi) (List.mem_range.mp hj) hgated).1
  have hties : CostMatrix.twoBlocks.HasNoNearTies (K := ℝ) (.real 4) := by
    refine CostMatrix.hasNoNearTies_of_natural (g := (4 : ℝ)) zero_le_four ?_ ?_
    · show ((4 : ℕ) : ℝ) * 4 < 10 ^ 9
      norm_num
    · intro i hi j hj hgated
      exact (CostMatrix.cost_twoBlocks hi hj hgated).2
  exact (blockwise_eq_global Solver.isExact_cheapest CostMatrix.twoBlocks rfl
    (zero_lt_four (α := ℝ)) hnonneg).2 hties

end ObstacleTracking
