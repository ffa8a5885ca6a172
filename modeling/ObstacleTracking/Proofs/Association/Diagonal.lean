import ObstacleTracking.Proofs.Association.Agreement

/-!
# Costs that are least on the diagonal

If track and detection of every place have a gated pair, all of one cost, and no pair costs less,
then every track is matched to the detection of its own place. What ties with that comes later.
-/

namespace ObstacleTracking

open Block Assignment ExactScalar

/-! ### The diagonal -/

/-- The pairs of the first `n` places with themselves. -/
def diagonal (n : ℕ) : Finset (ℕ × ℕ) := (Finset.range n).image fun i => (i, i)

theorem mem_diagonal {n : ℕ} {p : ℕ × ℕ} : p ∈ diagonal n ↔ p.1 < n ∧ p.2 = p.1 := by
  unfold diagonal
  rw [Finset.mem_image]
  constructor
  · intro h
    obtain ⟨i, hi, rfl⟩ := h
    exact ⟨Finset.mem_range.mp hi, rfl⟩
  · intro h
    exact ⟨p.1, Finset.mem_range.mpr h.1, Prod.ext rfl h.2.symm⟩

theorem card_diagonal (n : ℕ) : (diagonal n).card = n := by
  unfold diagonal
  rw [Finset.card_image_of_injective _ fun i j h => congrArg Prod.fst h, Finset.card_range]

section Matchings

variable {α : Type} [Scalar α] {c : CostMatrix α} {gate : α} {n : ℕ} {m : Finset (ℕ × ℕ)}

theorem eq_diagonal (hrows : c.rows = n) (hm : IsMatching c gate (whole c) m)
    (hself : ∀ t < n, (t, t) ∈ m) : m = diagonal n := by
  refine Finset.Subset.antisymm ?_ ?_
  · intro p hp
    have hlt : p.1 < n := by
      rw [← hrows]
      exact List.mem_range.mp (hm.track_mem p hp)
    have heq := hm.track_inj p hp _ (hself p.1 hlt) rfl
    exact mem_diagonal.mpr ⟨hlt, congrArg Prod.snd heq⟩
  · intro p hp
    obtain ⟨hlt, heq⟩ := mem_diagonal.mp hp
    rw [show p = (p.1, p.1) from Prod.ext rfl heq]
    exact hself p.1 hlt

/-- The diagonal comes before any other matching. -/
theorem diagonal_precedes (hrows : c.rows = n) (hm : IsMatching c gate (whole c) m)
    (hne : m ≠ diagonal n) : Precedes (diagonal n) m := by
  have hmiss : ∃ t, t < n ∧ (t, t) ∉ m := by
    by_contra hall
    refine hne (eq_diagonal hrows hm ?_)
    intro t ht
    by_contra hnot
    exact hall ⟨t, ht, hnot⟩
  classical
  -- the first track that is not matched to its own place
  obtain ⟨hlt, hnot⟩ := Nat.find_spec hmiss
  have hself : ∀ s < Nat.find hmiss, (s, s) ∈ m := by
    intro s hs
    by_contra hnot'
    exact Nat.find_min hmiss hs ⟨hs.trans hlt, hnot'⟩
  refine ⟨Nat.find hmiss, Nat.find hmiss, ?_, mem_diagonal.mpr ⟨hlt, rfl⟩, ?_⟩
  · intro s hs e
    rw [mem_diagonal]
    constructor
    · intro h
      have heq : e = s := h.2
      rw [heq]
      exact hself s hs
    · intro h
      have heq := hm.track_inj _ h _ (hself s hs) rfl
      exact ⟨hs.trans hlt, congrArg Prod.snd heq⟩
  · intro e he
    rcases Nat.lt_trichotomy (Nat.find hmiss) e with hlt' | heq | hgt
    · exact hlt'
    · rw [← heq] at he
      exact absurd he hnot
    · have heq := hm.detection_inj _ he _ (hself e hgt) rfl
      exact absurd (congrArg Prod.fst heq).symm hgt.ne

end Matchings

/-! ### The diagonal is cheapest -/

variable {K α : Type} [Field K] [LinearOrder K] [Scalar α] [ExactScalar K α]
  {solver : Solver α} {c : CostMatrix α} {g κ : K} {n : ℕ}

/-- All pairs of one place with itself cost the same and are gated, and no pair costs less. -/
structure IsLeastOnDiagonal (c : CostMatrix α) (g κ : K) (n : ℕ) : Prop where
  rows : c.rows = n
  cols : c.cols = n
  diagonal_eq : ∀ i < n, c.entry i i = ofField κ
  le_entry : ∀ i < n, ∀ j < n, ofField κ ≤ c.entry i j
  nonneg : 0 ≤ κ
  le_gate : κ ≤ g

namespace IsLeastOnDiagonal

variable (h : IsLeastOnDiagonal c g κ n)

include h

theorem isGated {i : ℕ} (hi : i < n) : c.isGated (ofField g : α) i i = true := by
  unfold CostMatrix.isGated CostMatrix.passes
  rw [h.diagonal_eq i hi, isFinite_ofField, Bool.true_and, decide_eq_true_iff, le_ofField]
  exact h.le_gate

theorem isMatching_diagonal : IsMatching c (ofField g : α) (whole c) (diagonal n) := by
  constructor
  · intro p hp
    obtain ⟨hlt, -⟩ := mem_diagonal.mp hp
    refine List.mem_range.mpr ?_
    rw [h.rows]
    exact hlt
  · intro p hp
    obtain ⟨hlt, heq⟩ := mem_diagonal.mp hp
    refine List.mem_range.mpr ?_
    rw [h.cols, heq]
    exact hlt
  · intro p hp
    obtain ⟨hlt, heq⟩ := mem_diagonal.mp hp
    rw [heq]
    exact h.isGated hlt
  · intro p hp q hq heq
    exact Prod.ext heq (by rw [(mem_diagonal.mp hp).2, (mem_diagonal.mp hq).2, heq])
  · intro p hp q hq heq
    rw [(mem_diagonal.mp hp).2, (mem_diagonal.mp hq).2] at heq
    exact Prod.ext heq (by rw [(mem_diagonal.mp hp).2, (mem_diagonal.mp hq).2, heq])

theorem le_cost {m : Finset (ℕ × ℕ)} (hm : IsMatching c (ofField g : α) (whole c) m) :
    ∀ p ∈ m, κ ≤ c.cost p := by
  intro p hp
  have hi := List.mem_range.mp (hm.track_mem p hp)
  have hj := List.mem_range.mp (hm.detection_mem p hp)
  rw [h.rows] at hi
  rw [h.cols] at hj
  have hle := h.le_entry p.1 hi p.2 hj
  rw [CostMatrix.entry_of_isGated (hm.gated p hp), le_ofField] at hle
  exact hle

theorem isNonneg : IsNonneg c (ofField g : α) (whole c) := by
  intro t ht d hd hgated
  have ht := List.mem_range.mp ht
  have hd := List.mem_range.mp hd
  rw [h.rows] at ht
  rw [h.cols] at hd
  have hle := h.le_entry t ht d hd
  rw [CostMatrix.entry_of_isGated hgated, le_ofField] at hle
  rw [CostMatrix.entry_of_isGated hgated, zero_eq, le_ofField]
  exact h.nonneg.trans hle

theorem isLargest_diagonal : IsLargest c (ofField g : α) (whole c) (diagonal n) := by
  refine ⟨h.isMatching_diagonal, ?_⟩
  intro m hm
  have hle := hm.card_le_length
  rw [show (whole c).tracks = List.range c.rows from rfl, List.length_range, h.rows] at hle
  rw [card_diagonal]
  exact hle

variable [IsStrictOrderedRing K]

theorem isCheapest_diagonal : IsCheapest c (ofField g : α) (whole c) (diagonal n) := by
  refine ⟨h.isLargest_diagonal, ?_⟩
  intro m hm
  have hcard := hm.card_eq h.isLargest_diagonal
  have hdiagonal : c.total (diagonal n) = (diagonal n).card • κ := by
    unfold CostMatrix.total
    refine Finset.sum_eq_card_nsmul ?_
    intro p hp
    obtain ⟨hlt, heq⟩ := mem_diagonal.mp hp
    unfold CostMatrix.cost
    rw [heq, h.diagonal_eq p.1 hlt, value_ofField]
  rw [hdiagonal, ← hcard]
  exact Finset.card_nsmul_le_sum m c.cost κ (h.le_cost hm.isMatching)

/-- Every track is matched to the detection of its own place. -/
theorem blockwise_eq (hs : solver.IsExact) :
    blockwise solver c (ofField g : α) = ⟨(List.range n).map fun i => (i, i), [], []⟩ := by
  have hlargest := isLargest_blockwise hs h.isNonneg h.isCheapest_diagonal
  have hset : (blockwise solver c (ofField g : α)).matched.toFinset = diagonal n := by
    by_contra hne
    exact not_precedes_blockwise hs h.isNonneg h.isCheapest_diagonal
      (diagonal_precedes h.rows hlargest.isMatching hne)
  have hmatched : (blockwise solver c (ofField g : α)).matched =
      (List.range n).map fun i => (i, i) := by
    refine matched_ext (pairwise_matched_blockwise solver c _) ?_ ?_
    · exact List.pairwise_map.mpr List.pairwise_lt_range
    · rw [hset]
      ext p
      rw [mem_diagonal, List.mem_toFinset, List.mem_map]
      constructor
      · intro hp
        exact ⟨p.1, List.mem_range.mpr hp.1, Prod.ext rfl hp.2.symm⟩
      · intro hp
        obtain ⟨i, hi, rfl⟩ := hp
        exact ⟨List.mem_range.mp hi, rfl⟩
  have heq : blockwise solver c (ofField g : α) =
      ofMatches (whole c) (blockwise solver c (ofField g : α)).matched := rfl
  rw [heq, hmatched]
  unfold ofMatches whole
  rw [h.rows, h.cols]
  simp

end IsLeastOnDiagonal

end ObstacleTracking
