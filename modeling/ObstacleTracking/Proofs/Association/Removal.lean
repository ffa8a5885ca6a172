import ObstacleTracking.Proofs.Association.Embedding
import ObstacleTracking.Proofs.Association.Places

/-!
# Matrices with one track less

A matrix without the row of a track is embedded in it. If the track was left over, the other tracks
keep their detections, up to the shift of the numbers.
-/

namespace ObstacleTracking

open Block Assignment

/-- The numbers of the tracks when one of them is left out. -/
def Renumbering.skipTrack (i : ℕ) : Renumbering :=
  ⟨skip i, id, (skip_strictMono i).injective, Function.injective_id⟩

namespace CostMatrix

variable {α : Type}

/-- The matrix without a row. -/
def eraseRow (c : CostMatrix α) (i : ℕ) : CostMatrix α :=
  { c with table := (c.table.toList.eraseIdx i).toArray }

theorem rows_eraseRow {c : CostMatrix α} {i : ℕ} (hi : i < c.rows) :
    (c.eraseRow i).rows = c.rows - 1 := by
  have hlt : i < c.table.toList.length := hi
  show ((c.table.toList.eraseIdx i).toArray).size = c.table.size - 1
  rw [List.size_toArray, List.length_eraseIdx, if_pos hlt, Array.length_toList]

theorem mem_places_eraseRow {c : CostMatrix α} {i : ℕ} (hi : i < c.rows) {p : ℕ × ℕ}
    (hp : p ∈ c.places) (hne : p.1 ≠ i) :
    p ∈ (c.eraseRow i).places.image (Renumbering.skipTrack i).pair := by
  obtain ⟨htrack, hdetection⟩ := Finset.mem_product.mp hp
  obtain ⟨t, heq⟩ := exists_skip_eq hne
  have hlt : t < (c.eraseRow i).rows := by
    have hskip := Finset.mem_range.mp htrack
    rw [← heq] at hskip
    rw [rows_eraseRow hi]
    unfold skip at hskip
    split at hskip <;> omega
  refine Finset.mem_image.mpr ⟨(t, p.2), ?_, Prod.ext heq rfl⟩
  exact Finset.mem_product.mpr ⟨Finset.mem_range.mpr hlt, hdetection⟩

variable [Scalar α]

theorem entry_eraseRow (c : CostMatrix α) (i t d : ℕ) :
    (c.eraseRow i).entry t d = c.entry (skip i t) d := by
  have hrow : (c.table.toList.eraseIdx i).toArray[t]? = c.table[skip i t]? := by
    rw [List.getElem?_toArray, getElem?_eraseIdx_skip, Array.getElem?_toList]
  unfold entry eraseRow
  rw [hrow]

theorem isEmbedded_eraseRow {c : CostMatrix α} {i : ℕ} (hi : i < c.rows) :
    IsEmbedded (.skipTrack i) (c.eraseRow i) c := by
  constructor
  · intro t ht
    rw [rows_eraseRow hi] at ht
    show skip i t < c.rows
    unfold skip
    split <;> omega
  · exact fun _ hd => hd
  · intro t _ d _
    exact (entry_eraseRow c i t d).symm

end CostMatrix

/-! ### The same pairs -/

variable {K α : Type} [Field K] [LinearOrder K] [IsStrictOrderedRing K] [Scalar α]
  [ExactScalar K α] {solver : Solver α} {c : CostMatrix α} {gate : α}

/-- Without a track that was left over the other tracks keep their detections. -/
theorem matched_eraseRow (hs : solver.IsExact) (hfinite : Scalar.isFinite gate = true)
    (hc : IsNonneg c gate (whole c)) (hties : c.HasNoNearTies gate) {i : ℕ}
    (hi : i ∈ (blockwise solver c gate).unmatchedTracks) :
    (blockwise solver c gate).matched =
      (blockwise solver (c.eraseRow i) gate).matched.map fun p => (skip i p.1, p.2) := by
  obtain ⟨hlt, hunmatched⟩ := mem_unmatchedTracks_blockwise.mp hi
  have hwithin : (blockwise solver c gate).matched.toFinset ⊆
      (c.eraseRow i).places.image (Renumbering.skipTrack i).pair := by
    intro p hp
    exact CostMatrix.mem_places_eraseRow hlt ((isMatching_blockwise solver c gate).subset_places hp)
      (hunmatched p (List.mem_toFinset.mp hp))
  have hmatched := (CostMatrix.isEmbedded_eraseRow hlt).toFinset_matched_eq (skip_strictMono i)
    strictMono_id hs hfinite hc hties hwithin
  refine matched_ext (pairwise_matched_blockwise solver c gate) ?_ ?_
  · refine List.pairwise_map.mpr
      ((pairwise_matched_blockwise solver (c.eraseRow i) gate).imp ?_)
    intro p q hpq
    exact skip_strictMono i hpq
  · rw [hmatched]
    ext p
    simp only [Finset.mem_image, List.mem_toFinset, List.mem_map]
    rfl

theorem exists_unmatchedTracks_withGaps :
    ∃ i, i ∈ (blockwise (Solver.cheapest ExactNumber) CostMatrix.withGaps
      (.real 2)).unmatchedTracks := by
  by_contra hnone
  have hm := isMatching_blockwise (Solver.cheapest ExactNumber) CostMatrix.withGaps (.real 2)
  -- both tracks would have to take the first detection
  have hfirst : ∀ i < 2, (i, 0) ∈ (blockwise (Solver.cheapest ExactNumber) CostMatrix.withGaps
      (.real 2)).matched.toFinset := by
    intro i hi
    by_contra hfree
    refine hnone ⟨i, mem_unmatchedTracks_blockwise.mpr ⟨hi, ?_⟩⟩
    intro p hp heq
    have hp := List.mem_toFinset.mpr hp
    obtain ⟨t, d⟩ := p
    obtain rfl : t = i := heq
    have hdetection : d < 2 := List.mem_range.mp (hm.detection_mem _ hp)
    have hgated := hm.gated _ hp
    interval_cases d
    · exact hfree hp
    · interval_cases t <;> cases hgated
  have heq := hm.detection_inj _ (hfirst 0 (by decide)) _ (hfirst 1 (by decide)) rfl
  cases heq

end ObstacleTracking
