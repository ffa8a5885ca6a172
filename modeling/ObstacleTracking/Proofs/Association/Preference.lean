import Mathlib.Algebra.Order.BigOperators.Group.Finset
import Mathlib.Tactic.Linarith
import Mathlib.Tactic.NormNum
import ObstacleTracking.Proofs.Association.Feasibility

/-!
# Which matching is preferred

A matching of a block with as many pairs as possible is preferred to any with fewer, then one
whose total cost ties with the least, and then the one that comes first when the tracks are
compared in order: a matched track before an unmatched one, a lower detection before a higher.
-/

namespace ObstacleTracking

open Assignment ExactScalar

section Orders

/-- Tracks are compared in order; where two sets of pairs first differ, the first of them has the
lower detection, or the only one. -/
def Precedes (m m' : Finset (ℕ × ℕ)) : Prop :=
  ∃ t d, (∀ s < t, ∀ e, (s, e) ∈ m ↔ (s, e) ∈ m') ∧ (t, d) ∈ m ∧ ∀ e, (t, e) ∈ m' → d < e

theorem Precedes.asymm {m m' : Finset (ℕ × ℕ)} (h : Precedes m m') : ¬ Precedes m' m := by
  rintro ⟨t', d', hbelow', hmem', hlow'⟩
  obtain ⟨t, d, hbelow, hmem, hlow⟩ := h
  rcases Nat.lt_trichotomy t t' with hlt | heq | hgt
  · exact Nat.lt_irrefl d (hlow d ((hbelow' t hlt d).mpr hmem))
  · subst heq
    exact Nat.lt_asymm (hlow d' hmem') (hlow' d hmem)
  · exact Nat.lt_irrefl d' (hlow' d' ((hbelow t' hgt d').mpr hmem'))

variable {K : Type} [Field K] [LinearOrder K]

/-- Costs that differ by no more than a thousand-millionth of the larger, or of one. -/
def Tie (a b : K) : Prop := |a - b| ≤ 1 / 10 ^ 9 * max (max |a| |b|) 1

variable [IsStrictOrderedRing K]

theorem tie_self (a : K) : Tie a a := by
  unfold Tie
  rw [sub_self, abs_zero]
  positivity

theorem tie_iff_of_le {a b : K} (hb : 0 ≤ b) (hab : b ≤ a) :
    Tie a b ↔ a - b ≤ 1 / 10 ^ 9 * max a 1 := by
  unfold Tie
  rw [abs_of_nonneg (sub_nonneg.mpr hab), abs_of_nonneg (hb.trans hab), abs_of_nonneg hb,
    max_eq_left hab]

/-- What lies between a cost and one that ties with it ties as well. -/
theorem Tie.of_le {least a a' : K} (h : Tie a least) (h0 : 0 ≤ least) (hl : least ≤ a')
    (ha : a' ≤ a) : Tie a' least := by
  rw [tie_iff_of_le h0 (hl.trans ha)] at h
  rw [tie_iff_of_le h0 hl]
  rcases le_total a' 1 with h1 | h1
  · rw [max_eq_right h1]
    rcases le_total a 1 with h2 | h2
    · rw [max_eq_right h2] at h
      linarith
    · rw [max_eq_left h2] at h
      linarith
  · rw [max_eq_left h1]
    rw [max_eq_left (h1.trans ha)] at h
    linarith

theorem Tie.le_max {a b : K} (h : Tie a b) (ha : 0 ≤ a) (hb : 0 ≤ b) :
    |a - b| ≤ 1 / 10 ^ 9 * max (max a b) 1 := by
  unfold Tie at h
  rw [abs_of_nonneg ha, abs_of_nonneg hb] at h
  exact h

theorem Tie.add_right {a b : K} (h : Tie a b) (ha : 0 ≤ a) (hb : 0 ≤ b) {r : K} (hr : 0 ≤ r) :
    Tie (a + r) (b + r) := by
  have h := h.le_max ha hb
  unfold Tie
  rw [add_sub_add_right_eq_sub, abs_of_nonneg (add_nonneg ha hr), abs_of_nonneg (add_nonneg hb hr)]
  refine h.trans (mul_le_mul_of_nonneg_left ?_ (by positivity))
  exact max_le_max (max_le_max (le_add_of_nonneg_right hr) (le_add_of_nonneg_right hr)) le_rfl

end Orders

variable {K α : Type} [Field K] [LinearOrder K] [Scalar α] [ExactScalar K α]

/-! ### Totals -/

namespace CostMatrix

/-- The cost of a pair, if it is finite. -/
def cost (c : CostMatrix α) (p : ℕ × ℕ) : K := value (c.entry p.1 p.2)

def total (c : CostMatrix α) (m : Finset (ℕ × ℕ)) : K := ∑ p ∈ m, c.cost p

variable {c : CostMatrix α}

theorem entry_of_isGated {gate : α} {t d : ℕ} (h : c.isGated gate t d = true) :
    c.entry t d = ofField (c.cost (t, d)) := by
  unfold isGated passes at h
  exact (ofField_value (Bool.and_eq_true_iff.mp h).1).symm

theorem cost_le_of_isGated {g : K} {t d : ℕ} (h : c.isGated (ofField g) t d = true) :
    c.cost (t, d) ≤ g := by
  have hentry := entry_of_isGated h
  unfold isGated passes at h
  have hle := of_decide_eq_true (Bool.and_eq_true_iff.mp h).2
  rw [hentry, le_ofField] at hle
  exact hle

end CostMatrix

/-! ### Largest and cheapest matchings -/

namespace Block

/-- No matching of the block has more pairs. -/
structure IsLargest (c : CostMatrix α) (gate : α) (b : Block) (m : Finset (ℕ × ℕ)) : Prop where
  isMatching : IsMatching c gate b m
  card_le : ∀ m', IsMatching c gate b m' → m'.card ≤ m.card

/-- No matching of the block has more pairs, and none with as many costs less. -/
structure IsCheapest (c : CostMatrix α) (gate : α) (b : Block) (m : Finset (ℕ × ℕ)) : Prop where
  isLargest : IsLargest c gate b m
  total_le : ∀ m', IsLargest c gate b m' → c.total m ≤ c.total m'

/-- The first of the largest matchings whose total ties with the least. -/
structure IsCanonical (c : CostMatrix α) (gate : α) (b : Block) (least : K)
    (m : Finset (ℕ × ℕ)) : Prop where
  isLargest : IsLargest c gate b m
  tie : Tie (c.total m) least
  first : ∀ m', IsLargest c gate b m' → Tie (c.total m') least → m' = m ∨ Precedes m m'

/-- Gated pairs of the block have costs that are not negative. -/
def IsNonneg (c : CostMatrix α) (gate : α) (b : Block) : Prop :=
  ∀ t ∈ b.tracks, ∀ d ∈ b.detections, c.isGated gate t d = true → 0 ≤ c.entry t d

variable {c : CostMatrix α} {gate : α} {b b' : Block} {m m' : Finset (ℕ × ℕ)}

theorem IsLargest.card_eq (h : IsLargest c gate b m) (h' : IsLargest c gate b m') :
    m.card = m'.card :=
  le_antisymm (h'.card_le m h.isMatching) (h.card_le m' h'.isMatching)

theorem IsMatching.isLargest_of_card (h : IsMatching c gate b m) (h' : IsLargest c gate b m')
    (hcard : m'.card ≤ m.card) : IsLargest c gate b m where
  isMatching := h
  card_le m₀ h₀ := (h'.card_le m₀ h₀).trans hcard

theorem IsCanonical.unique {least : K} (h : IsCanonical c gate b least m)
    (h' : IsCanonical c gate b least m') : m = m' := by
  rcases h.first m' h'.isLargest h'.tie with heq | hlt
  · exact heq.symm
  · rcases h'.first m h.isLargest h.tie with heq | hgt
    · exact heq
    · exact absurd hgt hlt.asymm

theorem IsNonneg.mono (h : IsNonneg c gate b) (ht : b'.tracks ⊆ b.tracks)
    (hd : b'.detections ⊆ b.detections) : IsNonneg c gate b' :=
  fun t htm d hdm hg => h t (ht htm) d (hd hdm) hg

theorem IsNonneg.cost_nonneg (h : IsNonneg c gate b) (hm : IsMatching c gate b m) :
    ∀ p ∈ m, 0 ≤ c.cost p := by
  intro p hp
  have hg := hm.gated p hp
  have h0 := h p.1 (hm.track_mem p hp) p.2 (hm.detection_mem p hp) hg
  rw [CostMatrix.entry_of_isGated hg, zero_eq, le_ofField] at h0
  exact h0

variable [IsStrictOrderedRing K]

theorem IsNonneg.total_nonneg (h : IsNonneg c gate b) (hm : IsMatching c gate b m) :
    0 ≤ c.total m :=
  Finset.sum_nonneg (h.cost_nonneg hm)

theorem IsMatching.card_le_length (h : IsMatching c gate b m) : m.card ≤ b.tracks.length := by
  have hinj : Set.InjOn Prod.fst (m : Set (ℕ × ℕ)) :=
    fun p hp q hq heq => h.track_inj p hp q hq heq
  have hsub : m.image Prod.fst ⊆ b.tracks.toFinset := by
    intro t ht
    obtain ⟨p, hp, rfl⟩ := Finset.mem_image.mp ht
    exact List.mem_toFinset.mpr (h.track_mem p hp)
  rw [← Finset.card_image_of_injOn hinj]
  exact (Finset.card_le_card hsub).trans (List.toFinset_card_le b.tracks)

theorem IsMatching.total_le {g : K} (h : IsMatching c (ofField g) b m) :
    c.total m ≤ m.card * g := by
  rw [← nsmul_eq_mul]
  exact Finset.sum_le_card_nsmul m c.cost g fun p hp => CostMatrix.cost_le_of_isGated (h.gated p hp)

end Block

/-! ### Near ties -/

namespace CostMatrix

open Block

variable {c : CostMatrix α} {gate : α} {m n : Finset (ℕ × ℕ)}

/-- Any two largest matchings have totals that are equal or differ by more than a tie may. -/
def HasNoNearTies (c : CostMatrix α) (gate : α) : Prop :=
  ∀ m m', IsLargest c gate (whole c) m → IsLargest c gate (whole c) m' →
    c.total m = c.total m' ∨
      1 / 10 ^ 9 * max (max (c.total m) (c.total m')) 1 < |c.total m - c.total m'|

/-- Where all gated pairs cost the same there are no near ties. -/
theorem hasNoNearTies_of_const {x : α}
    (h : ∀ i < c.rows, ∀ j < c.cols, c.isGated gate i j = true → c.entry i j = x) :
    c.HasNoNearTies gate := by
  have htotal : ∀ m, IsLargest c gate (whole c) m → c.total m = m.card • value x := by
    intro m hm
    refine Finset.sum_eq_card_nsmul ?_
    intro p hp
    exact congrArg value (h p.1 (List.mem_range.mp (hm.isMatching.track_mem p hp)) p.2
      (List.mem_range.mp (hm.isMatching.detection_mem p hp)) (hm.isMatching.gated p hp))
  intro m m' hm hm'
  rw [htotal m hm, htotal m' hm', hm.card_eq hm']
  exact Or.inl rfl

/-- One largest matching alone has a total that ties with the least. -/
def HasOneBest (c : CostMatrix α) (gate : α) : Prop :=
  ∃! m, IsLargest c gate (whole c) m ∧ ∃ m₀, IsCheapest c gate (whole c) m₀ ∧
    |c.total m - c.total m₀| ≤ 1 / 10 ^ 9 * max (max (c.total m) (c.total m₀)) 1

variable [IsStrictOrderedRing K]

theorem HasNoNearTies.total_eq (h : c.HasNoNearTies gate)
    (hc : IsNonneg c gate (whole c)) (hm : IsLargest c gate (whole c) m)
    (hn : IsLargest c gate (whole c) n) (htie : Tie (c.total m) (c.total n)) :
    c.total m = c.total n := by
  rcases h m n hm hn with heq | hlt
  · exact heq
  · have hle := htie.le_max (hc.total_nonneg hm.isMatching) (hc.total_nonneg hn.isMatching)
    exact absurd hlt (not_lt_of_ge hle)

/-- Where all gated costs are natural numbers, and not too large, there are no near ties. -/
theorem hasNoNearTies_of_natural {g : K} (hg : 0 ≤ g) (hsmall : c.rows * g < 10 ^ 9)
    (hnatural : ∀ i < c.rows, ∀ j < c.cols, c.isGated (ofField g) i j = true →
      ∃ k : ℕ, c.cost (i, j) = k) : c.HasNoNearTies (ofField g) := by
  have htotal : ∀ m, IsLargest c (ofField g) (whole c) m →
      (∃ k : ℕ, c.total m = k) ∧ c.total m < 10 ^ 9 := by
    intro m hm
    have hcost : ∀ p ∈ m, ∃ k : ℕ, c.cost p = k := fun p hp =>
      hnatural p.1 (List.mem_range.mp (hm.isMatching.track_mem p hp)) p.2
        (List.mem_range.mp (hm.isMatching.detection_mem p hp)) (hm.isMatching.gated p hp)
    choose! natural hnatural using hcost
    constructor
    · refine ⟨∑ p ∈ m, natural p, ?_⟩
      rw [Nat.cast_sum]
      exact Finset.sum_congr rfl hnatural
    · have hcard : m.card ≤ c.rows := hm.isMatching.card_le_length.trans_eq List.length_range
      exact (hm.isMatching.total_le.trans
        (mul_le_mul_of_nonneg_right (Nat.cast_le.mpr hcard) hg)).trans_lt hsmall
  intro m m' hm hm'
  obtain ⟨⟨k, hk⟩, hlt⟩ := htotal m hm
  obtain ⟨⟨k', hk'⟩, hlt'⟩ := htotal m' hm'
  rcases eq_or_ne k k' with rfl | hne
  · exact Or.inl (hk.trans hk'.symm)
  · -- different natural numbers are further apart than what ties at this size
    right
    have hapart : (1 : K) ≤ |c.total m - c.total m'| := by
      rw [hk, hk']
      exact_mod_cast Int.one_le_abs (sub_ne_zero.mpr (Nat.cast_injective.ne hne))
    have hmax : max (max (c.total m) (c.total m')) 1 < 10 ^ 9 :=
      max_lt (max_lt hlt hlt') (by norm_num)
    refine lt_of_lt_of_le ?_ hapart
    rw [one_div, inv_mul_lt_one₀ (by positivity)]
    exact hmax

end CostMatrix

end ObstacleTracking
