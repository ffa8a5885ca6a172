import ObstacleTracking.Proofs.Association.Preference

/-!
# Choices of tracks

What one more choice does to a matching: which of two matchings comes first, how many pairs there
are, and what they cost. Sums of gated costs are sums in the field, whatever order they are taken
in.
-/

namespace ObstacleTracking

open Block Assignment ExactScalar

/-! ### Earlier choices -/

/-- A choice that is preferred: the lower detection, or a detection rather than none. -/
def Earlier (d d' : Option ℕ) : Prop := ∃ a, d = some a ∧ ∀ e, d' = some e → a < e

section Choices

variable {α : Type} [Scalar α] {c : CostMatrix α} {gate : α}

theorem pairwise_candidates {detections : List ℕ} (h : detections.Pairwise (· < ·)) (t : ℕ) :
    (candidates c gate t detections).Pairwise Earlier := by
  refine List.pairwise_append.mpr ⟨?_, List.pairwise_singleton _ _, ?_⟩
  · refine List.pairwise_map.mpr ((h.sublist List.filter_sublist).imp ?_)
    intro a e hlt
    refine ⟨a, rfl, ?_⟩
    intro e' he
    rw [← Option.some.inj he]
    exact hlt
  · intro d hd d' hd'
    obtain ⟨a, -, rfl⟩ := List.mem_map.mp hd
    rw [List.mem_singleton.mp hd']
    exact ⟨a, rfl, fun e he => nomatch he⟩

variable {t : ℕ} {m m' : Finset (ℕ × ℕ)} {d d' : Option ℕ}

theorem mem_withChoice_iff {p : ℕ × ℕ} :
    p ∈ withChoice t m d ↔ (∃ e, d = some e ∧ p = (t, e)) ∨ p ∈ m := by
  cases d with
  | none => simp [withChoice]
  | some e => simp [withChoice]

/-- The choice of the first track decides which of two matchings comes first. -/
theorem precedes_of_earlier (h : Earlier d d') (hm : ∀ p ∈ m, t < p.1) (hm' : ∀ p ∈ m', t < p.1) :
    Precedes (withChoice t m d) (withChoice t m' d') := by
  obtain ⟨a, rfl, hlow⟩ := h
  refine ⟨t, a, ?_, mem_withChoice_iff.mpr (Or.inl ⟨a, rfl, rfl⟩), ?_⟩
  · intro s hs e
    have hleft : (s, e) ∉ withChoice t m (some a) := by
      intro hmem
      rcases mem_withChoice_iff.mp hmem with ⟨e', -, heq⟩ | hmem
      · exact absurd (congrArg Prod.fst heq) (Nat.ne_of_lt hs)
      · exact Nat.lt_asymm hs (hm _ hmem)
    have hright : (s, e) ∉ withChoice t m' d' := by
      intro hmem
      rcases mem_withChoice_iff.mp hmem with ⟨e', -, heq⟩ | hmem
      · exact absurd (congrArg Prod.fst heq) (Nat.ne_of_lt hs)
      · exact Nat.lt_asymm hs (hm' _ hmem)
    exact ⟨fun hmem => absurd hmem hleft, fun hmem => absurd hmem hright⟩
  · intro e hmem
    rcases mem_withChoice_iff.mp hmem with ⟨e', rfl, heq⟩ | hmem
    · have he : e = e' := congrArg Prod.snd heq
      rw [he]
      exact hlow e' rfl
    · exact absurd (hm' _ hmem) (Nat.lt_irrefl t)

theorem Precedes.withChoice (h : Precedes m m') (hm : ∀ p ∈ m, t < p.1) :
    Precedes (withChoice t m d) (withChoice t m' d) := by
  obtain ⟨s, a, hbelow, hmem, hlow⟩ := h
  have hts : t < s := hm _ hmem
  refine ⟨s, a, ?_, mem_withChoice_iff.mpr (Or.inr hmem), ?_⟩
  · intro r hr e
    rw [mem_withChoice_iff, mem_withChoice_iff, hbelow r hr e]
  · intro e he
    rcases mem_withChoice_iff.mp he with ⟨e', -, heq⟩ | he
    · exact absurd (congrArg Prod.fst heq) (Nat.ne_of_gt hts)
    · exact hlow e he

end Choices

/-! ### Totals -/

namespace Assignment

variable {K α : Type} [Field K] [LinearOrder K] [Scalar α] [ExactScalar K α] {c : CostMatrix α}

def choiceCount (d : Option ℕ) : ℕ := d.elim 0 fun _ => 1

def choiceCost (c : CostMatrix α) (t : ℕ) (d : Option ℕ) : K := d.elim 0 fun e => c.cost (t, e)

/-- A total in the field as a total of scalars. -/
def Total.ofField (total : Total K) : Total α := ⟨total.count, ExactScalar.ofField total.cost⟩

/-- The total in the field after a track has chosen. -/
def Total.after (c : CostMatrix α) (total : Total K) (t : ℕ) (d : Option ℕ) : Total K :=
  ⟨total.count + choiceCount d, total.cost + choiceCost c t d⟩

theorem choose_ofField {gate : α} {t : ℕ} {detections : List ℕ} {d : Option ℕ}
    (hd : d ∈ candidates c gate t detections) (total : Total K) :
    (total.ofField : Total α).choose c t d = (total.after c t d).ofField := by
  cases d with
  | none =>
    show (total.ofField : Total α) = ⟨total.count + 0, ExactScalar.ofField (total.cost + 0)⟩
    rw [Nat.add_zero, add_zero]
    rfl
  | some e =>
    show (⟨total.count + 1, ExactScalar.ofField total.cost + c.entry t e⟩ : Total α) =
      ⟨total.count + 1, ExactScalar.ofField (total.cost + c.cost (t, e))⟩
    rw [CostMatrix.entry_of_isGated (some_mem_candidates_iff.mp hd).2, add_ofField]

theorem card_withChoice {t : ℕ} {m : Finset (ℕ × ℕ)} (hm : ∀ e, (t, e) ∉ m) (d : Option ℕ) :
    (withChoice t m d).card = choiceCount d + m.card := by
  cases d with
  | none => exact (Nat.zero_add _).symm
  | some e => exact (Finset.card_insert_of_notMem (hm e)).trans (Nat.add_comm _ _)

theorem total_withChoice {t : ℕ} {m : Finset (ℕ × ℕ)} (hm : ∀ e, (t, e) ∉ m) (d : Option ℕ) :
    c.total (withChoice t m d) = choiceCost c t d + c.total m := by
  cases d with
  | none => exact (zero_add _).symm
  | some e => exact Finset.sum_insert (hm e)

theorem foldl_add_ofField {gate : α} {l : List (ℕ × ℕ)}
    (h : ∀ p ∈ l, c.isGated gate p.1 p.2 = true) (total : Total K) :
    l.foldl (Total.add c) total.ofField =
      Total.ofField ⟨total.count + l.length, total.cost + (l.map c.cost).sum⟩ := by
  induction l generalizing total with
  | nil =>
    rw [List.map_nil, List.sum_nil, add_zero]
    rfl
  | cons p l ih =>
    have hp : c.entry p.1 p.2 = ExactScalar.ofField (c.cost p) :=
      CostMatrix.entry_of_isGated (h p List.mem_cons_self)
    have hadd : Total.add c total.ofField p =
        Total.ofField ⟨total.count + 1, total.cost + c.cost p⟩ := by
      unfold Total.add Total.ofField
      rw [hp, add_ofField]
    rw [List.foldl_cons, hadd, ih fun q hq => h q (List.mem_cons_of_mem p hq), List.length_cons,
      List.map_cons, List.sum_cons, add_assoc total.cost, Nat.add_right_comm total.count]
    rfl

theorem ofPairs_eq {gate : α} {l : List (ℕ × ℕ)} (h : ∀ p ∈ l, c.isGated gate p.1 p.2 = true)
    (hn : l.Nodup) :
    Total.ofPairs c l = Total.ofField ⟨l.toFinset.card, c.total l.toFinset⟩ := by
  have hzero : (Total.zero : Total α) = Total.ofField ⟨0, 0⟩ := by
    unfold Total.zero Total.ofField
    rw [zero_eq]
  unfold Total.ofPairs CostMatrix.total
  rw [hzero, foldl_add_ofField h, List.toFinset_card_of_nodup hn, List.sum_toFinset c.cost hn,
    zero_add, zero_add]

variable [IsStrictOrderedRing K]

theorem ties_ofField (a b : K) :
    ties (ExactScalar.ofField a : α) (ExactScalar.ofField b) = true ↔ Tie a b := by
  unfold ties Tie
  rw [decide_eq_true_iff, sub_ofField, abs_ofField, abs_ofField, abs_ofField, one_eq,
    maxNum_ofField, maxNum_ofField, ratio_eq 1 (by norm_num), mul_ofField, le_ofField]
  norm_num

end Assignment

end ObstacleTracking
