import Mathlib.Tactic.IntervalCases
import ObstacleTracking.Proofs.Association.Choices
import ObstacleTracking.Proofs.Association.PaddedSolve
import ObstacleTracking.Proofs.Scalar.ExactNumber

/-!
# The canonical assignment

With an exact solver the pairs of a block are the first of its largest matchings whose total ties
with the least. A track's choice is accepted if and only if some matching of what it leaves
reaches the target; the cheapest matching of the rest does so if any does, because what lies
between the target and a tie is a tie. So no track is left without a choice, and the errors of
the ties do not add up along the tracks: every choice is tested against the same target.
-/

namespace ObstacleTracking

open Block Assignment ExactScalar

variable {K α : Type} [Field K] [LinearOrder K] [Scalar α] [ExactScalar K α]
  {solver : Solver α} {c : CostMatrix α} {gate : α} {g : K} {b : Block} {target sofar : Total K}
  {t : ℕ} {later detections : List ℕ} {m : Finset (ℕ × ℕ)} {d : Option ℕ}

/-! ### Matchings that reach a target -/

/-- Together with what was chosen so far a matching of the rest has as many pairs as the target,
at a cost that ties. -/
structure Completes (c : CostMatrix α) (gate : α) (target sofar : Total K) (rest : Block)
    (m : Finset (ℕ × ℕ)) : Prop where
  isMatching : IsMatching c gate rest m
  count : sofar.count + m.card = target.count
  tie : Tie (sofar.cost + c.total m) target.cost

/-- Nothing that continues what was chosen so far is better than the target. -/
structure Bounds (c : CostMatrix α) (gate : α) (target sofar : Total K) (rest : Block) : Prop where
  count_le : ∀ m, IsMatching c gate rest m → sofar.count + m.card ≤ target.count
  cost_le : ∀ m, IsMatching c gate rest m → sofar.count + m.card = target.count →
    target.cost ≤ sofar.cost + c.total m

/-- Nothing is better than a cheapest matching. -/
theorem Block.IsCheapest.bounds {m₀ : Finset (ℕ × ℕ)} (h : IsCheapest c gate b m₀) :
    Bounds c gate (⟨m₀.card, c.total m₀⟩ : Total K) ⟨0, 0⟩ b := by
  constructor
  · intro m hm
    rw [zero_add]
    exact h.isLargest.card_le m hm
  · intro m hm heq
    rw [zero_add] at heq ⊢
    exact h.total_le m (hm.isLargest_of_card h.isLargest heq.ge)

/-- What reaches a cheapest matching is as large and ties with it. -/
theorem Block.IsCheapest.completes_iff {m₀ : Finset (ℕ × ℕ)} (h : IsCheapest c gate b m₀) :
    Completes c gate (⟨m₀.card, c.total m₀⟩ : Total K) ⟨0, 0⟩ b m ↔
      IsLargest c gate b m ∧ Tie (c.total m) (c.total m₀) := by
  constructor
  · intro hm
    have hcount := hm.count
    have htie := hm.tie
    rw [zero_add] at hcount htie
    exact ⟨hm.isMatching.isLargest_of_card h.isLargest hcount.ge, htie⟩
  · intro hm
    refine ⟨hm.1.isMatching, ?_, ?_⟩
    · rw [zero_add]
      exact hm.1.card_eq h.isLargest
    · rw [zero_add]
      exact hm.2

theorem total_after_withChoice (sofar : Total K)
    (hm : IsMatching c gate ⟨later, leave detections d⟩ m) (ht : t ∉ later) :
    sofar.count + (withChoice t m d).card = (sofar.after c t d).count + m.card ∧
      sofar.cost + c.total (withChoice t m d) = (sofar.after c t d).cost + c.total m := by
  have hnot : ∀ e, (t, e) ∉ m := fun e he => ht (hm.track_mem (t, e) he)
  rw [card_withChoice hnot, total_withChoice hnot]
  exact ⟨(Nat.add_assoc _ _ _).symm, (add_assoc _ _ _).symm⟩

theorem Completes.withChoice
    (h : Completes c gate target (sofar.after c t d) ⟨later, leave detections d⟩ m)
    (ht : t ∉ later) (hd : d ∈ candidates c gate t detections) :
    Completes c gate target sofar ⟨t :: later, detections⟩ (Block.withChoice t m d) := by
  obtain ⟨hcount, hcost⟩ := total_after_withChoice sofar h.isMatching ht
  constructor
  · exact h.isMatching.withChoice ht hd
  · rw [hcount]
    exact h.count
  · rw [hcost]
    exact h.tie

theorem Completes.exists_withChoice
    (h : Completes c gate target sofar ⟨t :: later, detections⟩ m) (ht : t ∉ later) :
    ∃ d ∈ candidates c gate t detections, ∃ m',
      Completes c gate target (sofar.after c t d) ⟨later, leave detections d⟩ m' ∧
        m = Block.withChoice t m' d := by
  obtain ⟨d, hd, m', hm', rfl⟩ := h.isMatching.exists_withChoice
  obtain ⟨hcount, hcost⟩ := total_after_withChoice sofar hm' ht
  have hreach := h.count
  have htie := h.tie
  rw [hcount] at hreach
  rw [hcost] at htie
  exact ⟨d, hd, m', ⟨hm', hreach, htie⟩, rfl⟩

theorem Bounds.after (h : Bounds c gate target sofar ⟨t :: later, detections⟩) (ht : t ∉ later)
    (hd : d ∈ candidates c gate t detections) :
    Bounds c gate target (sofar.after c t d) ⟨later, leave detections d⟩ := by
  constructor
  · intro m hm
    rw [← (total_after_withChoice sofar hm ht).1]
    exact h.count_le _ (hm.withChoice ht hd)
  · intro m hm heq
    obtain ⟨hcount, hcost⟩ := total_after_withChoice sofar hm ht
    rw [← hcount] at heq
    rw [← hcost]
    exact h.cost_le _ (hm.withChoice ht hd) heq

theorem Block.Ascending.after (h : Ascending ⟨t :: later, detections⟩) (d : Option ℕ) :
    Ascending ⟨later, leave detections d⟩ :=
  ⟨(List.pairwise_cons.mp h.tracks).2, h.detections.sublist (leave_sublist detections d)⟩

theorem Block.IsNonneg.after (h : IsNonneg c gate ⟨t :: later, detections⟩) (d : Option ℕ) :
    IsNonneg c gate ⟨later, leave detections d⟩ :=
  h.mono (List.subset_cons_self t later) (leave_sublist detections d).subset

/-! ### What the test accepts -/

theorem ofPairs_solved (hb : b.Ascending) :
    Total.ofPairs c (pairs b.tracks (solved solver c gate b)) =
      Total.ofField ⟨(pairs b.tracks (solved solver c gate b)).toFinset.card,
        c.total (pairs b.tracks (solved solver c gate b)).toFinset⟩ := by
  have hm : IsMatching c gate b (pairs b.tracks (solved solver c gate b)).toFinset :=
    isMatching_solved solver hb.nodup_tracks hb.nodup_detections
  exact ofPairs_eq (fun p hp => hm.gated p (List.mem_toFinset.mpr hp))
    (nodup_of_pairwise_fst (pairwise_pairs hb.tracks _))

variable [IsStrictOrderedRing K]

/-- The test on the solver's answer decides whether any matching of the rest reaches the target. -/
theorem reaches_iff (hs : solver.IsExact) (hb : b.Ascending) (hc : IsNonneg c (ofField g) b)
    (h0 : 0 ≤ target.cost) (hbound : Bounds c (ofField g) target sofar b) :
    reaches solver c (ofField g) target.ofField sofar.ofField b = true ↔
      ∃ m, Completes c (ofField g) target sofar b m := by
  have hcheapest := isCheapest_solved hs hb hc
  unfold reaches
  rw [ofPairs_solved hb]
  generalize (pairs b.tracks (solved solver c (ofField g) b)).toFinset = m₀ at hcheapest
  unfold Total.ofField
  rw [Bool.and_eq_true_iff, beq_iff_eq, add_ofField, ties_ofField]
  constructor
  · intro h
    exact ⟨m₀, hcheapest.isLargest.isMatching, h.1, h.2⟩
  · intro h
    obtain ⟨m, hm⟩ := h
    have hm₀ := hcheapest.isLargest.isMatching
    have hcount : sofar.count + m₀.card = target.count := by
      refine Nat.le_antisymm (hbound.count_le m₀ hm₀) ?_
      rw [← hm.count]
      exact Nat.add_le_add_left (hcheapest.isLargest.card_le m hm.isMatching) _
    have hcard : m₀.card = m.card := Nat.add_left_cancel (hcount.trans hm.count.symm)
    have hle : c.total m₀ ≤ c.total m :=
      hcheapest.total_le m (hm.isMatching.isLargest_of_card hcheapest.isLargest hcard.le)
    exact ⟨hcount, hm.tie.of_le h0 (hbound.cost_le m₀ hm₀ hcount) (add_le_add_right hle _)⟩

/-! ### The first accepted choice -/

theorem eq_or_of_find?_eq_some {β : Type} {r : β → β → Prop} {l : List β} {p : β → Bool} {a x : β}
    (hl : l.Pairwise r) (h : l.find? p = some a) (hx : x ∈ l) (hp : p x = true) :
    x = a ∨ r a x := by
  obtain ⟨-, front, back, rfl, hfront⟩ := List.find?_eq_some_iff_append.mp h
  rcases List.mem_append.mp hx with hmem | hmem
  · have hfalse := hfront x hmem
    rw [hp] at hfalse
    cases hfalse
  · rcases List.mem_cons.mp hmem with heq | hmem
    · exact Or.inl heq
    · have hback := (List.pairwise_append.mp hl).2.1
      exact Or.inr ((List.pairwise_cons.mp hback).1 x hmem)

/-- If the target can be reached, the track chooses the first candidate that leaves it in reach. -/
theorem exists_choice? (hs : solver.IsExact) (hb : Ascending ⟨t :: later, detections⟩)
    (hc : IsNonneg c (ofField g) ⟨t :: later, detections⟩) (h0 : 0 ≤ target.cost)
    (hbound : Bounds c (ofField g) target sofar ⟨t :: later, detections⟩)
    (hreach : ∃ m, Completes c (ofField g) target sofar ⟨t :: later, detections⟩ m) :
    ∃ d ∈ candidates c (ofField g) t detections,
      choice? solver c (ofField g) target.ofField sofar.ofField t later detections = some d ∧
      (∃ m, Completes c (ofField g) target (sofar.after c t d) ⟨later, leave detections d⟩ m) ∧
      ∀ d' ∈ candidates c (ofField g) t detections,
        (∃ m, Completes c (ofField g) target (sofar.after c t d') ⟨later, leave detections d'⟩ m) →
          d' = d ∨ Earlier d d' := by
  have ht : t ∉ later := (List.nodup_cons.mp hb.nodup_tracks).1
  have htest : ∀ d ∈ candidates c (ofField g) t detections,
      (reaches solver c (ofField g) target.ofField
        ((sofar.ofField : Total α).choose c t d) ⟨later, leave detections d⟩ = true ↔
      ∃ m, Completes c (ofField g) target (sofar.after c t d) ⟨later, leave detections d⟩ m) := by
    intro d hd
    rw [choose_ofField hd]
    exact reaches_iff hs (hb.after d) (hc.after d) h0 (hbound.after ht hd)
  obtain ⟨m, hm⟩ := hreach
  obtain ⟨d₀, hd₀, m₀, hm₀, -⟩ := hm.exists_withChoice ht
  cases hchoice : choice? solver c (ofField g) target.ofField sofar.ofField t later detections with
  | none => exact absurd ((htest d₀ hd₀).mpr ⟨m₀, hm₀⟩) (List.find?_eq_none.mp hchoice d₀ hd₀)
  | some d =>
    have hd := choice?_mem hchoice
    unfold choice? at hchoice
    have haccepted := List.find?_some hchoice
    refine ⟨d, hd, rfl, (htest d hd).mp haccepted, ?_⟩
    intro d' hd' hreach'
    exact eq_or_of_find?_eq_some (pairwise_candidates hb.detections t) hchoice hd'
      ((htest d' hd').mpr hreach')

/-- The choices of the tracks reach the target, and no matching that does comes before them. -/
theorem exists_choices? (hs : solver.IsExact) {tracks : List ℕ}
    (hb : Ascending ⟨tracks, detections⟩) (hc : IsNonneg c (ofField g) ⟨tracks, detections⟩)
    (h0 : 0 ≤ target.cost) (hbound : Bounds c (ofField g) target sofar ⟨tracks, detections⟩)
    (hreach : ∃ m, Completes c (ofField g) target sofar ⟨tracks, detections⟩ m) :
    ∃ choices, choices? solver c (ofField g) target.ofField sofar.ofField tracks detections =
        some choices ∧
      Completes c (ofField g) target sofar ⟨tracks, detections⟩ (pairs tracks choices).toFinset ∧
      ∀ m, Completes c (ofField g) target sofar ⟨tracks, detections⟩ m →
        m = (pairs tracks choices).toFinset ∨ Precedes (pairs tracks choices).toFinset m := by
  induction tracks generalizing detections sofar with
  | nil =>
    have hempty : ∀ m, Completes c (ofField g) target sofar ⟨[], detections⟩ m → m = ∅ := by
      intro m hm
      refine Finset.eq_empty_of_forall_notMem ?_
      intro p hp
      exact List.not_mem_nil (hm.isMatching.track_mem p hp)
    obtain ⟨m, hm⟩ := hreach
    have h := hm
    rw [hempty m hm] at h
    exact ⟨[], rfl, h, fun m' hm' => Or.inl (hempty m' hm')⟩
  | cons t later ih =>
    have ht : t ∉ later := (List.nodup_cons.mp hb.nodup_tracks).1
    have hlater : ∀ p : ℕ × ℕ, p.1 ∈ later → t < p.1 :=
      fun p => (List.pairwise_cons.mp hb.tracks).1 p.1
    obtain ⟨d, hd, hchoice, hrest, hfirst⟩ := exists_choice? hs hb hc h0 hbound hreach
    obtain ⟨choices, hchoices, hcompletes, hleast⟩ :=
      ih (hb.after d) (hc.after d) (hbound.after ht hd) hrest
    refine ⟨d :: choices, ?_, ?_, ?_⟩
    · simp only [choices?, hchoice, choose_ofField hd, hchoices, Option.bind_eq_bind,
        Option.bind_some, Option.pure_def]
    · rw [toFinset_pairs_cons]
      exact hcompletes.withChoice ht hd
    · intro m hm
      rw [toFinset_pairs_cons]
      obtain ⟨d', hd', m', hm', rfl⟩ := hm.exists_withChoice ht
      have hmem := fun p hp => hlater p (hcompletes.isMatching.track_mem p hp)
      rcases hfirst d' hd' ⟨m', hm'⟩ with rfl | hearlier
      · rcases hleast m' hm' with rfl | hprec
        · exact Or.inl rfl
        · exact Or.inr (hprec.withChoice hmem)
      · have hmem' := fun p hp => hlater p (hm'.isMatching.track_mem p hp)
        exact Or.inr (precedes_of_earlier hearlier hmem hmem')

/-! ### The pairs of a block -/

/-- The choices of a block are always made, and they are its canonical matching. -/
theorem isCanonical_pairsOf (hs : solver.IsExact) (hb : b.Ascending)
    (hc : IsNonneg c (ofField g) b) {m₀ : Finset (ℕ × ℕ)}
    (hm₀ : IsCheapest c (ofField g) b m₀) :
    (choices? solver c (ofField g)
        (Total.ofPairs c (pairs b.tracks (solved solver c (ofField g) b))) .zero b.tracks
        b.detections).isSome = true ∧
      IsCanonical c (ofField g) b (c.total m₀) (pairsOf solver c (ofField g) b).toFinset := by
  have hcheapest := isCheapest_solved hs hb hc
  have hzero : (Total.zero : Total α) = Total.ofField ⟨0, 0⟩ := by
    unfold Total.zero Total.ofField
    rw [zero_eq]
  unfold pairsOf
  dsimp only
  rw [ofPairs_solved hb, hzero]
  generalize (pairs b.tracks (solved solver c (ofField g) b)).toFinset = m₁ at hcheapest ⊢
  have htotal : c.total m₀ = c.total m₁ :=
    le_antisymm (hm₀.total_le m₁ hcheapest.isLargest) (hcheapest.total_le m₀ hm₀.isLargest)
  obtain ⟨choices, hchoices, hcompletes, hfirst⟩ := exists_choices? hs hb hc
    (hc.total_nonneg hcheapest.isLargest.isMatching) hcheapest.bounds
    ⟨m₁, hcheapest.completes_iff.mpr ⟨hcheapest.isLargest, tie_self _⟩⟩
  obtain ⟨hlargest, htie⟩ := hcheapest.completes_iff.mp hcompletes
  rw [hchoices, htotal]
  refine ⟨rfl, hlargest, htie, ?_⟩
  intro m hm hmtie
  exact hfirst m (hcheapest.completes_iff.mpr ⟨hm, hmtie⟩)

/-! ### The assignment of a matrix -/

/-- The assignment of a matrix is the first, track by track, of the largest matchings whose total
ties with the least. The greedy choices that lead to it never fail. -/
theorem global_isCanonical (hs : solver.IsExact) (c : CostMatrix α)
    (hfinite : Scalar.isFinite gate = true) (hpos : 0 < gate) (hc : IsNonneg c gate (whole c)) :
    (global solver c gate).matched.Pairwise (fun p q => p.1 < q.1) ∧
      (∃ least, IsLeast {x | ∃ m, IsLargest c gate (whole c) m ∧ c.total m = x} least ∧
        IsCanonical c gate (whole c) least (global solver c gate).matched.toFinset) ∧
      (choices? solver c gate
        (Total.ofPairs c (pairs (whole c).tracks (solved solver c gate (whole c)))) .zero
        (whole c).tracks (whole c).detections).isSome = true := by
  obtain ⟨g, -, rfl⟩ := exists_pos hfinite hpos
  have hb := ascending_whole c
  have hcheapest := isCheapest_solved hs hb hc
  obtain ⟨hsome, hcanonical⟩ := isCanonical_pairsOf hs hb hc hcheapest
  refine ⟨pairwise_pairsOf solver hb.tracks, ⟨_, ⟨?_, ?_⟩, hcanonical⟩, hsome⟩
  · exact ⟨_, hcheapest.isLargest, rfl⟩
  · intro x hx
    obtain ⟨m, hm, rfl⟩ := hx
    exact hcheapest.total_le m hm

/-- Costs of two tracks and two detections, of which two are not finite numbers. -/
noncomputable def CostMatrix.withGaps : CostMatrix ExactNumber :=
  ⟨2, #[#[.real 1, .notNumber], #[.real 1, .infinite false]]⟩

theorem CostMatrix.isNonneg_withGaps (gate : ExactNumber) :
    IsNonneg CostMatrix.withGaps gate (whole CostMatrix.withGaps) := by
  intro t ht d hd hgated
  have htrack : t < 2 := List.mem_range.mp ht
  have hdetection : d < 2 := List.mem_range.mp hd
  have hone : (0 : ExactNumber) ≤ .real 1 := zero_le_one (α := ℝ)
  interval_cases t <;> interval_cases d
  · exact hone
  · cases hgated
  · exact hone
  · cases hgated

theorem global_isCanonical_withGaps :
    (∃ least, IsCanonical CostMatrix.withGaps (.real 2) (whole CostMatrix.withGaps) least
      (global (Solver.cheapest ExactNumber) CostMatrix.withGaps (.real 2)).matched.toFinset) := by
  obtain ⟨-, ⟨least, -, hcanonical⟩, -⟩ := global_isCanonical Solver.isExact_cheapest
    CostMatrix.withGaps rfl (zero_lt_two (α := ℝ)) (CostMatrix.isNonneg_withGaps (.real 2))
  exact ⟨least, hcanonical⟩

end ObstacleTracking
