import Mathlib.Algebra.Order.Ring.Abs
import Mathlib.Tactic.Ring
import ObstacleTracking.Proofs.Association.Preference

/-!
# The padded matrix

A block is solved as a square matrix in which all that is not gated has a forbidding cost. That
cost is above every total of gated costs, so that a cheapest permutation has as many gated pairs
as any matching, and of the matchings with so many it picks a cheapest.
-/

namespace ObstacleTracking

open Block Assignment ExactScalar

variable {α : Type} [Scalar α] {c : CostMatrix α} {b : Block} {m : Finset (ℕ × ℕ)}

/-! ### The pair at a row -/

/-- The gated pair of a row and its column under a permutation. -/
def pairAt (c : CostMatrix α) (gate : α) (b : Block) {n : ℕ} (p : Permutation n) (i : Fin n) :
    Option (ℕ × ℕ) :=
  match b.tracks[i.val]?, b.detections[(p.image.get i).val]? with
  | some t, some d => if c.isGated gate t d then some (t, d) else none
  | _, _ => none

theorem pairAt_eq_some_iff {gate : α} {n : ℕ} {p : Permutation n} {i : Fin n} {t d : ℕ} :
    pairAt c gate b p i = some (t, d) ↔
      b.tracks[i.val]? = some t ∧ b.detections[(p.image.get i).val]? = some d ∧
        c.isGated gate t d = true := by
  unfold pairAt
  cases ht : b.tracks[i.val]? with
  | none => simp
  | some s =>
    cases hd : b.detections[(p.image.get i).val]? with
    | none => simp
    | some e =>
      by_cases hg : c.isGated gate s e = true
      · simp only [if_pos hg, Option.some_inj, Prod.mk.injEq]
        constructor
        · rintro ⟨rfl, rfl⟩
          exact ⟨rfl, rfl, hg⟩
        · rintro ⟨rfl, rfl, -⟩
          exact ⟨rfl, rfl⟩
      · simp only [if_neg hg, reduceCtorEq, Option.some_inj, false_iff]
        rintro ⟨rfl, rfl, h⟩
        exact hg h

theorem mem_picks_iff_pairAt {gate : α} {n : ℕ} {p : Permutation n} {q : ℕ × ℕ} :
    q ∈ (picks c gate b p).toFinset ↔ ∃ i, pairAt c gate b p i = some q := by
  obtain ⟨t, d⟩ := q
  rw [List.mem_toFinset, mem_picks_iff]
  constructor
  · rintro ⟨i, j, hi, hij, hj, hg⟩
    have hin := Permutation.lt_of_column?_eq_some hij
    rw [Permutation.column?_val p ⟨i, hin⟩, Option.some_inj] at hij
    subst hij
    exact ⟨⟨i, hin⟩, pairAt_eq_some_iff.mpr ⟨hi, hj, hg⟩⟩
  · rintro ⟨i, h⟩
    obtain ⟨hi, hj, hg⟩ := pairAt_eq_some_iff.mp h
    exact ⟨i, _, hi, Permutation.column?_val p i, hj, hg⟩

theorem pairAt_inj {gate : α} (ht : b.tracks.Nodup) {n : ℕ} {p : Permutation n} {i k : Fin n}
    {q : ℕ × ℕ} (hi : pairAt c gate b p i = some q) (hk : pairAt c gate b p k = some q) :
    i = k := by
  obtain ⟨t, d⟩ := q
  exact Fin.ext (getElem?_inj_of_nodup ht (pairAt_eq_some_iff.mp hi).1 (pairAt_eq_some_iff.mp hk).1)

/-! ### What a permutation costs -/

variable {K : Type} [Field K]

/-- A sum over rows in which those without a pair count a fixed amount. -/
theorem sum_elim {ι β : Type} [Fintype ι] [Nonempty β] {f : ι → Option β} {m : Finset β}
    (hm : ∀ q, q ∈ m ↔ ∃ i, f i = some q) (hf : ∀ i k q, f i = some q → f k = some q → i = k)
    (w : β → K) (x : K) :
    ∑ i, (f i).elim x w = ∑ q ∈ m, w q + ((Fintype.card ι : K) - m.card) * x := by
  classical
  have himage : ∀ i ∈ Finset.univ.filter (fun i => (f i).isSome), ∃ q ∈ m, f i = some q := by
    intro i hi
    obtain ⟨q, hq⟩ := Option.isSome_iff_exists.mp (Finset.mem_filter.mp hi).2
    exact ⟨q, (hm q).mpr ⟨i, hq⟩, hq⟩
  choose! pair hpair_mem hpair using himage
  have hinj : ∀ i ∈ Finset.univ.filter (fun i => (f i).isSome),
      ∀ k ∈ Finset.univ.filter (fun i => (f i).isSome), pair i = pair k → i = k := by
    intro i hi k hk heq
    exact hf i k (pair i) (hpair i hi) (heq ▸ hpair k hk)
  have hsurj : ∀ q ∈ m, ∃ i ∈ Finset.univ.filter (fun i => (f i).isSome), pair i = q := by
    intro q hq
    obtain ⟨i, hi⟩ := (hm q).mp hq
    have hmem : i ∈ Finset.univ.filter (fun i => (f i).isSome) :=
      Finset.mem_filter.mpr ⟨Finset.mem_univ i, by rw [hi]; rfl⟩
    exact ⟨i, hmem, Option.some.inj ((hpair i hmem).symm.trans hi)⟩
  have hcard : (Finset.univ.filter fun i => (f i).isSome).card = m.card :=
    Finset.card_nbij pair hpair_mem hinj hsurj
  have hsum : ∑ i ∈ Finset.univ.filter (fun i => (f i).isSome), (f i).elim x w = ∑ q ∈ m, w q := by
    refine Finset.sum_nbij pair hpair_mem hinj hsurj ?_
    intro i hi
    rw [hpair i hi]
    rfl
  have hrest : ∑ i ∈ Finset.univ.filter (fun i => ¬ (f i).isSome), (f i).elim x w =
      ((Fintype.card ι : K) - m.card) * x := by
    have hconst : ∀ i ∈ Finset.univ.filter (fun i => ¬ (f i).isSome), (f i).elim x w = x := by
      intro i hi
      rw [Option.not_isSome_iff_eq_none.mp (Finset.mem_filter.mp hi).2]
      rfl
    rw [Finset.sum_congr rfl hconst, Finset.sum_const, nsmul_eq_mul, ← hcard]
    have hall := Finset.card_filter_add_card_filter_not (s := (Finset.univ : Finset ι))
      (fun i => ((f i).isSome : Prop))
    rw [Finset.card_univ] at hall
    rw [← hall, Nat.cast_add]
    ring
  rw [← Finset.sum_filter_add_sum_filter_not Finset.univ (fun i => ((f i).isSome : Prop)), hsum,
    hrest]

variable [LinearOrder K] [IsStrictOrderedRing K] [ExactScalar K α] {g : K}

/-- The forbidding cost as an element of the field. -/
def forbidding (g : K) (n : ℕ) : K := max |g| 1 * ((n : K) + 1) * (10 : ℕ)

theorem forbiddingCost_eq (g : K) (n : ℕ) :
    forbiddingCost (ofField g : α) n = ofField (forbidding g n) := by
  unfold forbiddingCost forbidding
  rw [abs_ofField, one_eq, maxNum_ofField, natCast_eq, natCast_eq, add_ofField, mul_ofField,
    mul_ofField, Nat.cast_ofNat]

theorem paddedMatrix_eq (g : K) {n : ℕ} (p : Permutation n) (i : Fin n) :
    paddedMatrix c (ofField g) b n i (p.image.get i) =
      ofField ((pairAt c (ofField g) b p i).elim (forbidding g n) c.cost) := by
  unfold paddedMatrix pairAt
  rw [Mat.get_ofFn]
  cases b.tracks[i.val]? with
  | none => exact forbiddingCost_eq g n
  | some t =>
    cases b.detections[(p.image.get i).val]? with
    | none => exact forbiddingCost_eq g n
    | some d =>
      by_cases hg : c.isGated (ofField g) t d = true
      · simp only [if_pos hg]
        exact CostMatrix.entry_of_isGated hg
      · simp only [if_neg hg]
        exact forbiddingCost_eq g n

/-- A permutation costs the total of its gated pairs and the forbidding cost for every other row. -/
theorem cost_paddedMatrix (ht : b.tracks.Nodup) (g : K) {n : ℕ} (p : Permutation n) :
    p.cost (paddedMatrix c (ofField g) b n) =
      ofField (c.total (picks c (ofField g) b p).toFinset +
        ((n : K) - (picks c (ofField g) b p).toFinset.card) * forbidding g n) := by
  unfold Permutation.cost
  rw [funext fun i => paddedMatrix_eq g p i, sumFirstToLast_ofField,
    sum_elim (fun q => mem_picks_iff_pairAt) (fun i k q hi hk => pairAt_inj ht hi hk),
    Fintype.card_fin]
  rfl

/-! ### Matchings as parts of permutations -/

theorem getElem?_idxOf {l : List ℕ} {a : ℕ} (h : a ∈ l) : l[l.idxOf a]? = some a := by
  rw [List.getElem?_eq_getElem (List.idxOf_lt_length_of_mem h), List.getElem_idxOf]

theorem Block.IsMatching.exists_picks {gate : α} (h : IsMatching c gate b m) {n : ℕ}
    (hn : b.tracks.length ≤ n) (hd : b.detections.length ≤ n) :
    ∃ p : Permutation n, m ⊆ (picks c gate b p).toFinset := by
  have hrow : ∀ q ∈ m, b.tracks.idxOf q.1 < n :=
    fun q hq => (List.idxOf_lt_length_of_mem (h.track_mem q hq)).trans_le hn
  have hcol : ∀ q ∈ m, b.detections.idxOf q.2 < n :=
    fun q hq => (List.idxOf_lt_length_of_mem (h.detection_mem q hq)).trans_le hd
  let place : {q // q ∈ m} → Fin n × Fin n := fun q => (⟨_, hrow q q.2⟩, ⟨_, hcol q q.2⟩)
  obtain ⟨p, hp⟩ := Permutation.exists_extending (m.attach.image place)
    (by
      intro x hx y hy heq
      obtain ⟨q, -, rfl⟩ := Finset.mem_image.mp hx
      obtain ⟨r, -, rfl⟩ := Finset.mem_image.mp hy
      have htrack := (List.idxOf_inj (h.track_mem q q.2)).mp (congrArg Fin.val heq)
      rw [Subtype.ext (h.track_inj q q.2 r r.2 htrack)])
    (by
      intro x hx y hy heq
      obtain ⟨q, -, rfl⟩ := Finset.mem_image.mp hx
      obtain ⟨r, -, rfl⟩ := Finset.mem_image.mp hy
      have hdet := (List.idxOf_inj (h.detection_mem q q.2)).mp (congrArg Fin.val heq)
      rw [Subtype.ext (h.detection_inj q q.2 r r.2 hdet)])
  refine ⟨p, ?_⟩
  intro q hq
  have hget := hp _ (Finset.mem_image_of_mem place (Finset.mem_attach m ⟨q, hq⟩))
  refine mem_picks_iff_pairAt.mpr ⟨⟨_, hrow q hq⟩, pairAt_eq_some_iff.mpr ⟨?_, ?_, h.gated q hq⟩⟩
  · exact getElem?_idxOf (h.track_mem q hq)
  · rw [hget]
    exact getElem?_idxOf (h.detection_mem q hq)

/-! ### The cheapest permutation -/

/-- No total of gated costs reaches the forbidding cost. -/
theorem Block.IsMatching.total_lt_forbidding (h : IsMatching c (ofField g) b m) {n : ℕ}
    (hn : b.tracks.length ≤ n) : c.total m < forbidding g n := by
  have hcard : (m.card : K) ≤ n := Nat.cast_le.mpr (h.card_le_length.trans hn)
  have hmax : g ≤ max |g| 1 := (le_abs_self g).trans (le_max_left _ _)
  have hone : (1 : K) ≤ max |g| 1 := le_max_right _ _
  have hnn : (0 : K) ≤ n := Nat.cast_nonneg n
  calc c.total m ≤ m.card * g := h.total_le
    _ ≤ m.card * max |g| 1 := mul_le_mul_of_nonneg_left hmax (Nat.cast_nonneg _)
    _ ≤ n * max |g| 1 := mul_le_mul_of_nonneg_right hcard (zero_le_one.trans hone)
    _ < (n + 1) * max |g| 1 * 10 := by nlinarith
    _ = forbidding g n := by
      unfold forbidding
      ring

theorem isCheapest_picks (hb : b.Ascending) (hc : IsNonneg c (ofField g) b) {n : ℕ}
    (hn : b.tracks.length ≤ n) (hd : b.detections.length ≤ n) {p : Permutation n}
    (hp : ∀ q : Permutation n,
      p.cost (paddedMatrix c (ofField g) b n) ≤ q.cost (paddedMatrix c (ofField g) b n)) :
    IsCheapest c (ofField g) b (picks c (ofField g) b p).toFinset := by
  have hmatching : ∀ q : Permutation n, IsMatching c (ofField g) b (picks c (ofField g) b q).toFinset :=
    fun q => isMatching_picks hb.nodup_tracks hb.nodup_detections q
  have hle : ∀ q : Permutation n, c.total (picks c (ofField g) b p).toFinset +
      ((n : K) - (picks c (ofField g) b p).toFinset.card) * forbidding g n ≤
      c.total (picks c (ofField g) b q).toFinset +
        ((n : K) - (picks c (ofField g) b q).toFinset.card) * forbidding g n := by
    intro q
    have h := hp q
    rw [cost_paddedMatrix hb.nodup_tracks, cost_paddedMatrix hb.nodup_tracks, le_ofField] at h
    exact h
  have hcard : ∀ m, IsMatching c (ofField g) b m →
      m.card ≤ (picks c (ofField g) b p).toFinset.card := by
    intro m hm
    obtain ⟨q, hq⟩ := hm.exists_picks hn hd
    refine (Finset.card_le_card hq).trans (Nat.le_of_not_lt fun hlt => ?_)
    -- one more gated pair saves a forbidding cost, which outweighs all gated costs
    have hfewer : ((picks c (ofField g) b p).toFinset.card : K) + 1 ≤
        (picks c (ofField g) b q).toFinset.card := by exact_mod_cast hlt
    have hnonneg := hc.total_nonneg (hmatching p)
    have hsmall := (hmatching q).total_lt_forbidding hn
    have hpos : 0 < forbidding g n := (hc.total_nonneg (hmatching q)).trans_lt hsmall
    have hq' := hle q
    nlinarith
  refine ⟨⟨hmatching p, hcard⟩, ?_⟩
  intro m hm
  obtain ⟨q, hq⟩ := hm.isMatching.exists_picks hn hd
  have hmq : m = (picks c (ofField g) b q).toFinset :=
    Finset.eq_of_subset_of_card_le hq (hm.card_le _ (hmatching q))
  have hsame : (picks c (ofField g) b p).toFinset.card = m.card :=
    le_antisymm (hm.card_le _ (hmatching p)) (hcard m hm.isMatching)
  have h := hle q
  rw [← hmq, hsame] at h
  linarith

/-! ### The solver's answer -/

theorem isFinite_paddedMatrix (g : K) {n : ℕ} (i j : Fin n) :
    Scalar.isFinite (paddedMatrix c (ofField g) b n i j) = true := by
  have hforbidding : Scalar.isFinite (forbiddingCost (ofField g : α) n) = true := by
    rw [forbiddingCost_eq, isFinite_ofField]
  unfold paddedMatrix
  rw [Mat.get_ofFn]
  cases b.tracks[i.val]? with
  | none => exact hforbidding
  | some t =>
    cases b.detections[j.val]? with
    | none => exact hforbidding
    | some d =>
      by_cases hg : c.isGated (ofField g) t d = true
      · simp only [if_pos hg]
        rw [CostMatrix.entry_of_isGated hg, isFinite_ofField]
      · simp only [if_neg hg]
        exact hforbidding

/-- With one row and one column there is no choice. -/
theorem picks_singleton (gate : α) (t d : ℕ) (p : Permutation 1) :
    picks c gate ⟨[t], [d]⟩ p = pairs [t] [if c.isGated gate t d then some d else none] := by
  have hcolumn : p.column? 0 = some 0 := by
    have h := Permutation.column?_val p 0
    rw [Subsingleton.elim (p.image.get 0) 0] at h
    exact h
  unfold picks
  by_cases hg : c.isGated gate t d = true <;> simp [hcolumn, hg, Option.filter]

/-- What an exact solver picks in a block is a cheapest matching of the block. -/
theorem isCheapest_solved {solver : Solver α} (hs : solver.IsExact) (hb : b.Ascending)
    (hc : IsNonneg c (ofField g) b) :
    IsCheapest c (ofField g) b (pairs b.tracks (solved solver c (ofField g) b)).toFinset := by
  have hexact : ∀ n, ∃ p, solver n (paddedMatrix c (ofField g) b n) = some p ∧
      ∀ q : Permutation n, p.cost (paddedMatrix c (ofField g) b n) ≤
        q.cost (paddedMatrix c (ofField g) b n) :=
    fun n => hs n _ (isFinite_paddedMatrix g)
  fun_cases solved solver c (ofField g) b with
  | case1 t d =>
    obtain ⟨p, -, hp⟩ := hexact 1
    have h := isCheapest_picks hb hc le_rfl le_rfl hp
    rw [picks_singleton] at h
    exact h
  | case2 detections =>
    obtain ⟨p, -, hp⟩ := hexact detections.length
    exact isCheapest_picks hb hc (Nat.zero_le _) le_rfl hp
  | case3 tracks =>
    obtain ⟨p, -, hp⟩ := hexact tracks.length
    have h := isCheapest_picks hb hc le_rfl (Nat.zero_le _) hp
    have hempty : (picks c (ofField g) ⟨tracks, []⟩ p).toFinset = ∅ := by
      refine Finset.eq_empty_of_forall_notMem ?_
      intro q hq
      exact List.not_mem_nil (h.isLargest.isMatching.detection_mem q hq)
    rw [hempty] at h
    rw [pairs_map_none]
    exact h
  | case4 tracks detections _ _ _ size hnone =>
    obtain ⟨p, hp, -⟩ := hexact size
    rw [hnone] at hp
    cases hp
  | case5 tracks detections _ _ _ size p hsome =>
    obtain ⟨q, hq, hle⟩ := hexact size
    rw [hsome] at hq ⊢
    rw [← Option.some.inj hq] at hle
    exact isCheapest_picks hb hc (le_max_left _ _) (le_max_right _ _) hle

end ObstacleTracking
