import Mathlib.LinearAlgebra.Matrix.Block
import Mathlib.LinearAlgebra.Matrix.NonsingularInverse
import ObstacleTracking.Linear.Inverse
import ObstacleTracking.Proofs.Linear.Lift

/-!
# Elimination finds the inverse

Over exact scalars a matrix of finite values whose determinant is not zero has an inverse, and
elimination finds it. Row operations keep the solution `X` of `left · X = right` and a
determinant that is not zero; a column without a pivot would make the determinant zero. Back
substitution replaces the rows of the right side by those of `X`, from the last to the first.
-/

namespace ObstacleTracking

open ExactScalar

/-! ### Loops over all indices -/

section Loops

variable {σ : Type}

theorem foldlM_finRange {n : ℕ} {f : σ → Fin n → Option σ} (inv : ℕ → σ → Prop)
    (hf : ∀ (i : Fin n) s, inv i s → ∃ s', f s i = some s' ∧ inv (i + 1) s') {s : σ}
    (h : inv 0 s) : ∃ s', (List.finRange n).foldlM f s = some s' ∧ inv n s' := by
  induction n with
  | zero => exact ⟨s, rfl, h⟩
  | succ n ih =>
    obtain ⟨s₁, hs₁, h₁⟩ := ih fun i => hf i.castSucc
    obtain ⟨s₂, hs₂, h₂⟩ := hf (Fin.last n) s₁ h₁
    refine ⟨s₂, ?_, h₂⟩
    rw [List.finRange_succ_last, List.foldlM_append, List.foldlM_map, hs₁]
    simp only [Option.bind_eq_bind, Option.bind_some, List.foldlM_cons, List.foldlM_nil, hs₂]
    rfl

theorem foldl_reverse_finRange {n : ℕ} {f : σ → Fin n → σ} (inv : ℕ → σ → Prop)
    (hf : ∀ (i : Fin n) s, inv (i + 1) s → inv i (f s i)) {s : σ} (h : inv n s) :
    inv 0 ((List.finRange n).reverse.foldl f s) := by
  induction n generalizing s with
  | zero => exact h
  | succ n ih =>
    rw [List.finRange_succ_last, List.reverse_append, List.foldl_append, ← List.map_reverse,
      List.foldl_map]
    exact ih (fun i => hf i.castSucc) (hf (Fin.last n) s h)

end Loops

namespace LinearSystem

variable {K : Type} [Field K] {n : ℕ} {a b x : Matrix (Fin n) (Fin n) K} {i : Fin n}

/-! ### Stages of the elimination -/

/-- Before step `i` the system has the solution `x`, and the columns before `i` are clear below
the diagonal. -/
structure Stage (x : Matrix (Fin n) (Fin n) K) (i : ℕ) (a b : Matrix (Fin n) (Fin n) K) :
    Prop where
  det_ne_zero : a.det ≠ 0
  mul_eq : a * x = b
  cleared : ∀ r k : Fin n, k.val < i → k < r → a r k = 0

/-- A column that is zero from the diagonal on makes the determinant zero. -/
theorem Stage.exists_pivot (h : Stage x i a b) : ∃ q, i ≤ q ∧ a q i ≠ 0 := by
  by_contra hnone
  push Not at hnone
  refine h.det_ne_zero ?_
  rw [Matrix.det_apply]
  refine Finset.sum_eq_zero ?_
  intro σ _
  -- the rows from `i` on do not fit into the columns after `i`
  have hrow : ∃ r, i ≤ r ∧ σ.symm r ≤ i := by
    by_contra hall
    push Not at hall
    have hcard : (Finset.Ici i).card ≤ (Finset.Ioi i).card := by
      refine Finset.card_le_card_of_injOn σ.symm ?_ σ.symm.injective.injOn
      intro r hr
      exact Finset.mem_coe.mpr (Finset.mem_Ioi.mpr (hall r (Finset.mem_Ici.mp (Finset.mem_coe.mp hr))))
    rw [Fin.card_Ici, Fin.card_Ioi] at hcard
    omega
  obtain ⟨r, hr, hcolumn⟩ := hrow
  have hzero : a r (σ.symm r) = 0 := by
    rcases lt_or_eq_of_le hcolumn with hlt | heq
    · exact h.cleared r _ hlt (hlt.trans_le hr)
    · rw [heq]
      exact hnone r hr
  have hterm : ∏ k, a (σ k) k = 0 := by
    refine Finset.prod_eq_zero (Finset.mem_univ (σ.symm r)) ?_
    rw [Equiv.apply_symm_apply]
    exact hzero
  rw [hterm, smul_zero]

/-- Rows from `i` on may change places. -/
theorem Stage.swap (h : Stage x i a b) {r : Fin n} (hr : i ≤ r) :
    Stage x i (a.submatrix (Equiv.swap i r) id) (b.submatrix (Equiv.swap i r) id) := by
  constructor
  · rw [Matrix.det_permute]
    refine mul_ne_zero ?_ h.det_ne_zero
    rcases Int.units_eq_one_or (Equiv.Perm.sign (Equiv.swap i r)) with hsign | hsign <;>
      simp [hsign]
  · rw [← h.mul_eq]
    rfl
  · intro p k hk hkp
    refine h.cleared _ k hk ?_
    show k < Equiv.swap i r p
    rw [Equiv.swap_apply_def]
    split
    · exact lt_of_lt_of_le hk hr
    · split
      · exact hk
      · exact hkp

/-- Multiples of row `i` are added to the other rows. -/
def addRow (a : Matrix (Fin n) (Fin n) K) (i : Fin n) (w : Fin n → K) :
    Matrix (Fin n) (Fin n) K :=
  Matrix.of fun r k => a r k + w r * a i k

/-- How often row `i` is added to clear the column below it. -/
def weight (a : Matrix (Fin n) (Fin n) K) (i r : Fin n) : K :=
  if r ≤ i then 0 else -(a r i * (1 / a i i))

theorem Stage.clear (h : Stage x i a b) (hpivot : a i i ≠ 0) :
    Stage x (i + 1) (addRow a i (weight a i)) (addRow b i (weight a i)) := by
  constructor
  · have hdet : (addRow a i (weight a i)).det = a.det :=
      Matrix.det_eq_of_forall_row_eq_smul_add_const (weight a i) i (if_pos le_rfl)
        fun r k => rfl
    rw [hdet]
    exact h.det_ne_zero
  · rw [← h.mul_eq]
    refine Matrix.ext ?_
    intro r k
    simp only [addRow, Matrix.mul_apply, Matrix.of_apply, add_mul, mul_assoc, Finset.mul_sum,
      Finset.sum_add_distrib]
  · intro r k hk hkr
    rw [addRow, Matrix.of_apply]
    rcases Nat.lt_or_eq_of_le (Nat.le_of_lt_succ hk) with hlt | heq
    · rw [h.cleared r k hlt hkr, h.cleared i k hlt hlt, mul_zero, add_zero]
    · have hki : k = i := Fin.ext heq
      rw [hki] at hkr ⊢
      rw [weight, if_neg (not_le_of_gt hkr)]
      field_simp
      ring

/-! ### Elimination steps -/

section Steps

variable {α : Type} [LinearOrder K] [Scalar α] [ExactScalar K α]

theorem swapRows_ofField (a : Matrix (Fin n) (Fin n) K) (i r : Fin n) :
    swapRows (Mat.ofField a : Mat n n α) i r =
      Mat.ofField (a.submatrix (Equiv.swap i r) id) := by
  refine Mat.eq_ofField ?_
  intro p k
  rw [swapRows, Mat.get_ofFn, Mat.get_ofField, Mat.get_ofField, Mat.get_ofField,
    Matrix.submatrix_apply, Equiv.swap_apply_def]
  split
  · rfl
  · split <;> rfl

theorem get_ofFn_vector {β : Type} (f : Fin n → β) (r : Fin n) : (Vector.ofFn f).get r = f r := by
  show (Vector.ofFn f)[r] = f r
  simp

theorem clearBelow_ofField (h : Stage x i a b) (hpivot : a i i ≠ 0) :
    clearBelow ⟨Mat.ofField a, Mat.ofField b⟩ i =
      (⟨Mat.ofField (addRow a i (weight a i)), Mat.ofField (addRow b i (weight a i))⟩ :
        LinearSystem n α) := by
  have hfactor : ∀ r, (Vector.ofFn fun r =>
      (Mat.ofField a : Mat n n α).get r i * (1 / (Mat.ofField a : Mat n n α).get i i)).get r =
        ofField (a r i * (1 / a i i)) := by
    intro r
    rw [get_ofFn_vector, Mat.get_ofField, Mat.get_ofField, one_eq, div_ofField _ _ hpivot,
      mul_ofField]
  -- what becomes of an entry below row `i`, on either side
  have hentry : ∀ (p : Matrix (Fin n) (Fin n) K) (r k : Fin n), ¬ r ≤ i →
      -(Mat.ofField p : Mat n n α).get i k * ofField (a r i * (1 / a i i)) +
        (Mat.ofField p : Mat n n α).get r k = ofField (addRow p i (weight a i) r k) := by
    intro p r k hr
    rw [Mat.get_ofField, Mat.get_ofField, neg_ofField, mul_ofField, add_ofField, addRow,
      Matrix.of_apply, weight, if_neg hr]
    congr 1
    ring
  have habove : ∀ (p : Matrix (Fin n) (Fin n) K) (r k : Fin n), r ≤ i →
      addRow p i (weight a i) r k = p r k := by
    intro p r k hr
    rw [addRow, Matrix.of_apply, weight, if_pos hr, zero_mul, add_zero]
  have hstage := h.clear hpivot
  unfold clearBelow
  dsimp only
  congr 1
  · refine Mat.eq_ofField ?_
    intro r k
    rw [Mat.get_ofFn, hfactor]
    by_cases hr : r ≤ i
    · rw [if_pos (Or.inl hr), Mat.get_ofField, habove a r k hr]
    · have hri : i < r := lt_of_not_ge hr
      by_cases hk : k < i
      · rw [if_pos (Or.inr hk), Mat.get_ofField, h.cleared r k hk (hk.trans hri),
          hstage.cleared r k (Nat.lt_succ_of_lt hk) (hk.trans hri)]
      · rw [if_neg fun hor => hor.elim hr hk]
        by_cases hki : k = i
        · rw [if_pos hki, hki, hstage.cleared r i (Nat.lt_succ_self i) hri, zero_eq]
        · rw [if_neg hki, hentry a r k hr]
  · refine Mat.eq_ofField ?_
    intro r k
    rw [Mat.get_ofFn, hfactor]
    by_cases hr : r ≤ i
    · rw [if_pos hr, Mat.get_ofField, habove b r k hr]
    · rw [if_neg hr, hentry b r k hr]

variable [IsStrictOrderedRing K]

theorem pivotRow_ofField (a : Matrix (Fin n) (Fin n) K) (i : Fin n) :
    pivotRow (Mat.ofField a : Mat n n α) i = (List.finRange n).foldl
      (fun best r => if i < r ∧ |a best i| < |a r i| then r else best) i := by
  unfold pivotRow
  simp only [Mat.get_ofField, abs_ofField, lt_ofField]

omit [Field K] [IsStrictOrderedRing K] in
/-- A scan of the rows after `i` ends at a largest of those it has met. -/
theorem foldl_largest (size : Fin n → K) (i : Fin n) (l : List (Fin n)) {best : Fin n}
    (hbest : i ≤ best) :
    i ≤ l.foldl (fun best r => if i < r ∧ size best < size r then r else best) best ∧
      ∀ q, q = best ∨ q ∈ l ∧ i < q → size q ≤
        size (l.foldl (fun best r => if i < r ∧ size best < size r then r else best) best) := by
  induction l generalizing best with
  | nil =>
    refine ⟨hbest, ?_⟩
    intro q hq
    rcases hq with rfl | hq
    · exact le_rfl
    · exact absurd hq.1 List.not_mem_nil
  | cons r l ih =>
    rw [List.foldl_cons]
    by_cases hr : i < r ∧ size best < size r
    · rw [if_pos hr]
      obtain ⟨hle, hmax⟩ := ih hr.1.le
      refine ⟨hle, ?_⟩
      intro q hq
      rcases hq with rfl | ⟨hq, hiq⟩
      · exact hr.2.le.trans (hmax r (Or.inl rfl))
      · rcases List.mem_cons.mp hq with rfl | hq
        · exact hmax q (Or.inl rfl)
        · exact hmax q (Or.inr ⟨hq, hiq⟩)
    · rw [if_neg hr]
      obtain ⟨hle, hmax⟩ := ih hbest
      refine ⟨hle, ?_⟩
      intro q hq
      rcases hq with rfl | ⟨hq, hiq⟩
      · exact hmax q (Or.inl rfl)
      · rcases List.mem_cons.mp hq with rfl | hq
        · rw [not_and, not_lt] at hr
          exact (hr hiq).trans (hmax best (Or.inl rfl))
        · exact hmax q (Or.inr ⟨hq, hiq⟩)

/-- The pivot is the largest entry of its column from the diagonal on. -/
theorem pivotRow_spec (a : Matrix (Fin n) (Fin n) K) (i : Fin n) :
    i ≤ pivotRow (Mat.ofField a : Mat n n α) i ∧
      ∀ q, i ≤ q → |a q i| ≤ |a (pivotRow (Mat.ofField a : Mat n n α) i) i| := by
  rw [pivotRow_ofField]
  obtain ⟨hle, hmax⟩ := foldl_largest (fun r => |a r i|) i (List.finRange n) le_rfl
  refine ⟨hle, ?_⟩
  intro q hq
  rcases lt_or_eq_of_le hq with hlt | heq
  · exact hmax q (Or.inr ⟨List.mem_finRange q, hlt⟩)
  · exact hmax q (Or.inl heq.symm)

/-- A step of the elimination finds a pivot. -/
theorem Stage.exists_eliminate (h : Stage x i a b) :
    ∃ a' b', eliminate (⟨Mat.ofField a, Mat.ofField b⟩ : LinearSystem n α) i =
      some ⟨Mat.ofField a', Mat.ofField b'⟩ ∧ Stage x (i + 1) a' b' := by
  obtain ⟨hle, hmax⟩ := pivotRow_spec (α := α) a i
  obtain ⟨q, hq, hne⟩ := h.exists_pivot
  have hpivot : a (pivotRow (Mat.ofField a : Mat n n α) i) i ≠ 0 := by
    intro hzero
    have hq := hmax q hq
    rw [hzero, abs_zero] at hq
    exact hne (abs_nonpos_iff.mp hq)
  have hdiagonal :
      a.submatrix (Equiv.swap i (pivotRow (Mat.ofField a : Mat n n α) i)) id i i ≠ 0 := by
    rw [Matrix.submatrix_apply, Equiv.swap_apply_left]
    exact hpivot
  have hswap := h.swap hle
  refine ⟨_, _, ?_, hswap.clear hdiagonal⟩
  have hnot : ¬ ((Mat.ofField a : Mat n n α).get (pivotRow (Mat.ofField a : Mat n n α) i) i ≤ 0 ∧
      0 ≤ (Mat.ofField a : Mat n n α).get (pivotRow (Mat.ofField a : Mat n n α) i) i) := by
    rw [Mat.get_ofField, zero_eq, le_ofField, le_ofField]
    intro hboth
    exact hpivot (le_antisymm hboth.1 hboth.2)
  unfold eliminate
  dsimp only
  rw [if_neg hnot, swapRows_ofField, swapRows_ofField, clearBelow_ofField hswap hdiagonal]

end Steps

/-! ### Back substitution -/

/-- The rows from `i` on are those of the solution; what the solved unknowns contribute is taken
out of the rows before. -/
def partialSolution (a x : Matrix (Fin n) (Fin n) K) (i : ℕ) : Matrix (Fin n) (Fin n) K :=
  Matrix.of fun r k =>
    if i ≤ r.val then x r k else ∑ l ∈ Finset.univ.filter (fun l => l.val < i), a r l * x l k

theorem sum_filter_lt_succ (f : Fin n → K) (i : Fin n) :
    ∑ l ∈ Finset.univ.filter (fun l => l.val < i.val + 1), f l =
      f i + ∑ l ∈ Finset.univ.filter (fun l => l.val < i.val), f l := by
  have hinsert : Finset.univ.filter (fun l : Fin n => l.val < i.val + 1) =
      insert i (Finset.univ.filter fun l : Fin n => l.val < i.val) := by
    ext l
    simp only [Finset.mem_filter, Finset.mem_univ, true_and, Finset.mem_insert, Fin.ext_iff]
    omega
  rw [hinsert, Finset.sum_insert (by simp)]

theorem partialSolution_zero (a x : Matrix (Fin n) (Fin n) K) : partialSolution a x 0 = x := by
  refine Matrix.ext ?_
  intro r k
  rw [partialSolution, Matrix.of_apply, if_pos (Nat.zero_le _)]

theorem Stage.partialSolution_eq (h : Stage x n a b) : partialSolution a x n = b := by
  refine Matrix.ext ?_
  intro r k
  rw [partialSolution, Matrix.of_apply, if_neg (not_le_of_gt r.isLt), ← h.mul_eq, Matrix.mul_apply]
  refine Finset.sum_congr ?_ fun _ _ => rfl
  exact Finset.filter_true_of_mem fun l _ => l.isLt

theorem Stage.diagonal_ne_zero (h : Stage x n a b) (i : Fin n) : a i i ≠ 0 := by
  have hdet : a.det = ∏ i, a i i :=
    Matrix.det_of_isUpperTriangular fun r k hkr => h.cleared r k k.isLt hkr
  have hne := h.det_ne_zero
  rw [hdet] at hne
  exact Finset.prod_ne_zero_iff.mp hne i (Finset.mem_univ i)

theorem Stage.substitute_ofField {α : Type} [LinearOrder K] [Scalar α] [ExactScalar K α]
    (h : Stage x n a b) (i : Fin n) :
    substitute (Mat.ofField a : Mat n n α) (Mat.ofField (partialSolution a x (i + 1))) i =
      Mat.ofField (partialSolution a x i) := by
  have hpivot := h.diagonal_ne_zero i
  have hrow : ∀ k, partialSolution a x (i + 1) i k = a i i * x i k := by
    intro k
    rw [partialSolution, Matrix.of_apply, if_neg (by omega), sum_filter_lt_succ]
    have hbefore : ∑ l ∈ Finset.univ.filter (fun l : Fin n => l.val < i.val), a i l * x l k = 0 := by
      refine Finset.sum_eq_zero ?_
      intro l hl
      rw [h.cleared i l l.isLt (Finset.mem_filter.mp hl).2, zero_mul]
    rw [hbefore, add_zero]
  have hsolved : ∀ k, (Vector.ofFn fun k =>
      (Mat.ofField (partialSolution a x (i + 1)) : Mat n n α).get i k /
        (Mat.ofField a : Mat n n α).get i i).get k = ofField (x i k) := by
    intro k
    rw [get_ofFn_vector, Mat.get_ofField, Mat.get_ofField, div_ofField _ _ hpivot, hrow,
      mul_div_cancel_left₀ _ hpivot]
  refine Mat.eq_ofField ?_
  intro r k
  unfold substitute
  dsimp only
  rw [Mat.get_ofFn, hsolved, Mat.get_ofField, Mat.get_ofField, neg_ofField, mul_ofField,
    add_ofField]
  rcases lt_trichotomy r i with hlt | heq | hgt
  · have hval : r.val < i.val := hlt
    rw [if_neg (ne_of_lt hlt), if_pos hlt]
    simp only [partialSolution, Matrix.of_apply]
    rw [if_neg (by omega), if_neg (by omega), sum_filter_lt_succ]
    congr 1
    ring
  · rw [if_pos heq, heq, partialSolution, Matrix.of_apply, if_pos le_rfl]
  · have hval : i.val < r.val := hgt
    rw [if_neg (ne_of_gt hgt), if_neg (not_lt_of_gt hgt)]
    simp only [partialSolution, Matrix.of_apply]
    rw [if_pos (by omega), if_pos (by omega)]

end LinearSystem

/-! ### The inverse -/

open LinearSystem in
/-- A matrix of finite values with a determinant that is not zero has its inverse. -/
theorem Mat.inverse?_ofField {K α : Type} [Field K] [LinearOrder K] [IsStrictOrderedRing K]
    [Scalar α] [ExactScalar K α] {n : ℕ} {a : Matrix (Fin n) (Fin n) K} (h : a.det ≠ 0) :
    (Mat.ofField a : Mat n n α).inverse? = some (Mat.ofField a⁻¹) := by
  have hstart : Stage a⁻¹ 0 a 1 := by
    refine ⟨h, a.mul_nonsing_inv (isUnit_iff_ne_zero.mpr h), ?_⟩
    intro r k hk
    exact absurd hk (Nat.not_lt_zero _)
  obtain ⟨s, hfold, a', b', rfl, hstage⟩ := foldlM_finRange (n := n)
    (f := fun (s : LinearSystem n α) i => s.eliminate i)
    (fun i s => ∃ a' b', s = ⟨Mat.ofField a', Mat.ofField b'⟩ ∧ Stage a⁻¹ i a' b')
    (by
      intro i s hs
      obtain ⟨a', b', rfl, hs⟩ := hs
      obtain ⟨a'', b'', heliminate, hs'⟩ := hs.exists_eliminate (α := α)
      exact ⟨_, heliminate, a'', b'', rfl, hs'⟩)
    ⟨a, 1, rfl, hstart⟩
  have hback := foldl_reverse_finRange
    (f := LinearSystem.substitute (Mat.ofField a' : Mat n n α))
    (fun i s => s = Mat.ofField (partialSolution a' a⁻¹ i))
    (by
      intro i s hs
      rw [hs]
      exact hstage.substitute_ofField i)
    (congrArg Mat.ofField hstage.partialSolution_eq.symm)
  rw [partialSolution_zero] at hback
  unfold Mat.inverse?
  rw [ofField_one, hfold, Option.map_some, hback]

end ObstacleTracking
