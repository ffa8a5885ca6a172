import Mathlib.Data.Finset.Card
import Mathlib.Data.Fintype.EquivFin
import Mathlib.Data.Fintype.Lattice
import ObstacleTracking.Association.Solver
import ObstacleTracking.Proofs.Scalar.Exact

/-!
# Permutations of a square matrix

The columns that a permutation gives to rows, permutations that extend a partial one, and solvers
whose permutations cost least.
-/

namespace ObstacleTracking

namespace Permutation

variable {n : ℕ}

/-! ### Columns -/

theorem column?_val (p : Permutation n) (i : Fin n) :
    p.column? i.val = some (p.image.get i).val := by
  unfold column?
  rw [Vector.getElem?_eq_getElem i.isLt]
  rfl

theorem lt_of_column?_eq_some {p : Permutation n} {i j : ℕ} (h : p.column? i = some j) :
    i < n := by
  by_contra hn
  unfold column? at h
  rw [Vector.getElem?_eq_none (Nat.le_of_not_lt hn)] at h
  cases h

theorem get_injective (p : Permutation n) : Function.Injective p.image.get := by
  intro i k h
  have hi : i.val < p.image.toList.length := by
    rw [Vector.length_toList]
    exact i.isLt
  have hk : k.val < p.image.toList.length := by
    rw [Vector.length_toList]
    exact k.isLt
  have heq : p.image.toList[i.val] = p.image.toList[k.val] := by
    simpa [Vector.get] using h
  exact Fin.ext (p.nodup.getElem_inj_iff.mp heq)

theorem column?_inj {p : Permutation n} {i k j : ℕ} (hi : p.column? i = some j)
    (hk : p.column? k = some j) : i = k := by
  have hin := lt_of_column?_eq_some hi
  have hkn := lt_of_column?_eq_some hk
  rw [column?_val p ⟨i, hin⟩] at hi
  rw [column?_val p ⟨k, hkn⟩] at hk
  have hget : p.image.get ⟨i, hin⟩ = p.image.get ⟨k, hkn⟩ :=
    Fin.ext ((Option.some.inj hi).trans (Option.some.inj hk).symm)
  exact congrArg Fin.val (p.get_injective hget)

/-! ### Permutations with given columns -/

/-- The columns are the values of a one-to-one map. -/
def ofInjective (f : Fin n → Fin n) (hf : Function.Injective f) : Permutation n :=
  ⟨Vector.ofFn f, by
    rw [Vector.toList_ofFn]
    exact List.nodup_ofFn.mpr hf⟩

@[simp] theorem get_ofInjective {f : Fin n → Fin n} (hf : Function.Injective f) (i : Fin n) :
    (ofInjective f hf).image.get i = f i := by
  show (Vector.ofFn f)[i] = f i
  simp

/-- Pairs of rows and columns that share no row and no column are part of a permutation. -/
theorem exists_extending (s : Finset (Fin n × Fin n))
    (hrow : ∀ p ∈ s, ∀ q ∈ s, p.1 = q.1 → p = q) (hcol : ∀ p ∈ s, ∀ q ∈ s, p.2 = q.2 → p = q) :
    ∃ p : Permutation n, ∀ q ∈ s, p.image.get q.1 = q.2 := by
  have hcolumn : ∀ i : Fin n, ∃ j : Fin n, ∀ k, (i, k) ∈ s → k = j := by
    intro i
    by_cases hex : ∃ j, (i, j) ∈ s
    · obtain ⟨j, hj⟩ := hex
      exact ⟨j, fun k hk => congrArg Prod.snd (hrow _ hk _ hj rfl)⟩
    · exact ⟨i, fun k hk => absurd ⟨k, hk⟩ hex⟩
  choose f hf using hcolumn
  have hval : ∀ q ∈ s, f q.1 = q.2 := fun q hq => (hf q.1 q.2 hq).symm
  have hinj : Set.InjOn f (s.image Prod.fst : Finset (Fin n)) := by
    intro i hi k hk heq
    obtain ⟨p, hp, rfl⟩ := Finset.mem_image.mp hi
    obtain ⟨q, hq, rfl⟩ := Finset.mem_image.mp hk
    rw [hval p hp, hval q hq] at heq
    rw [hcol p hp q hq heq]
  obtain ⟨g, hg⟩ := Finset.exists_equiv_extend_of_card_eq (t := Finset.univ)
    (by rw [Finset.card_univ]) (Finset.subset_univ _) hinj
  have hbij : Function.Injective fun i => (g i : Fin n) :=
    fun i k h => g.injective (Subtype.ext h)
  refine ⟨ofInjective _ hbij, ?_⟩
  intro q hq
  rw [get_ofInjective, hg q.1 (Finset.mem_image_of_mem Prod.fst hq)]
  exact hval q hq

/-! ### Costs -/

variable {K α : Type} [Field K] [LinearOrder K] [Scalar α] [ExactScalar K α]

theorem cost_ofField (p : Permutation n) {a : Mat n n α} {w : Fin n → Fin n → K}
    (h : ∀ i j, a i j = ExactScalar.ofField (w i j)) :
    p.cost a = ExactScalar.ofField (∑ i, w i (p.image.get i)) := by
  unfold cost
  rw [← ExactScalar.sumFirstToLast_ofField]
  congr 1
  funext i
  exact h i (p.image.get i)

instance finite : Finite (Permutation n) := by
  refine Finite.of_injective (fun p : Permutation n => p.image.get) ?_
  intro p q h
  refine Permutation.ext (Vector.ext fun i hi => ?_)
  exact congrFun h ⟨i, hi⟩

end Permutation

/-! ### Exact solvers -/

/-- On a matrix of finite costs the solver finds a permutation, and none costs less. -/
def Solver.IsExact {α : Type} [Scalar α] (solver : Solver α) : Prop :=
  ∀ (n : ℕ) (a : Mat n n α), (∀ i j, Scalar.isFinite (a i j) = true) →
    ∃ p, solver n a = some p ∧ ∀ q : Permutation n, p.cost a ≤ q.cost a

open Classical in
/-- The solver that picks any of the cheapest permutations, if there are such. -/
noncomputable def Solver.cheapest (α : Type) [Scalar α] : Solver α := fun n a =>
  if h : ∃ p : Permutation n, ∀ q : Permutation n, p.cost a ≤ q.cost a then some h.choose else none

theorem Solver.isExact_cheapest {K α : Type} [Field K] [LinearOrder K] [Scalar α]
    [ExactScalar K α] : (Solver.cheapest α).IsExact := by
  intro n a ha
  have : Nonempty (Permutation n) := ⟨.ofInjective id Function.injective_id⟩
  obtain ⟨p, hp⟩ := Finite.exists_min fun p : Permutation n =>
    ∑ i, ExactScalar.value (a i (p.image.get i))
  have hcost : ∀ q : Permutation n,
      q.cost a = ExactScalar.ofField (∑ i, ExactScalar.value (a i (q.image.get i))) :=
    fun q => q.cost_ofField fun i j => (ExactScalar.ofField_value (ha i j)).symm
  have hex : ∃ p : Permutation n, ∀ q : Permutation n, p.cost a ≤ q.cost a := by
    refine ⟨p, ?_⟩
    intro q
    rw [hcost, hcost, ExactScalar.le_ofField]
    exact hp q
  exact ⟨hex.choose, dif_pos hex, hex.choose_spec⟩

end ObstacleTracking
