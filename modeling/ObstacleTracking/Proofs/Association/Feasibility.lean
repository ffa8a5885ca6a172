import ObstacleTracking.Proofs.Association.Matchings
import ObstacleTracking.Proofs.Association.Permutations

/-!
# Assignments are matchings

Whatever permutation a solver returns, and also when it returns none, the pairs that it picks in
a block are a matching of the block, and so are the pairs that the tracks choose one after
another. No law of the arithmetic is used.
-/

namespace ObstacleTracking

open Block Assignment

variable {α : Type} [Scalar α] {solver : Solver α} {c : CostMatrix α} {gate : α}

/-! ### The pairs of some choices -/

theorem mem_pairs_iff {tracks : List ℕ} {choices : List (Option ℕ)} {t d : ℕ} :
    (t, d) ∈ pairs tracks choices ↔
      ∃ i : ℕ, tracks[i]? = some t ∧ choices[i]? = some (some d) := by
  simp only [pairs, List.mem_filterMap, Option.map_eq_some_iff, Prod.exists]
  constructor
  · rintro ⟨s, choice, hmem, e, rfl, heq⟩
    obtain ⟨i, hi⟩ := List.mem_iff_getElem?.mp hmem
    obtain ⟨hs, hchoice⟩ := List.getElem?_zip_eq_some.mp hi
    cases heq
    exact ⟨i, hs, hchoice⟩
  · rintro ⟨i, ht, hd⟩
    refine ⟨t, some d, ?_, d, rfl, rfl⟩
    exact List.mem_iff_getElem?.mpr ⟨i, List.getElem?_zip_eq_some.mpr ⟨ht, hd⟩⟩

theorem pairs_map_none (tracks : List ℕ) : pairs tracks (tracks.map fun _ => none) = [] := by
  induction tracks with
  | nil => rfl
  | cons t tracks ih =>
    rw [List.map_cons, pairs_cons, ih]
    rfl

/-! ### The picks of a permutation -/

/-- The gated pairs of a block that a permutation of its padded matrix consists of. -/
def picks (c : CostMatrix α) (gate : α) (b : Block) {n : ℕ} (p : Permutation n) :
    List (ℕ × ℕ) :=
  pairs b.tracks <| b.tracks.mapIdx fun i t =>
    ((p.column? i).bind fun j => b.detections[j]?).filter (c.isGated gate t)

theorem mem_picks_iff {b : Block} {n : ℕ} {p : Permutation n} {t d : ℕ} :
    (t, d) ∈ picks c gate b p ↔
      ∃ i j, b.tracks[i]? = some t ∧ p.column? i = some j ∧ b.detections[j]? = some d ∧
        c.isGated gate t d = true := by
  unfold picks
  rw [mem_pairs_iff]
  constructor
  · rintro ⟨i, ht, hd⟩
    rw [List.getElem?_mapIdx, ht, Option.map_some, Option.some_inj,
      Option.filter_eq_some_iff, Option.bind_eq_some_iff] at hd
    obtain ⟨⟨j, hj, hd⟩, hg⟩ := hd
    exact ⟨i, j, ht, hj, hd, hg⟩
  · rintro ⟨i, j, ht, hj, hd, hg⟩
    refine ⟨i, ht, ?_⟩
    rw [List.getElem?_mapIdx, ht, Option.map_some, Option.some_inj,
      Option.filter_eq_some_iff, Option.bind_eq_some_iff]
    exact ⟨⟨j, hj, hd⟩, hg⟩

theorem getElem?_inj_of_nodup {l : List ℕ} (h : l.Nodup) {i k a : ℕ} (hi : l[i]? = some a)
    (hk : l[k]? = some a) : i = k :=
  (List.getElem?_inj (List.getElem?_eq_some_iff.mp hi).1 h).mp (hi.trans hk.symm)

theorem isMatching_picks {b : Block} (ht : b.tracks.Nodup) (hd : b.detections.Nodup) {n : ℕ}
    (p : Permutation n) : IsMatching c gate b (picks c gate b p).toFinset := by
  constructor
  · rintro ⟨t, d⟩ hp
    obtain ⟨i, j, hi, -⟩ := mem_picks_iff.mp (List.mem_toFinset.mp hp)
    exact List.mem_of_getElem? hi
  · rintro ⟨t, d⟩ hp
    obtain ⟨i, j, -, -, hj, -⟩ := mem_picks_iff.mp (List.mem_toFinset.mp hp)
    exact List.mem_of_getElem? hj
  · rintro ⟨t, d⟩ hp
    obtain ⟨i, j, -, -, -, hg⟩ := mem_picks_iff.mp (List.mem_toFinset.mp hp)
    exact hg
  · rintro ⟨t, d⟩ hp ⟨s, e⟩ hq (rfl : t = s)
    obtain ⟨i, j, hi, hij, hj, -⟩ := mem_picks_iff.mp (List.mem_toFinset.mp hp)
    obtain ⟨k, l, hk, hkl, hl, -⟩ := mem_picks_iff.mp (List.mem_toFinset.mp hq)
    have hik : i = k := getElem?_inj_of_nodup ht hi hk
    subst hik
    have hjl : j = l := Option.some.inj (hij.symm.trans hkl)
    subst hjl
    rw [Option.some.inj (hj.symm.trans hl)]
  · rintro ⟨t, d⟩ hp ⟨s, e⟩ hq (rfl : d = e)
    obtain ⟨i, j, hi, hij, hj, -⟩ := mem_picks_iff.mp (List.mem_toFinset.mp hp)
    obtain ⟨k, l, hk, hkl, hl, -⟩ := mem_picks_iff.mp (List.mem_toFinset.mp hq)
    have hjl : j = l := getElem?_inj_of_nodup hd hj hl
    subst hjl
    have hik : i = k := Permutation.column?_inj hij hkl
    subst hik
    rw [Option.some.inj (hi.symm.trans hk)]

/-! ### The solver's answer -/

theorem isMatching_solved (solver : Solver α) {b : Block} (ht : b.tracks.Nodup)
    (hd : b.detections.Nodup) :
    IsMatching c gate b (pairs b.tracks (solved solver c gate b)).toFinset := by
  fun_cases solved solver c gate b with
  | case1 t d =>
    by_cases hg : c.isGated gate t d = true
    · rw [if_pos hg, toFinset_pairs_cons]
      exact .singleton (List.mem_singleton_self t) (List.mem_singleton_self d) hg
    · rw [if_neg hg, toFinset_pairs_cons]
      exact .empty c gate _
  | case2 => exact .empty c gate _
  | case3 tracks =>
    rw [pairs_map_none]
    exact .empty c gate _
  | case4 tracks detections _ _ _ size h =>
    rw [h, pairs_map_none]
    exact .empty c gate _
  | case5 tracks detections _ _ _ size p h =>
    rw [h]
    exact isMatching_picks ht hd p

/-! ### Choices one after another -/

theorem choice?_mem {target sofar : Total α} {t : ℕ} {later detections : List ℕ}
    {d : Option ℕ} (h : choice? solver c gate target sofar t later detections = some d) :
    d ∈ candidates c gate t detections :=
  List.mem_of_find?_eq_some h

theorem isMatching_choices? {target sofar : Total α} {tracks detections : List ℕ}
    {choices : List (Option ℕ)}
    (h : choices? solver c gate target sofar tracks detections = some choices)
    (ht : tracks.Nodup) :
    IsMatching c gate ⟨tracks, detections⟩ (pairs tracks choices).toFinset := by
  induction tracks generalizing sofar detections choices with
  | nil => exact .empty c gate _
  | cons t later ih =>
    simp only [choices?, Option.bind_eq_bind, Option.bind_eq_some_iff] at h
    obtain ⟨d, hd, rest, hrest, heq⟩ := h
    cases heq
    obtain ⟨htl, hl⟩ := List.nodup_cons.mp ht
    rw [toFinset_pairs_cons]
    exact (ih hrest hl).withChoice htl (choice?_mem hd)

theorem isMatching_pairsOf (solver : Solver α) {b : Block} (ht : b.tracks.Nodup)
    (hd : b.detections.Nodup) : IsMatching c gate b (pairsOf solver c gate b).toFinset := by
  unfold pairsOf
  dsimp only
  cases h : choices? solver c gate
      (Total.ofPairs c (pairs b.tracks (solved solver c gate b))) .zero b.tracks b.detections with
  | none => exact isMatching_solved solver ht hd
  | some choices => exact isMatching_choices? h ht

theorem pairwise_pairsOf (solver : Solver α) {b : Block} (h : b.tracks.Pairwise (· < ·)) :
    (pairsOf solver c gate b).Pairwise fun p q => p.1 < q.1 :=
  pairwise_pairs h _

end ObstacleTracking
