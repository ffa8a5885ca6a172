import ObstacleTracking.Association.MachineCosts
import ObstacleTracking.Proofs.Association.Parts
import ObstacleTracking.Proofs.Association.Places
import ObstacleTracking.Scalar.Binary64

/-!
# What an assignment depends on

Costs that do not pass the gate may be any others that do not. And if no gated pair joins two sides
of a matrix, what is matched in the matrix is what is matched in the sides, each taken as a matrix
of its own. The solver may be any function of its matrix: it is asked the same questions.
-/

namespace ObstacleTracking

open Block Assignment

variable {α : Type} [Scalar α] {c c' : CostMatrix α} {gate : α}

/-! ### Costs that do not pass the gate -/

/-- All tracks and detections keep their numbers. -/
def Renumbering.same : Renumbering :=
  ⟨id, id, Function.injective_id, Function.injective_id⟩

@[simp] theorem Renumbering.block_same (b : Block) : Renumbering.same.block b = b := by
  simp [Renumbering.block, Renumbering.same]

@[simp] theorem Renumbering.pair_same : Renumbering.same.pair = id := rfl

/-- Two matrices of one size that differ only in costs that do not pass the gate. -/
structure CostMatrix.SameGated (gate : α) (c c' : CostMatrix α) : Prop where
  rows : c'.rows = c.rows
  cols : c'.cols = c.cols
  entry : ∀ i < c.rows, ∀ j < c.cols,
    c'.entry i j = c.entry i j ∨ c.isGated gate i j = false ∧ c'.isGated gate i j = false

namespace CostMatrix.SameGated

variable (h : c.SameGated gate c')

include h

theorem whole_eq : whole c' = whole c := by
  simp [whole, h.rows, h.cols]

theorem agreesOnGated : Renumbering.same.AgreesOnGated gate c c' (whole c) := by
  constructor
  · intro i hi j hj
    show c'.isGated gate i j = c.isGated gate i j
    rcases h.entry i (List.mem_range.mp hi) j (List.mem_range.mp hj) with heq | ⟨hleft, hright⟩
    · simp [isGated, heq]
    · rw [hleft, hright]
  · intro i hi j hj hgated
    rcases h.entry i (List.mem_range.mp hi) j (List.mem_range.mp hj) with heq | ⟨hleft, -⟩
    · exact heq
    · simp [hleft] at hgated

theorem components_eq : components c' gate = components c gate := by
  have hblocks := Renumbering.componentsOf_block h.agreesOnGated
  have hsame : Renumbering.same.block = id := funext Renumbering.block_same
  rw [hsame, List.map_id] at hblocks
  simpa [components, whole, Renumbering.same, h.rows, h.cols] using hblocks

theorem blockwise_eq (solver : Solver α) : blockwise solver c' gate = blockwise solver c gate := by
  have hpairs : ∀ b ∈ components c gate,
      pairsOfComponent solver c' gate b = pairsOfComponent solver c gate b := by
    intro b hb
    have hmap := Renumbering.pairsOfComponent_block solver (h.agreesOnGated.subset
      (tracks_sublist_of_mem_components hb).subset (detections_sublist_of_mem_components hb).subset)
    simpa using hmap
  unfold blockwise
  rw [h.whole_eq, h.components_eq, List.flatMap_congr hpairs]

theorem global_eq (solver : Solver α) : global solver c' gate = global solver c gate := by
  have hpairs : pairsOf solver c' gate (whole c) = pairsOf solver c gate (whole c) := by
    simpa using Renumbering.pairsOf_block solver h.agreesOnGated
  unfold global
  rw [h.whole_eq, hpairs]

end CostMatrix.SameGated

/-! ### Sides as matrices -/

/-- The costs of the tracks and detections of a block, in order. -/
def CostMatrix.ofBlock (c : CostMatrix α) (b : Block) : CostMatrix α :=
  .ofFn b.tracks.length b.detections.length fun i j =>
    c.entry (b.tracks.getD i 0) (b.detections.getD j 0)

omit [Scalar α] in
@[simp] theorem Block.mem_tracks_whole {i : ℕ} : i ∈ (whole c).tracks ↔ i < c.rows :=
  List.mem_range

omit [Scalar α] in
@[simp] theorem Block.mem_detections_whole {j : ℕ} : j ∈ (whole c).detections ↔ j < c.cols :=
  List.mem_range

/-- The track and the detection that stand at two places of a block. -/
def Block.pairAt (b : Block) (p : ℕ × ℕ) : ℕ × ℕ := (b.tracks.getD p.1 0, b.detections.getD p.2 0)

@[simp] theorem CostMatrix.rows_ofBlock (c : CostMatrix α) (b : Block) :
    (c.ofBlock b).rows = b.tracks.length :=
  CostMatrix.rows_ofFn _ _ _

@[simp] theorem CostMatrix.cols_ofBlock (c : CostMatrix α) (b : Block) :
    (c.ofBlock b).cols = b.detections.length := rfl

theorem CostMatrix.entry_ofBlock (c : CostMatrix α) {b : Block} {p : ℕ × ℕ}
    (ht : p.1 < b.tracks.length) (hd : p.2 < b.detections.length) :
    (c.ofBlock b).entry p.1 p.2 = c.entry (b.pairAt p).1 (b.pairAt p).2 :=
  CostMatrix.entry_ofFn _ ht hd

/-- Places count the numbers that are chosen. -/
theorem getElem_filter_range {p : ℕ → Bool} {n k : ℕ} (hk : k < ((List.range n).filter p).length) :
    ((List.range n).filter p)[k] = chosenPlace ((List.range n).map p) k := by
  have hsome := getElem?_filter p (List.range n) k
  rw [List.getElem?_eq_getElem hk, eq_comm, List.getElem?_eq_some_iff] at hsome
  obtain ⟨hlt, heq⟩ := hsome
  rw [← heq, List.getElem_range]

theorem getD_filter_range {p : ℕ → Bool} {n k : ℕ} (hk : k < ((List.range n).filter p).length) :
    ((List.range n).filter p).getD k 0 = chosenPlace ((List.range n).map p) k := by
  simp [hk, getElem_filter_range hk]

theorem filter_range_eq_map (p : ℕ → Bool) (n : ℕ) :
    (List.range n).filter p =
      (List.range ((List.range n).filter p).length).map (chosenPlace ((List.range n).map p)) := by
  refine List.ext_getElem (by simp) ?_
  intro k hk _
  rw [getElem_filter_range hk, List.getElem_map, List.getElem_range]

/-- The places of the tracks and the detections of a side in the whole. -/
def Renumbering.ofSide (c : CostMatrix α) (track detection : ℕ → Bool) : Renumbering :=
  ⟨chosenPlace ((List.range c.rows).map track), chosenPlace ((List.range c.cols).map detection),
    (chosenPlace_strictMono _).injective, (chosenPlace_strictMono _).injective⟩

section Sides

variable {track detection : ℕ → Bool}

omit [Scalar α] in
theorem pair_ofSide {p : ℕ × ℕ} (ht : p.1 < ((whole c).side track detection).tracks.length)
    (hd : p.2 < ((whole c).side track detection).detections.length) :
    (Renumbering.ofSide c track detection).pair p = ((whole c).side track detection).pairAt p :=
  Prod.ext (getD_filter_range ht).symm (getD_filter_range hd).symm

/-- A side is a part of the matrix. -/
theorem isPart_ofBlock_side
    (h : IsSplit c gate track detection (whole c).tracks (whole c).detections) :
    IsPart gate (.ofSide c track detection) track detection
      (c.ofBlock ((whole c).side track detection)) c where
  tracks := by
    rw [CostMatrix.rows_ofBlock]
    exact filter_range_eq_map track c.rows
  detections := filter_range_eq_map detection c.cols
  ascending := chosenPlace_strictMono _
  agrees := by
    intro i hi j hj
    rw [mem_tracks_whole, CostMatrix.rows_ofBlock] at hi
    rw [mem_detections_whole, CostMatrix.cols_ofBlock] at hj
    have hentry := c.entry_ofBlock (p := (i, j)) hi hj
    rw [← pair_ofSide hi hj] at hentry
    exact hentry.symm
  split := h

/-- What is matched on a side is what is matched in it alone. -/
theorem filter_matched_side (solver : Solver α)
    (h : IsSplit c gate track detection (whole c).tracks (whole c).detections) :
    let side := (whole c).side track detection
    (blockwise solver c gate).matched.filter (fun p => track p.1) =
      (blockwise solver (c.ofBlock side) gate).matched.map side.pairAt := by
  intro side
  rw [(isPart_ofBlock_side h).matched_eq solver]
  refine List.map_congr_left ?_
  intro p hp
  have hm := isMatching_blockwise solver (c.ofBlock side) gate
  have ht := hm.track_mem p (List.mem_toFinset.mpr hp)
  have hd := hm.detection_mem p (List.mem_toFinset.mpr hp)
  rw [mem_tracks_whole, CostMatrix.rows_ofBlock] at ht
  rw [mem_detections_whole, CostMatrix.cols_ofBlock] at hd
  exact pair_ofSide ht hd

end Sides

/-- Pairs that come in the order of their tracks are those pairs sorted. -/
theorem eq_mergeSort_of_perm {l l' : List (ℕ × ℕ)} (hl : l.Pairwise fun p q => p.1 < q.1)
    (hperm : l'.Perm l) : l = l'.mergeSort fun p q => p.1 ≤ q.1 := by
  have hsorted : (l'.mergeSort fun p q => p.1 ≤ q.1).Perm l := (List.mergeSort_perm _ _).trans hperm
  have hnodup : (l.map Prod.fst).Nodup := List.pairwise_map.mpr (hl.imp Nat.ne_of_lt)
  refine List.Perm.eq_of_pairwise ?_ (hl.imp Nat.le_of_lt) (pairwise_mergeSort_fst l') hsorted.symm
  intro p q hp hq hpq hqp
  exact List.inj_on_of_nodup_map hnodup hp (hsorted.mem_iff.mp hq) (Nat.le_antisymm hpq hqp)

/-- Without gated pairs between two sides of a matrix, the pairs that are matched in it are those
that are matched in each side, under the numbers that the side has in the matrix. And another matrix
that differs only in costs that do not pass the gate is assigned alike. -/
theorem blockwise_isLocal (solver : Solver α) (c : CostMatrix α) (gate : α) :
    (∀ track detection : ℕ → Bool,
      (∀ i < c.rows, ∀ j < c.cols, c.isGated gate i j = true → track i = detection j) →
      let one := (whole c).side track detection
      let other := (whole c).side (fun i => !track i) (fun j => !detection j)
      (blockwise solver c gate).matched =
        ((blockwise solver (c.ofBlock one) gate).matched.map one.pairAt ++
          (blockwise solver (c.ofBlock other) gate).matched.map other.pairAt).mergeSort
            fun p q => p.1 ≤ q.1) ∧
      ∀ c', c.SameGated gate c' →
        blockwise solver c' gate = blockwise solver c gate ∧
          global solver c' gate = global solver c gate := by
  constructor
  · intro track detection hsides one other
    have h : IsSplit c gate track detection (whole c).tracks (whole c).detections :=
      fun i hi j hj => hsides i (List.mem_range.mp hi) j (List.mem_range.mp hj)
    have hone := filter_matched_side solver h
    have hother := filter_matched_side solver h.other
    refine eq_mergeSort_of_perm (pairwise_matched_blockwise solver c gate) ?_
    rw [← hone, ← hother]
    exact List.filter_append_perm _ _
  · intro c' h
    exact ⟨h.blockwise_eq solver, h.global_eq solver⟩

/-- Costs of the outer tracks and detections among each other, and of the middle ones. -/
def CostMatrix.interleaved : CostMatrix Float :=
  ⟨3, #[#[0.5, 0.0 / 0.0, 0.25], #[7.5, 0.5, 1.0 / 0.0], #[0.25, 9.0, 0.5]]⟩

/-- The same with other costs that do not pass a gate of one. -/
def CostMatrix.interleavedAnew : CostMatrix Float :=
  ⟨3, #[#[0.5, 1.5, 0.25], #[0.0 / 0.0, 0.5, 0.0 / 0.0], #[0.25, 1.0 / 0.0, 0.5]]⟩

theorem CostMatrix.sameGated_interleaved : interleaved.SameGated 1.0 interleavedAnew := by
  have hsame : ∀ i < 3, ∀ j < 3, (i != 1) = (j != 1) →
      interleavedAnew.entry i j = interleaved.entry i j := by
    intro i hi j hj hside
    interval_cases i <;> interval_cases j <;> simp_all [entry, interleaved, interleavedAnew]
  have hacross : ∀ i < 3, ∀ j < 3, (i != 1) ≠ (j != 1) →
      interleaved.isGated 1.0 i j = false ∧ interleavedAnew.isGated 1.0 i j = false := by
    decide
  have hrows : interleavedAnew.rows = interleaved.rows := by decide
  have hcols : interleavedAnew.cols = interleaved.cols := rfl
  refine ⟨hrows, hcols, ?_⟩
  intro i hi j hj
  exact (em _).imp (hsame i hi j hj) (hacross i hi j hj)

theorem blockwise_isLocal_interleaved :
    let c := CostMatrix.interleaved
    let outer : Block := ⟨[0, 2], [0, 2]⟩
    let middle : Block := ⟨[1], [1]⟩
    (blockwise Solver.exact c 1.0).matched =
        ((blockwise Solver.exact (c.ofBlock outer) 1.0).matched.map outer.pairAt ++
          (blockwise Solver.exact (c.ofBlock middle) 1.0).matched.map middle.pairAt).mergeSort
            (fun p q => p.1 ≤ q.1) ∧
      blockwise Solver.exact CostMatrix.interleavedAnew 1.0 = blockwise Solver.exact c 1.0 := by
  intro c outer middle
  obtain ⟨hsides, hgated⟩ := blockwise_isLocal Solver.exact c 1.0
  have houter : (whole c).side (· != 1) (· != 1) = outer := by decide
  have hmiddle : (whole c).side (fun i => !(i != 1)) (fun j => !(j != 1)) = middle := by decide
  have hmatched := hsides (· != 1) (· != 1) (by decide)
  rw [houter, hmiddle] at hmatched
  exact ⟨hmatched, (hgated _ CostMatrix.sameGated_interleaved).1⟩

end ObstacleTracking
