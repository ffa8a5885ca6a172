import Mathlib.Combinatorics.SimpleGraph.Connectivity.Connected
import ObstacleTracking.Proofs.Association.Sides

/-!
# Blocks and paths of gated pairs

The gated pairs of a cost matrix are the edges of a graph on its tracks and detections. The
connected blocks are exactly the connected components of this graph that have an edge: what is
reachable from the first track of a block lies on its side of every split of the matrix, and no edge
leads out of a block.
-/

namespace ObstacleTracking

variable {α : Type} [Scalar α]

namespace CostMatrix

/-- A row or a column of a cost matrix. -/
inductive Member where
  | track (i : ℕ)
  | detection (i : ℕ)

/-- A track and a detection of the matrix whose cost passes the gate. -/
def Joined (c : CostMatrix α) (gate : α) : Member → Member → Prop
  | .track t, .detection d => t < c.rows ∧ d < c.cols ∧ c.isGated gate t d = true
  | _, _ => False

/-- The graph whose edges are the gated pairs. -/
def gatedGraph (c : CostMatrix α) (gate : α) : SimpleGraph Member where
  Adj v w := c.Joined gate v w ∨ c.Joined gate w v
  symm := ⟨fun _ _ h => h.symm⟩
  loopless := ⟨fun v h => by cases v <;> exact h.elim id id⟩

theorem joined_iff {c : CostMatrix α} {gate : α} {v w : Member} :
    c.Joined gate v w ↔ ∃ t d, v = .track t ∧ w = .detection d ∧
      t < c.rows ∧ d < c.cols ∧ c.isGated gate t d = true := by
  constructor
  · intro h
    cases v <;> cases w
    case track.detection t d => exact ⟨t, d, rfl, rfl, h⟩
    all_goals exact h.elim
  · rintro ⟨t, d, rfl, rfl, h⟩
    exact h

end CostMatrix

namespace Block

open CostMatrix (Member joined_iff)

def Has (b : Block) : Member → Prop
  | .track t => t ∈ b.tracks
  | .detection d => d ∈ b.detections

variable {c : CostMatrix α} {gate : α} {v w : Member} {t d : ℕ} {b b' : Block}

/-! ### No edge leads out of a block -/

theorem exists_has_of_adj (h : (c.gatedGraph gate).Adj v w) :
    ∃ b ∈ components c gate, b.Has v ∧ b.Has w := by
  have hjoined : ∀ {v w}, c.Joined gate v w → ∃ b ∈ components c gate, b.Has v ∧ b.Has w := by
    intro v w h
    obtain ⟨t, d, rfl, rfl, ht, hd, hgated⟩ := joined_iff.mp h
    exact exists_mem_componentsOf (List.mem_range.mpr ht) (List.mem_range.mpr hd) hgated
  rcases h with h | h
  · exact hjoined h
  · obtain ⟨b, hb, hw, hv⟩ := hjoined h
    exact ⟨b, hb, hv, hw⟩

/-- Blocks that share a member are the same block. -/
theorem eq_of_has (hb : b ∈ components c gate) (hb' : b' ∈ components c gate) (hv : b.Has v)
    (hv' : b'.Has v) : b = b' := by
  by_contra hne
  have hapart := (pairwise_apart_componentsOf List.nodup_range).forall hb hb' hne
  cases v with
  | track t => exact hapart.tracks t hv hv'
  | detection d => exact hapart.detections d hv hv'

theorem has_of_reachable (hb : b ∈ components c gate) (hv : b.Has v)
    (h : (c.gatedGraph gate).Reachable v w) : b.Has w := by
  rw [SimpleGraph.reachable_iff_reflTransGen] at h
  induction h with
  | refl => exact hv
  | tail _ hadj ih =>
    obtain ⟨b', hb', hu, hw⟩ := exists_has_of_adj hadj
    rw [eq_of_has hb hb' ih hu]
    exact hw

/-! ### Paths inside a block -/

open Classical in
/-- Reachability from a track splits every part of the matrix. -/
theorem isSplit_reachable (gate : α) (s : ℕ) {tracks detections : List ℕ}
    (ht : ∀ t ∈ tracks, t < c.rows) (hd : ∀ d ∈ detections, d < c.cols) :
    IsSplit c gate (fun t => decide ((c.gatedGraph gate).Reachable (.track s) (.track t)))
      (fun d => decide ((c.gatedGraph gate).Reachable (.track s) (.detection d)))
      tracks detections := by
  intro t htmem d hdmem hgated
  have hadj : (c.gatedGraph gate).Adj (.track t) (.detection d) :=
    Or.inl ⟨ht t htmem, hd d hdmem, hgated⟩
  rw [decide_eq_decide]
  constructor
  · intro h
    exact h.trans hadj.reachable
  · intro h
    exact h.trans hadj.symm.reachable

/-- The first track of a block: it has a gated pair, and all members of the block can be reached
from it. -/
structure IsSource (c : CostMatrix α) (gate : α) (t : ℕ) (b : Block) : Prop where
  track_mem : t ∈ b.tracks
  exists_detection : ∃ d ∈ b.detections, (c.gatedGraph gate).Adj (.track t) (.detection d)
  reachable : ∀ v, b.Has v → (c.gatedGraph gate).Reachable (.track t) v

/-- The block that a search from a track finds has this track as its source. -/
theorem isSource_searched {tracks detections : List ℕ} (ht : ∀ u ∈ t :: tracks, u < c.rows)
    (hd : ∀ e ∈ detections, e < c.cols) (hjoins : joins c gate detections t = true) :
    let rest := unreached c gate [t] ⟨tracks, detections⟩
    IsSource c gate t ⟨t :: tracks.filter fun k => !rest.tracks.contains k,
      detections.filter fun d => !rest.detections.contains d⟩ := by
  intro rest
  classical
  have hsplit := isSplit_reachable gate t ht hd
  obtain ⟨htracks, hdetections⟩ := track_of_reached ⟨tracks, detections⟩ hsplit
    (decide_eq_true (SimpleGraph.Reachable.refl _))
  constructor
  · exact List.mem_cons_self
  · obtain ⟨d, hmem, hgated⟩ := joins_iff.mp hjoins
    refine ⟨d, List.mem_filter.mpr ⟨hmem, ?_⟩, Or.inl ⟨ht t List.mem_cons_self, hd d hmem, hgated⟩⟩
    have hmiss : d ∉ rest.detections := by
      intro hrest
      rw [not_isGated_of_reached (Or.inl (List.mem_singleton_self t)) hrest] at hgated
      cases hgated
    simpa using hmiss
  · intro v hv
    cases v with
    | track u =>
      rcases List.mem_cons.mp hv with heq | hv
      · rw [heq]
      · obtain ⟨hu, hmiss⟩ := List.mem_filter.mp hv
        exact of_decide_eq_true (htracks u hu (by simpa using hmiss))
    | detection e =>
      obtain ⟨he, hmiss⟩ := List.mem_filter.mp hv
      exact of_decide_eq_true (hdetections e he (by simpa using hmiss))

theorem exists_isSource {tracks detections : List ℕ} (ht : ∀ u ∈ tracks, u < c.rows)
    (hd : ∀ e ∈ detections, e < c.cols) (hb : b ∈ componentsOf c gate tracks detections) :
    ∃ t, IsSource c gate t b := by
  fun_induction componentsOf c gate tracks detections with
  | case1 detections => exact absurd hb List.not_mem_nil
  | case2 detections t tracks hjoins rest ih =>
    rcases List.mem_cons.mp hb with rfl | hb
    · exact ⟨t, isSource_searched ht hd hjoins⟩
    · refine ih ?_ ?_ hb
      · intro u hu
        exact ht u (List.mem_cons_of_mem t ((tracks_unreached_sublist ..).subset hu))
      · intro e he
        exact hd e ((detections_unreached_sublist ..).subset he)
  | case3 detections t tracks _ ih =>
    exact ih (fun u hu => ht u (List.mem_cons_of_mem t hu)) hd hb

theorem exists_isSource_components (hb : b ∈ components c gate) : ∃ t, IsSource c gate t b :=
  exists_isSource (fun _ => List.mem_range.mp) (fun _ => List.mem_range.mp) hb

/-- Every member of a block has a gated pair. -/
theorem exists_adj_of_has (hb : b ∈ components c gate) (hv : b.Has v) :
    ∃ w, (c.gatedGraph gate).Adj v w := by
  obtain ⟨t, ht⟩ := exists_isSource_components hb
  by_cases heq : v = .track t
  · obtain ⟨d, -, hadj⟩ := ht.exists_detection
    rw [heq]
    exact ⟨.detection d, hadj⟩
  · have hreach := (ht.reachable v hv).symm
    rw [SimpleGraph.reachable_iff_reflTransGen] at hreach
    rcases hreach.cases_head with heq' | ⟨w, hadj, -⟩
    · exact absurd heq' heq
    · exact ⟨w, hadj⟩

/-! ### Order -/

/-- Some track of the first block comes before all tracks of the second. -/
def StartsBefore (b b' : Block) : Prop := ∃ t ∈ b.tracks, ∀ u ∈ b'.tracks, t < u

theorem pairwise_startsBefore_componentsOf {tracks detections : List ℕ}
    (h : tracks.Pairwise (· < ·)) :
    (componentsOf c gate tracks detections).Pairwise StartsBefore := by
  fun_induction componentsOf c gate tracks detections with
  | case1 detections => exact List.Pairwise.nil
  | case2 detections t tracks _ rest ih =>
    have hsub : rest.tracks.Sublist tracks := tracks_unreached_sublist ..
    obtain ⟨ht, htracks⟩ := List.pairwise_cons.mp h
    refine List.pairwise_cons.mpr ⟨?_, ih (htracks.sublist hsub)⟩
    intro b hb
    refine ⟨t, List.mem_cons_self, ?_⟩
    intro u hu
    exact ht u (hsub.subset ((sublist_of_mem_componentsOf hb).1.subset hu))
  | case3 detections t tracks _ ih => exact ih (List.pairwise_cons.mp h).2

/-! ### The connected components -/

/-- The connected blocks of a matrix are the connected components of the graph of its gated pairs,
those of single tracks and detections left out. Each has a track and a detection and lists both
kinds in ascending order, and the blocks are ordered by their lowest tracks, so none is listed
twice. Whoever has a gated pair is in exactly one block and nobody else is in any, and two that have
gated pairs are in one block exactly if a path of gated pairs joins them. -/
theorem components_eq_connected (c : CostMatrix α) (gate : α) :
    (∀ b ∈ components c gate, b.tracks ≠ [] ∧ b.detections ≠ [] ∧ b.Ascending) ∧
      (components c gate).Pairwise StartsBefore ∧
      (∀ v, (∃ w, (c.gatedGraph gate).Adj v w) → ∃! b, b ∈ components c gate ∧ b.Has v) ∧
      (∀ v, (¬ ∃ w, (c.gatedGraph gate).Adj v w) → ∀ b ∈ components c gate, ¬ b.Has v) ∧
      ∀ v w, (∃ x, (c.gatedGraph gate).Adj v x) → (∃ x, (c.gatedGraph gate).Adj w x) →
        ((∃ b ∈ components c gate, b.Has v ∧ b.Has w) ↔ (c.gatedGraph gate).Reachable v w) := by
  refine ⟨?_, pairwise_startsBefore_componentsOf List.pairwise_lt_range, ?_, ?_, ?_⟩
  · intro b hb
    obtain ⟨t, ht⟩ := exists_isSource_components hb
    obtain ⟨d, hd, -⟩ := ht.exists_detection
    obtain ⟨htracks, hdetections⟩ := sublist_of_mem_componentsOf hb
    exact ⟨List.ne_nil_of_mem ht.track_mem, List.ne_nil_of_mem hd,
      List.pairwise_lt_range.sublist htracks, List.pairwise_lt_range.sublist hdetections⟩
  · intro v ⟨w, hadj⟩
    obtain ⟨b, hb, hv, -⟩ := exists_has_of_adj hadj
    exact ⟨b, ⟨hb, hv⟩, fun b' h => eq_of_has h.1 hb h.2 hv⟩
  · intro v hnone b hb hv
    exact hnone (exists_adj_of_has hb hv)
  · intro v w ⟨x, hadj⟩ _
    constructor
    · rintro ⟨b, hb, hv, hw⟩
      obtain ⟨t, ht⟩ := exists_isSource_components hb
      exact (ht.reachable v hv).symm.trans (ht.reachable w hw)
    · intro hreach
      obtain ⟨b, hb, hv, -⟩ := exists_has_of_adj hadj
      exact ⟨b, hb, hv, has_of_reachable hb hv hreach⟩

end Block

end ObstacleTracking
