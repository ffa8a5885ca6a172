import ObstacleTracking.Proofs.Association.Agreement
import ObstacleTracking.Proofs.Association.Renumber
import ObstacleTracking.Proofs.Association.Sides

/-!
# Parts of a cost matrix

A side of a matrix that has no gated pair with the other side, taken as a matrix of its own. What
is matched in it, and what is left over, is that part of what is matched and left over in the whole.
-/

namespace ObstacleTracking

open Block Assignment

variable {α : Type} [Scalar α]

/-- A matrix has the costs of one side of another, in order, and no gated pair leaves the side. -/
structure IsPart (gate : α) (r : Renumbering) (track detection : ℕ → Bool) (c c' : CostMatrix α) :
    Prop where
  tracks : (List.range c'.rows).filter track = (List.range c.rows).map r.track
  detections : (List.range c'.cols).filter detection = (List.range c.cols).map r.detection
  ascending : StrictMono r.track
  agrees : r.Agrees c c' (whole c)
  split : IsSplit c' gate track detection (whole c').tracks (whole c').detections

namespace IsPart

variable {gate : α} {r : Renumbering} {track detection : ℕ → Bool} {c c' : CostMatrix α}

theorem track_of_lt (h : IsPart gate r track detection c c') {i : ℕ} (hi : i < c.rows) :
    r.track i < c'.rows ∧ track (r.track i) = true := by
  have hmem := List.mem_map_of_mem (f := r.track) (List.mem_range.mpr hi)
  rw [← h.tracks] at hmem
  obtain ⟨hlt, htrack⟩ := List.mem_filter.mp hmem
  exact ⟨List.mem_range.mp hlt, htrack⟩

theorem detection_of_lt (h : IsPart gate r track detection c c') {j : ℕ} (hj : j < c.cols) :
    r.detection j < c'.cols ∧ detection (r.detection j) = true := by
  have hmem := List.mem_map_of_mem (f := r.detection) (List.mem_range.mpr hj)
  rw [← h.detections] at hmem
  obtain ⟨hlt, hdetection⟩ := List.mem_filter.mp hmem
  exact ⟨List.mem_range.mp hlt, hdetection⟩

/-- The connected blocks of the part are those of the whole on its side. -/
theorem components_eq (h : IsPart gate r track detection c c') :
    (components c' gate).filter (fun b => b.tracks.all track) =
      (components c gate).map r.block := by
  have hside := componentsOf_side h.split
  rw [show (whole c').tracks = List.range c'.rows from rfl,
    show (whole c').detections = List.range c'.cols from rfl, h.tracks, h.detections] at hside
  exact hside.symm.trans (Renumbering.componentsOf_block (h.agrees.onGated gate))

theorem pairsOfComponent_eq (h : IsPart gate r track detection c c') (solver : Solver α) {b : Block}
    (hb : b ∈ components c gate) :
    pairsOfComponent solver c' gate (r.block b) = (pairsOfComponent solver c gate b).map r.pair :=
  Renumbering.pairsOfComponent_block solver ((h.agrees.onGated gate).subset
    (tracks_sublist_of_mem_components hb).subset (detections_sublist_of_mem_components hb).subset)

/-- The block of a pair is on the side of its track, so it is a block of the part. -/
theorem exists_block_of_mem (h : IsPart gate r track detection c c') {b : Block} {t d : ℕ}
    (hb : b ∈ components c' gate) (ht : t ∈ b.tracks) (hd : d ∈ b.detections)
    (hgated : c'.isGated gate t d = true) (htrack : track t = true) :
    ∃ b' ∈ components c gate, r.block b' = b := by
  have ht' := (tracks_sublist_of_mem_components hb).subset ht
  have hd' := (detections_sublist_of_mem_components hb).subset hd
  have hdetection : detection d = true := (h.split t ht' d hd' hgated).symm.trans htrack
  obtain ⟨b₁, hb₁, hmem₁, -⟩ := exists_mem_componentsOf (List.mem_filter.mpr ⟨ht', htrack⟩)
    (List.mem_filter.mpr ⟨hd', hdetection⟩) hgated
  rw [componentsOf_side h.split] at hb₁
  have heq : b = b₁ := eq_of_track_mem hb (List.mem_filter.mp hb₁).1 ht hmem₁
  rw [← heq] at hb₁
  have hside : b ∈ (components c' gate).filter fun b => b.tracks.all track := hb₁
  rw [h.components_eq] at hside
  exact List.mem_map.mp hside

theorem mem_matched_iff (h : IsPart gate r track detection c c') (solver : Solver α) {p : ℕ × ℕ} :
    p ∈ (blockwise solver c' gate).matched ∧ track p.1 = true ↔
      p ∈ (blockwise solver c gate).matched.map r.pair := by
  rw [mem_matched_blockwise, List.mem_map]
  constructor
  · intro hp
    obtain ⟨⟨b, hb, hmem⟩, htrack⟩ := hp
    have hmatching := isMatching_pairsOfComponent solver hb
    have hp := List.mem_toFinset.mpr hmem
    obtain ⟨b', hb', rfl⟩ := h.exists_block_of_mem hb (hmatching.track_mem p hp)
      (hmatching.detection_mem p hp) (hmatching.gated p hp) htrack
    rw [h.pairsOfComponent_eq solver hb'] at hmem
    obtain ⟨q, hq, rfl⟩ := List.mem_map.mp hmem
    exact ⟨q, mem_matched_blockwise.mpr ⟨b', hb', hq⟩, rfl⟩
  · intro hp
    obtain ⟨q, hq, rfl⟩ := hp
    obtain ⟨b', hb', hmem⟩ := mem_matched_blockwise.mp hq
    have hside := List.mem_map_of_mem (f := r.block) hb'
    rw [← h.components_eq] at hside
    have hq' := List.mem_map_of_mem (f := r.pair) hmem
    rw [← h.pairsOfComponent_eq solver hb'] at hq'
    refine ⟨⟨r.block b', (List.mem_filter.mp hside).1, hq'⟩, ?_⟩
    have ht := (isMatching_pairsOfComponent solver hb').track_mem q (List.mem_toFinset.mpr hmem)
    exact List.all_eq_true.mp (List.mem_filter.mp hside).2 _ (List.mem_map_of_mem ht)

/-- What is matched in the part is what is matched in the whole on its side. -/
theorem matched_eq (h : IsPart gate r track detection c c') (solver : Solver α) :
    (blockwise solver c' gate).matched.filter (fun p => track p.1) =
      (blockwise solver c gate).matched.map r.pair := by
  refine matched_ext ((pairwise_matched_blockwise solver c' gate).filter _) ?_ ?_
  · refine List.pairwise_map.mpr ((pairwise_matched_blockwise solver c gate).imp ?_)
    intro p q hpq
    exact h.ascending hpq
  · ext p
    rw [List.mem_toFinset, List.mem_toFinset, List.mem_filter]
    exact h.mem_matched_iff solver

/-- What is left over of the part is what is left over of the whole on its side. -/
theorem unmatchedDetections_eq (h : IsPart gate r track detection c c') (solver : Solver α) :
    (blockwise solver c' gate).unmatchedDetections.filter detection =
      (blockwise solver c gate).unmatchedDetections.map r.detection := by
  have hmatched : ∀ j ∈ List.range c.cols,
      (((blockwise solver c' gate).matched.map Prod.snd).contains (r.detection j)) =
        ((blockwise solver c gate).matched.map Prod.snd).contains j := by
    intro j hj
    obtain ⟨-, hdetection⟩ := h.detection_of_lt (List.mem_range.mp hj)
    rw [Bool.eq_iff_iff, List.contains_iff_mem, List.contains_iff_mem, List.mem_map, List.mem_map]
    constructor
    · intro hp
      obtain ⟨p, hp, heq⟩ := hp
      have hm := isMatching_blockwise solver c' gate
      have hpm := List.mem_toFinset.mpr hp
      have htrack : track p.1 = true := by
        rw [h.split _ (hm.track_mem p hpm) _ (hm.detection_mem p hpm) (hm.gated p hpm), heq]
        exact hdetection
      obtain ⟨q, hq, hpair⟩ := List.mem_map.mp ((h.mem_matched_iff solver).mp ⟨hp, htrack⟩)
      refine ⟨q, hq, r.detection_inj ?_⟩
      rw [← heq, ← hpair]
      rfl
    · intro hq
      obtain ⟨q, hq, rfl⟩ := hq
      exact ⟨r.pair q, ((h.mem_matched_iff solver).mpr (List.mem_map_of_mem hq)).1, rfl⟩
  show ((List.range c'.cols).filter _).filter detection = ((List.range c.cols).filter _).map _
  rw [List.filter_comm, h.detections, List.filter_map]
  refine congrArg (List.map r.detection) (List.filter_congr ?_)
  intro j hj
  exact congrArg not (hmatched j hj)

end IsPart

end ObstacleTracking
