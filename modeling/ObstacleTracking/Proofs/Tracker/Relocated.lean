import ObstacleTracking.Proofs.Association.Embedding
import ObstacleTracking.Proofs.Association.Signs
import ObstacleTracking.Proofs.Tracker.Isolation
import ObstacleTracking.Proofs.Tracker.Survival

/-!
# Observations at other places

Two frames of one tracker in which the same observations come at different places. If the same pairs
are matched, the tracks that were live before become the same, whatever their observations are
numbered, and what is left over of one frame is left over of the other.
-/

namespace ObstacleTracking

/-! ### Old and new tracks -/

namespace TrackSet

variable {α : Type}

/-- The tracks that were live before. -/
def survivors (before after : TrackSet α) : List (Track α) :=
  after.tracks.toList.filter fun t => decide (t.id ∈ before.ids)

/-- The tracks that were not live before. -/
def newcomers (before after : TrackSet α) : List (Track α) :=
  after.tracks.toList.filter fun t => decide (t.id ∉ before.ids)

end TrackSet

namespace Tracker

variable {α : Type} [Scalar α]

theorem lt_id_of_mem_startAll {c : Config α} {lastId : ℕ} {os : List (Observation α)} {t : Track α}
    (ht : t ∈ startAll c lastId os) : lastId < t.id := by
  obtain ⟨p, hp, rfl⟩ := List.mem_map.mp ht
  have hid := List.mem_range'_1.mp (List.of_mem_zip hp).1
  exact hid.1

theorem ids_startAll (c : Config α) (lastId : ℕ) (os : List (Observation α)) :
    (startAll c lastId os).map Track.id = List.range' (lastId + 1) os.length := by
  unfold startAll
  rw [List.map_map]
  exact List.map_fst_zip (by rw [List.length_range'])

section Advanced

variable {seen : List ℕ} {tr : Tracker α} (h : Kept seen tr) (dt : α)
  (observations : List (Observation α)) (run : Assignment × CostMatrix α)

theorem id_mem_of_mem_followAll {c : Config α} {s : TrackSet α} {t : Track α}
    (ht : t ∈ followAll c dt observations run s.tracks.toList) : t.id ∈ s.ids := by
  obtain ⟨i, hi, rfl⟩ := List.mem_mapIdx.mp ht
  rw [id_follow]
  exact List.mem_map_of_mem (List.getElem_mem hi)

include h

omit [Scalar α] in
theorem Kept.le_of_mem_ids {id : ℕ} (hid : id ∈ tr.tracks.ids) : id ≤ tr.tracks.lastId := by
  obtain ⟨t, ht, rfl⟩ := List.mem_map.mp hid
  exact h.id_le t ht

theorem Kept.not_mem_ids_of_mem_startAll {os : List (Observation α)} {t : Track α}
    (ht : t ∈ startAll tr.config tr.tracks.lastId os) : t.id ∉ tr.tracks.ids := by
  intro hid
  have hle := h.le_of_mem_ids hid
  have hlt := lt_id_of_mem_startAll ht
  omega

theorem Kept.survivors_advanced :
    tr.tracks.survivors (advanced tr.config dt observations run tr.tracks) =
      (followAll tr.config dt observations run tr.tracks.tracks.toList).filter fun t =>
        !TrackSet.isExpired tr.config.lifecycle t := by
  have hold : ∀ t ∈ (followAll tr.config dt observations run tr.tracks.tracks.toList).filter
      fun t => !TrackSet.isExpired tr.config.lifecycle t, decide (t.id ∈ tr.tracks.ids) = true := by
    intro t ht
    exact decide_eq_true
      (id_mem_of_mem_followAll dt observations run (List.mem_filter.mp ht).1)
  have hnew : ∀ t ∈ startAll tr.config tr.tracks.lastId (leftOver observations run),
      ¬ decide (t.id ∈ tr.tracks.ids) = true := by
    intro t ht hid
    exact h.not_mem_ids_of_mem_startAll ht (of_decide_eq_true hid)
  unfold TrackSet.survivors advanced
  rw [List.toList_toArray, List.filter_append, List.filter_eq_self.mpr hold,
    List.filter_eq_nil_iff.mpr hnew, List.append_nil]

theorem Kept.newcomers_advanced :
    tr.tracks.newcomers (advanced tr.config dt observations run tr.tracks) =
      startAll tr.config tr.tracks.lastId (leftOver observations run) := by
  have hold : ∀ t ∈ (followAll tr.config dt observations run tr.tracks.tracks.toList).filter
      fun t => !TrackSet.isExpired tr.config.lifecycle t, ¬ decide (t.id ∉ tr.tracks.ids) = true := by
    intro t ht hid
    exact of_decide_eq_true hid
      (id_mem_of_mem_followAll dt observations run (List.mem_filter.mp ht).1)
  have hnew : ∀ t ∈ startAll tr.config tr.tracks.lastId (leftOver observations run),
      decide (t.id ∉ tr.tracks.ids) = true := by
    intro t ht
    exact decide_eq_true (h.not_mem_ids_of_mem_startAll ht)
  unfold TrackSet.newcomers advanced
  rw [List.toList_toArray, List.filter_append, List.filter_eq_nil_iff.mpr hold,
    List.filter_eq_self.mpr hnew, List.nil_append]

end Advanced

/-! ### The same pairs at other places -/

/-- The observations of a frame have other places in another frame; the same pairs are matched at
the same costs, and the same observations are left over. -/
structure Relocated (place : ℕ → ℕ) (observations observations' : List (Observation α))
    (run run' : Assignment × CostMatrix α) : Prop where
  observation_eq : ∀ j, observations[j]? = observations'[place j]?
  nodup_matched : (run.1.matched.map Prod.fst).Nodup
  nodup_matched' : (run'.1.matched.map Prod.fst).Nodup
  mem_matched_iff : ∀ i j', (i, j') ∈ run'.1.matched ↔ ∃ j, (i, j) ∈ run.1.matched ∧ place j = j'
  entry_eq : ∀ i j, (i, j) ∈ run.1.matched → run'.2.entry i (place j) = run.2.entry i j
  mem_unmatched_iff : ∀ j,
    place j ∈ run'.1.unmatchedDetections ↔ j ∈ run.1.unmatchedDetections

namespace Relocated

variable {place : ℕ → ℕ} {observations observations' : List (Observation α)}
  {run run' : Assignment × CostMatrix α}

theorem matchOf?_eq (h : Relocated place observations observations' run run') (i : ℕ) :
    matchOf? observations' run' i = matchOf? observations run i :=
  matchOf?_eq_of_iff h.observation_eq h.nodup_matched h.nodup_matched' (h.mem_matched_iff i)
    (h.entry_eq i)

theorem followAll_eq (h : Relocated place observations observations' run run') (c : Config α)
    (dt : α) (tracks : List (Track α)) :
    followAll c dt observations' run' tracks = followAll c dt observations run tracks := by
  unfold followAll
  refine congrArg (fun f => tracks.mapIdx f) ?_
  funext i t
  rw [h.matchOf?_eq i]

theorem leftOver_eq (h : Relocated place observations observations' run run') :
    leftOver observations run =
      (run.1.unmatchedDetections.map place).filterMap fun j => observations'[j]? := by
  unfold leftOver
  rw [List.filterMap_map]
  refine List.filterMap_congr ?_
  intro j _
  exact h.observation_eq j

end Relocated

theorem pairwise_unmatched_assigned (solver : Solver α) (tr : Tracker α) (dt : α)
    (observations : List (Observation α)) :
    (tr.assigned solver dt observations).1.unmatchedDetections.Pairwise (· < ·) := by
  unfold assigned
  cases tr.epoch with
  | none => exact List.pairwise_lt_range
  | some e => exact List.pairwise_lt_range.filter _

section Accepted

variable {seen : List ℕ} {tr : Tracker α} (h : Kept seen tr) {solver : Solver α}
  {detections detections' : List (Detection α)} {timestamp : α} {pose : Pose α}
  {lanes : Option (LaneMap α)} {place : ℕ → ℕ}

include h

theorem Kept.newcomers_accepted :
    tr.tracks.newcomers (tr.accepted solver detections timestamp pose lanes).tracks =
      startAll tr.config tr.tracks.lastId
        (leftOver (tr.observed detections timestamp pose lanes)
          (tr.assigned solver (tr.elapsed timestamp)
            (tr.observed detections timestamp pose lanes))) :=
  h.newcomers_advanced _ _ _

/-- Where the same pairs are matched the tracks that were live before become the same. -/
theorem Kept.survivors_accepted
    (hrelocated : Relocated place (tr.observed detections timestamp pose lanes)
      (tr.observed detections' timestamp pose lanes)
      (tr.assigned solver (tr.elapsed timestamp) (tr.observed detections timestamp pose lanes))
      (tr.assigned solver (tr.elapsed timestamp) (tr.observed detections' timestamp pose lanes))) :
    tr.tracks.survivors (tr.accepted solver detections' timestamp pose lanes).tracks =
      tr.tracks.survivors (tr.accepted solver detections timestamp pose lanes).tracks := by
  unfold accepted
  dsimp only
  rw [h.survivors_advanced, h.survivors_advanced, hrelocated.followAll_eq]

end Accepted

theorem getElem?_observed_place {place : ℕ → ℕ} {detections detections' : List (Detection α)}
    (h : ∀ j, detections[j]? = detections'[place j]?) (tr : Tracker α) (timestamp : α)
    (pose : Pose α) (lanes : Option (LaneMap α)) (j : ℕ) :
    (tr.observed detections timestamp pose lanes)[j]? =
      (tr.observed detections' timestamp pose lanes)[place j]? := by
  unfold observed observe
  simp only [List.getElem?_map]
  rw [h j]

/-! ### Costs at other places -/

/-- Detections have new places, tracks do not. -/
def onDetections (place : ℕ → ℕ) (h : Function.Injective place) : Renumbering :=
  ⟨id, place, Function.injective_id, h⟩

section Costs

variable {tr : Tracker α} {dt : α} {observations observations' : List (Observation α)}
  {place : ℕ → ℕ}

omit [Scalar α] in
theorem lt_length_of_place (hobservations : ∀ j, observations[j]? = observations'[place j]?)
    (j : ℕ) : place j < observations'.length ↔ j < observations.length := by
  rw [← Nat.not_le, ← Nat.not_le, ← List.getElem?_eq_none_iff, ← List.getElem?_eq_none_iff,
    hobservations j]

theorem isEmbedded_costs (tr : Tracker α) (dt : α) (hplace : Function.Injective place)
    (hobservations : ∀ j, observations[j]? = observations'[place j]?) :
    IsEmbedded (onDetections place hplace) (tr.costs dt observations)
      (tr.costs dt observations') := by
  constructor
  · intro i hi
    rw [rows_costs] at hi ⊢
    exact hi
  · intro j hj
    rw [cols_costs] at hj ⊢
    exact (lt_length_of_place hobservations j).mpr hj
  · intro i hi j hj
    have hi := List.mem_range.mp hi
    have hj := List.mem_range.mp hj
    rw [rows_costs] at hi
    rw [cols_costs] at hj
    have ho := List.getElem?_eq_getElem hj
    rw [entry_costs (List.getElem?_eq_getElem hi) ho]
    exact entry_costs (List.getElem?_eq_getElem hi) ((hobservations j).symm.trans ho)

theorem mem_places_costs (hplace : Function.Injective place)
    (hobservations : ∀ j, observations[j]? = observations'[place j]?) {p : ℕ × ℕ}
    (hp : p ∈ (tr.costs dt observations').places) (hrange : ∃ j, place j = p.2) :
    p ∈ (tr.costs dt observations).places.image (onDetections place hplace).pair := by
  obtain ⟨htrack, hdetection⟩ := Finset.mem_product.mp hp
  obtain ⟨j, hj⟩ := hrange
  rw [cols_costs, ← hj] at hdetection
  rw [rows_costs] at htrack
  refine Finset.mem_image.mpr ⟨(p.1, j), ?_, Prod.ext rfl hj⟩
  refine Finset.mem_product.mpr ⟨?_, ?_⟩
  · rw [rows_costs]
    exact htrack
  · rw [cols_costs]
    exact Finset.mem_range.mpr
      ((lt_length_of_place hobservations j).mp (Finset.mem_range.mp hdetection))

/-- The frames are related if the same pairs are matched. -/
theorem relocated_assigned {solver : Solver α} {e : Epoch α} (he : tr.epoch = some e)
    (hplace : Function.Injective place)
    (hobservations : ∀ j, observations[j]? = observations'[place j]?)
    (hmatched : (tr.assigned solver dt observations').1.matched.toFinset =
      (tr.assigned solver dt observations).1.matched.toFinset.image
        (onDetections place hplace).pair) :
    Relocated place observations observations' (tr.assigned solver dt observations)
      (tr.assigned solver dt observations') := by
  have hmem : ∀ i j', (i, j') ∈ (tr.assigned solver dt observations').1.matched ↔
      ∃ j, (i, j) ∈ (tr.assigned solver dt observations).1.matched ∧ place j = j' := by
    intro i j'
    rw [← List.mem_toFinset, hmatched, Finset.mem_image]
    constructor
    · intro h
      obtain ⟨⟨i', j⟩, hp, heq⟩ := h
      obtain ⟨rfl, rfl⟩ := Prod.mk.inj heq
      exact ⟨j, List.mem_toFinset.mp hp, rfl⟩
    · intro h
      obtain ⟨j, hp, rfl⟩ := h
      exact ⟨(i, j), List.mem_toFinset.mpr hp, rfl⟩
  rw [assigned_of_epoch solver he, assigned_of_epoch solver he] at hmem ⊢
  have hembedded := isEmbedded_costs tr dt hplace hobservations
  constructor
  · exact hobservations
  · exact nodup_fst_matched_blockwise solver _ _
  · exact nodup_fst_matched_blockwise solver _ _
  · exact hmem
  · intro i j hp
    have hm := isMatching_blockwise solver (tr.costs dt observations) tr.config.matching.gate
    have hp := List.mem_toFinset.mpr hp
    exact hembedded.agrees i (hm.track_mem _ hp) j (hm.detection_mem _ hp)
  · -- a pair moves with its places, so a new place is free if the old one was
    intro j
    rw [mem_unmatchedDetections_blockwise, mem_unmatchedDetections_blockwise, cols_costs,
      cols_costs, lt_length_of_place hobservations]
    refine and_congr_right' ⟨?_, ?_⟩
    · intro hfree p hp heq
      exact hfree (p.1, place p.2) ((hmem p.1 _).mpr ⟨p.2, hp, rfl⟩) (congrArg place heq)
    · intro hfree p hp heq
      obtain ⟨k, hk, hplaced⟩ := (hmem p.1 p.2).mp hp
      exact hfree (p.1, k) hk (hplace (hplaced.trans heq))

end Costs

/-! ### Costs of a valid configuration -/

/-- Gated costs of a tracker with a valid configuration are not negative. -/
theorem isNonneg_costs (K : Type) [Field K] [LinearOrder K] [IsStrictOrderedRing K]
    [ExactScalar K α] [SignedScalar α] {tr : Tracker α} (h : tr.config.error? = none) (dt : α)
    (observations : List (Observation α)) (gate : α) :
    Block.IsNonneg (tr.costs dt observations) gate (Block.whole (tr.costs dt observations)) := by
  have hweights : tr.config.matching.weights.NotNegative := by
    unfold Config.error? MatchingConfig.error? at h
    simp only [Option.or_eq_none_iff] at h
    exact Weights.notNegative_of_error? h.1.2.1
  intro i hi j hj hgated
  have hi := List.mem_range.mp hi
  have hj := List.mem_range.mp hj
  rw [rows_costs] at hi
  rw [cols_costs] at hj
  unfold CostMatrix.isGated CostMatrix.passes at hgated
  refine SignedScalar.nonneg_of_not_lt K (Bool.and_eq_true_iff.mp hgated).1 ?_
  rw [entry_costs (List.getElem?_eq_getElem hi) (List.getElem?_eq_getElem hj)]
  exact Dissimilarity.not_total_lt K hweights _ _ _ _

end Tracker

end ObstacleTracking
