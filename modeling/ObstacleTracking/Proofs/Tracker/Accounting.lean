import ObstacleTracking.Proofs.Association.Blockwise
import ObstacleTracking.Proofs.Tracker.Updates

/-!
# Frame accounting

What becomes of the tracks and of the observations in a frame, whatever the solver answers and
whatever the costs are. Each live track is changed once, each observation is used once, and new
tracks continue the ids that were issued before.
-/

namespace ObstacleTracking

open Assignment Block

namespace Tracker

variable {α : Type} [Scalar α]

/-! ### Costs -/

/-- The costs of a frame that is `dt` later than the one before. -/
def costs (tr : Tracker α) (dt : α) (observations : List (Observation α)) : CostMatrix α :=
  Matching.costs tr.config.matching.weights (predicted tr.config dt tr.tracks).tracks
    observations.toArray dt

theorem rows_costs (tr : Tracker α) (dt : α) (observations : List (Observation α)) :
    (tr.costs dt observations).rows = tr.tracks.tracks.toList.length :=
  Array.size_map.trans Array.size_map

theorem cols_costs (tr : Tracker α) (dt : α) (observations : List (Observation α)) :
    (tr.costs dt observations).cols = observations.length :=
  List.size_toArray

/-- The cost of a track and an observation does not depend on any other. -/
theorem entry_costs {tr : Tracker α} {dt : α} {observations : List (Observation α)} {i j : ℕ}
    {t : Track α} {o : Observation α} (ht : tr.tracks.tracks.toList[i]? = some t)
    (ho : observations[j]? = some o) :
    (tr.costs dt observations).entry i j = Dissimilarity.total tr.config.matching.weights t.current
      (t.predict tr.config.filter dt).expected o dt := by
  rw [Array.getElem?_toList] at ht
  have hpredicted : (predicted tr.config dt tr.tracks).tracks[i]? =
      some (t.predict tr.config.filter dt) := by
    unfold predicted TrackSet.map
    rw [Array.getElem?_map, ht, Option.map_some]
  exact Matching.entry_costs hpredicted (List.getElem?_toArray.trans ho) dt

/-! ### The account of a frame -/

/-- What a frame makes of the track at a place: it takes the observation it is matched to, with
the cost of the pair as score, or it coasts. -/
inductive Followed (c : Config α) (dt : α) (observations : List (Observation α))
    (run : Assignment × CostMatrix α) (i : ℕ) (t : Track α) : Track α → Prop
  | hit {j : ℕ} {o : Observation α} (hmatched : (i, j) ∈ run.1.matched)
      (ho : observations[j]? = some o) :
      Followed c dt observations run i t
        ((t.predict c.filter dt).hit c.filter c.lifecycle o (run.2.entry i j) dt).1
  | miss (hunmatched : i ∈ run.1.unmatchedTracks) :
      Followed c dt observations run i t ((t.predict c.filter dt).miss c.filter dt)

/-- The tracks that were live before a frame, in what they have become, and the tracks that it
starts. The tracks after the frame are those of the former that are kept, and the latter. -/
structure FrameAccount (c : Config α) (dt : α) (observations : List (Observation α))
    (run : Assignment × CostMatrix α) (before : TrackSet α) (followed started : List (Track α))
    (after : TrackSet α) : Prop where
  tracks_once : (run.1.matched.map Prod.fst ++ run.1.unmatchedTracks).Perm
    (List.range before.tracks.size)
  observations_once : (run.1.matched.map Prod.snd ++ run.1.unmatchedDetections).Perm
    (List.range observations.length)
  length_followed : followed.length = before.tracks.size
  follows : ∀ i t, before.tracks[i]? = some t →
    ∃ t', followed[i]? = some t' ∧ Followed c dt observations run i t t'
  unmatched_ascending : run.1.unmatchedDetections.Pairwise (· < ·)
  length_started : started.length = run.1.unmatchedDetections.length
  starts : ∀ k j, run.1.unmatchedDetections[k]? = some j → ∃ o, observations[j]? = some o ∧
    started[k]? =
      some (Track.start c.filter c.lifecycle.historyCapacity (before.lastId + 1 + k) o)
  tracks_eq : after.tracks.toList =
    (followed.filter fun t => !TrackSet.isExpired c.lifecycle t) ++ started
  lastId_eq : after.lastId = before.lastId + started.length

/-! ### Starting tracks -/

/-- The tracks that some observations start, with the ids that follow the last one. -/
def startAll (c : Config α) (lastId : ℕ) (os : List (Observation α)) : List (Track α) :=
  ((List.range' (lastId + 1) os.length).zip os).map fun p =>
    Track.start c.filter c.lifecycle.historyCapacity p.1 p.2

theorem tracks_create (c : Config α) (s : TrackSet α) (os : List (Observation α)) :
    (s.create c.filter c.lifecycle.historyCapacity os).1.tracks.toList =
      s.tracks.toList ++ startAll c s.lastId os :=
  Array.toList_append

theorem length_startAll (c : Config α) (lastId : ℕ) (os : List (Observation α)) :
    (startAll c lastId os).length = os.length := by
  rw [startAll, List.length_map, List.length_zip, List.length_range', Nat.min_self]

theorem getElem?_startAll (c : Config α) (lastId : ℕ) {os : List (Observation α)} {k : ℕ}
    {o : Observation α} (ho : os[k]? = some o) :
    (startAll c lastId os)[k]? =
      some (Track.start c.filter c.lifecycle.historyCapacity (lastId + 1 + k) o) := by
  have hk : k < os.length := (List.getElem?_eq_some_iff.mp ho).1
  have hid : (List.range' (lastId + 1) os.length)[k]? = some (lastId + 1 + k) := by
    rw [List.getElem?_range' hk, Nat.one_mul]
  have hpair : ((List.range' (lastId + 1) os.length).zip os)[k]? = some (lastId + 1 + k, o) :=
    List.getElem?_zip_eq_some.mpr ⟨hid, ho⟩
  rw [startAll, List.getElem?_map, hpair, Option.map_some]

/-! ### Complete assignments -/

/-- Each of some tracks and each of some observations has one place in an assignment. -/
structure IsComplete (a : Assignment) (tracks observations : ℕ) : Prop where
  tracks : (a.matched.map Prod.fst ++ a.unmatchedTracks).Perm (List.range tracks)
  observations : (a.matched.map Prod.snd ++ a.unmatchedDetections).Perm (List.range observations)

theorem isComplete_run (solver : Solver α) (m : MatchingConfig α) (tracks : Array (Track α))
    (os : Array (Observation α)) (dt : α) :
    IsComplete (Matching.run solver m tracks os dt).1 tracks.size os.size := by
  have hrows : (Matching.costs m.weights tracks os dt).rows = tracks.size := Array.size_map
  constructor
  · rw [← hrows]
    exact perm_tracks_blockwise solver _ m.gate
  · exact perm_detections_blockwise solver _ m.gate

namespace IsComplete

variable {a : Assignment} {n k : ℕ}

theorem nodup_tracks (h : IsComplete a n k) : (a.matched.map Prod.fst ++ a.unmatchedTracks).Nodup :=
  h.tracks.nodup_iff.mpr List.nodup_range

theorem nodup_observations (h : IsComplete a n k) :
    (a.matched.map Prod.snd ++ a.unmatchedDetections).Nodup :=
  h.observations.nodup_iff.mpr List.nodup_range

omit [Scalar α] in
theorem exists_track {s : TrackSet α} (h : IsComplete a s.tracks.size k) {i : ℕ}
    (hi : i ∈ a.matched.map Prod.fst ++ a.unmatchedTracks) : ∃ t, s.tracks[i]? = some t := by
  have hlt := List.mem_range.mp (h.tracks.mem_iff.mp hi)
  exact ⟨s.tracks[i], Array.getElem?_eq_getElem hlt⟩

omit [Scalar α] in
theorem exists_observation {os : List (Observation α)} (h : IsComplete a n os.length) {j : ℕ}
    (hj : j ∈ a.matched.map Prod.snd ++ a.unmatchedDetections) : ∃ o, os[j]? = some o := by
  have hlt := List.mem_range.mp (h.observations.mem_iff.mp hj)
  exact ⟨os[j], List.getElem?_eq_getElem hlt⟩

end IsComplete

/-! ### What is matched -/

variable {c : Config α} {dt : α} {observations : List (Observation α)} {s : TrackSet α}
  {run : Assignment × CostMatrix α} {n : ℕ}

theorem mem_pairings {p : Pairing α} :
    p ∈ pairings s.tracks run.2 run.1 ↔ ∃ i j t, (i, j) ∈ run.1.matched ∧
      s.tracks[i]? = some t ∧ p = ⟨t.id, j, run.2.entry i j⟩ := by
  simp only [pairings, List.mem_filterMap, Option.map_eq_some_iff, Prod.exists]
  constructor
  · intro h
    obtain ⟨i, j, hmatched, t, ht, heq⟩ := h
    exact ⟨i, j, t, hmatched, ht, heq.symm⟩
  · intro h
    obtain ⟨i, j, t, hmatched, ht, heq⟩ := h
    exact ⟨i, j, hmatched, t, ht, heq.symm⟩

theorem pairwise_pairings (hs : s.Ordered) {k : ℕ} (h : IsComplete run.1 n k) :
    (pairings s.tracks run.2 run.1).Pairwise fun p q =>
      p.track ≠ q.track ∧ p.observation ≠ q.observation := by
  have htracks := (List.nodup_append'.mp h.nodup_tracks).1
  have hobservations := (List.nodup_append'.mp h.nodup_observations).1
  have hdistinct : run.1.matched.Pairwise fun p q => p.1 ≠ q.1 ∧ p.2 ≠ q.2 :=
    (List.pairwise_map.mp htracks).and (List.pairwise_map.mp hobservations)
  refine List.pairwise_filterMap.mpr (hdistinct.imp ?_)
  intro p q hpq b hb b' hb'
  obtain ⟨t, ht, rfl⟩ := Option.map_eq_some_iff.mp hb
  obtain ⟨u, hu, rfl⟩ := Option.map_eq_some_iff.mp hb'
  exact ⟨fun heq => hpq.1 (hs.index_eq ht hu heq), hpq.2⟩

theorem mapM_pairing {k : ℕ} (h : IsComplete run.1 s.tracks.size k) :
    (run.1.matched.mapM fun p => s.tracks[p.1]?.map fun t =>
      (⟨t.id, p.2, run.2.entry p.1 p.2⟩ : Pairing α)) = some (pairings s.tracks run.2 run.1) := by
  refine mapM_eq_some_filterMap ?_
  intro p hp
  obtain ⟨t, ht⟩ := h.exists_track (List.mem_append_left _ (List.mem_map_of_mem hp))
  rw [ht]
  exact ⟨_, rfl⟩

/-! ### What is left over -/

def missedIds (s : TrackSet α) (run : Assignment × CostMatrix α) : List ℕ :=
  run.1.unmatchedTracks.filterMap fun i => s.tracks[i]?.map Track.id

omit [Scalar α] in
theorem mem_missedIds {id : ℕ} :
    id ∈ missedIds s run ↔
      ∃ (i : ℕ) (t : Track α), i ∈ run.1.unmatchedTracks ∧ s.tracks[i]? = some t ∧ t.id = id := by
  simp only [missedIds, List.mem_filterMap, Option.map_eq_some_iff]
  constructor
  · intro h
    obtain ⟨i, hi, t, ht, heq⟩ := h
    exact ⟨i, t, hi, ht, heq⟩
  · intro h
    obtain ⟨i, t, hi, ht, heq⟩ := h
    exact ⟨i, hi, t, ht, heq⟩

omit [Scalar α] in
theorem pairwise_missedIds (hs : s.Ordered) (h : run.1.unmatchedTracks.Nodup) :
    (missedIds s run).Pairwise fun id id' => id ≠ id' := by
  refine List.pairwise_filterMap.mpr (h.imp ?_)
  intro i k hik id hid id' hid'
  obtain ⟨t, ht, rfl⟩ := Option.map_eq_some_iff.mp hid
  obtain ⟨u, hu, rfl⟩ := Option.map_eq_some_iff.mp hid'
  exact fun heq => hik (hs.index_eq ht hu heq)

omit [Scalar α] in
theorem mapM_missedId {k : ℕ} (h : IsComplete run.1 s.tracks.size k) :
    (run.1.unmatchedTracks.mapM fun i => s.tracks[i]?.map Track.id) = some (missedIds s run) := by
  refine mapM_eq_some_filterMap ?_
  intro i hi
  obtain ⟨t, ht⟩ := h.exists_track (List.mem_append_right _ hi)
  rw [ht]
  exact ⟨_, rfl⟩

/-! ### What a frame makes of a track -/

/-- A track after the updates of matched tracks and of those that are left over. -/
def changed (c : Config α) (dt : α) (observations : List (Observation α))
    (run : Assignment × CostMatrix α) (s : TrackSet α) (t : Track α) : Track α :=
  (missedIds s run).foldl (fun t id => TrackSet.onId id (fun t => t.miss c.filter dt) t)
    ((pairings s.tracks run.2 run.1).foldl
      (fun t p => TrackSet.onId p.track (hitBy c dt observations p) t) t)

theorem changed_of_matched (hs : s.Ordered) {k : ℕ} (h : IsComplete run.1 n k) {i j : ℕ}
    {t : Track α} (ht : s.tracks[i]? = some t) (hmatched : (i, j) ∈ run.1.matched)
    {o : Observation α} (ho : observations[j]? = some o) :
    changed c dt observations run s t =
      (t.hit c.filter c.lifecycle o (run.2.entry i j) dt).1 := by
  obtain ⟨-, -, hapart⟩ := List.nodup_append'.mp h.nodup_tracks
  have hhit : (pairings s.tracks run.2 run.1).foldl
      (fun t p => TrackSet.onId p.track (hitBy c dt observations p) t) t =
        hitBy c dt observations ⟨t.id, j, run.2.entry i j⟩ t :=
    foldl_onId_of_mem (id_hitBy c dt observations) ((pairwise_pairings hs h).imp And.left)
      (mem_pairings.mpr ⟨i, j, t, hmatched, ht, rfl⟩) rfl
  have hvalue : hitBy c dt observations ⟨t.id, j, run.2.entry i j⟩ t =
      (t.hit c.filter c.lifecycle o (run.2.entry i j) dt).1 := by
    unfold hitBy
    rw [ho]
  rw [changed, hhit, hvalue]
  refine foldl_onId_of_forall_ne ?_
  intro id hid heq
  obtain ⟨k, u, hk, hu, rfl⟩ := mem_missedIds.mp hid
  have hik : i = k := hs.index_eq ht hu heq.symm
  rw [← hik] at hk
  exact hapart (List.mem_map_of_mem hmatched) hk

theorem changed_of_unmatched (hs : s.Ordered) {k : ℕ} (h : IsComplete run.1 n k) {i : ℕ}
    {t : Track α} (ht : s.tracks[i]? = some t) (hunmatched : i ∈ run.1.unmatchedTracks) :
    changed c dt observations run s t = t.miss c.filter dt := by
  obtain ⟨-, hnodup, hapart⟩ := List.nodup_append'.mp h.nodup_tracks
  have hkept : (pairings s.tracks run.2 run.1).foldl
      (fun t p => TrackSet.onId p.track (hitBy c dt observations p) t) t = t := by
    refine foldl_onId_of_forall_ne ?_
    intro p hp heq
    obtain ⟨k, j, u, hmatched, hu, rfl⟩ := mem_pairings.mp hp
    have hik : i = k := hs.index_eq ht hu heq.symm
    rw [hik] at hunmatched
    exact hapart (List.mem_map_of_mem hmatched) hunmatched
  rw [changed, hkept]
  refine foldl_onId_of_mem ?_ (pairwise_missedIds hs hnodup)
    (mem_missedIds.mpr ⟨i, t, hunmatched, ht, rfl⟩) rfl
  intro _ _
  rfl

/-- A predicted track is followed by what the updates make of it. -/
theorem followed_changed (hs : s.Ordered)
    (h : IsComplete run.1 s.tracks.size observations.length) {i : ℕ} {t : Track α}
    (ht : s.tracks[i]? = some (t.predict c.filter dt)) :
    Followed c dt observations run i t
      (changed c dt observations run s (t.predict c.filter dt)) := by
  have hi := (Array.getElem?_eq_some_iff.mp ht).1
  rcases List.mem_append.mp (h.tracks.mem_iff.mpr (List.mem_range.mpr hi)) with hmem | hmem
  · obtain ⟨p, hp, rfl⟩ := List.mem_map.mp hmem
    obtain ⟨o, ho⟩ := h.exists_observation (List.mem_append_left _ (List.mem_map_of_mem hp))
    rw [changed_of_matched hs h ht hp ho]
    exact .hit hp ho
  · rw [changed_of_unmatched hs h ht hmem]
    exact .miss hmem

/-! ### Nothing is missed -/

/-- The updates of matched tracks miss nothing, and leave the other observations in place. -/
theorem exists_foldlM_pairings (c : Config α) (dt : α) (hs : s.Ordered)
    (h : IsComplete run.1 s.tracks.size observations.length) :
    ∃ slots, (pairings s.tracks run.2 run.1).foldlM (applyPairing? c dt)
        (s, (observations.map some).toArray) =
          some (s.map fun t => (pairings s.tracks run.2 run.1).foldl
            (fun t p => TrackSet.onId p.track (hitBy c dt observations p) t) t, slots) ∧
      ∀ j ∈ run.1.unmatchedDetections, slots[j]?.join = observations[j]? := by
  have hslots : ∀ (j : ℕ) (o : Observation α), observations[j]? = some o →
      (observations.map some).toArray[j]? = some (some o) := by
    intro j o ho
    rw [List.getElem?_toArray, List.getElem?_map, ho, Option.map_some]
  obtain ⟨slots, hfold, hrest⟩ := foldlM_applyPairing? c dt
    ((pairwise_pairings hs h).imp And.right) hs
    (by
      intro p hp
      obtain ⟨i, j, t, -, ht, rfl⟩ := mem_pairings.mp hp
      exact TrackSet.id_mem_ids ht)
    (by
      intro p hp
      obtain ⟨i, j, t, hmatched, -, rfl⟩ := mem_pairings.mp hp
      obtain ⟨o, ho⟩ := h.exists_observation
        (List.mem_append_left _ (List.mem_map_of_mem hmatched))
      exact ⟨o, ho, hslots j o ho⟩)
  refine ⟨slots, hfold, ?_⟩
  intro j hj
  obtain ⟨-, -, hapart⟩ := List.nodup_append'.mp h.nodup_observations
  have hfree : ∀ p ∈ pairings s.tracks run.2 run.1, p.observation ≠ j := by
    intro p hp heq
    obtain ⟨i, k, t, hmatched, -, rfl⟩ := mem_pairings.mp hp
    rw [← heq] at hj
    exact hapart (List.mem_map_of_mem hmatched) hj
  obtain ⟨o, ho⟩ := h.exists_observation (List.mem_append_right _ hj)
  rw [hrest j hfree, hslots j o ho, ho, Option.join_some]

/-- The updates of tracks that are left over miss nothing either. -/
theorem foldlM_missedIds (c : Config α) (dt : α) (hs : s.Ordered)
    (observations : List (Observation α)) (run : Assignment × CostMatrix α) :
    (missedIds s run).foldlM (fun s id => s.modify? id fun t => t.miss c.filter dt)
      (s.map fun t => (pairings s.tracks run.2 run.1).foldl
        (fun t p => TrackSet.onId p.track (hitBy c dt observations p) t) t) =
      some (s.map (changed c dt observations run s)) := by
  have hid : ∀ t, ((pairings s.tracks run.2 run.1).foldl
      (fun t p => TrackSet.onId p.track (hitBy c dt observations p) t) t).id = t.id :=
    id_foldl_onId (id_hitBy c dt observations) _
  have hlive : ∀ id ∈ missedIds s run, id ∈ (s.map fun t => (pairings s.tracks run.2 run.1).foldl
      (fun t p => TrackSet.onId p.track (hitBy c dt observations p) t) t).ids := by
    intro id hmissed
    obtain ⟨i, t, -, ht, rfl⟩ := mem_missedIds.mp hmissed
    rw [TrackSet.ids_map hid]
    exact TrackSet.id_mem_ids ht
  have hmiss : ∀ t : Track α, (t.miss c.filter dt).id = t.id := fun _ => rfl
  rw [foldlM_modify? hmiss (hs.map hid) hlive, TrackSet.map_map]
  rfl

/-- A frame misses nothing, and this is what it leaves. -/
theorem advance?_eq_some (solver : Solver α) (c : Config α) {before : TrackSet α}
    (hbefore : before.Ordered) (dt : α) (observations : List (Observation α)) :
    let s := predicted c dt before
    let run := Matching.run solver c.matching s.tracks observations.toArray dt
    ∃ left, run.1.unmatchedDetections.map (fun j => observations[j]?) = left.map some ∧
      advance? solver c before dt observations =
        some (((s.map (changed c dt observations run s)).dropExpired c.lifecycle).1.create c.filter
          c.lifecycle.historyCapacity left).1 := by
  intro s run
  have hpredicted : predicted c dt before = s := rfl
  have hrun : Matching.run solver c.matching s.tracks observations.toArray dt = run := rfl
  have hs : s.Ordered := hbefore.map fun _ => rfl
  have h : IsComplete run.1 s.tracks.size observations.length := by
    have hrun := isComplete_run solver c.matching s.tracks observations.toArray dt
    rw [List.size_toArray] at hrun
    exact hrun
  obtain ⟨slots, hfold, hslots⟩ := exists_foldlM_pairings c dt hs h
  have hleft : (run.1.unmatchedDetections.mapM fun j => observations[j]?) =
      some (run.1.unmatchedDetections.filterMap fun j => observations[j]?) :=
    mapM_eq_some_filterMap fun j hj => h.exists_observation (List.mem_append_right _ hj)
  have hobserved := mapM_eq_some_iff.mp hleft
  have htaken : (run.1.unmatchedDetections.mapM fun j => slots[j]?.join) =
      some (run.1.unmatchedDetections.filterMap fun j => observations[j]?) :=
    mapM_eq_some_iff.mpr ((List.map_congr_left hslots).trans hobserved)
  refine ⟨_, hobserved, ?_⟩
  unfold advance?
  simp only [hpredicted, hrun, mapM_pairing h, mapM_missedId h, hfold, foldlM_missedIds c dt hs, htaken,
    Option.bind_eq_bind, Option.bind_some]
  rfl

theorem exists_frameAccount (solver : Solver α) (c : Config α) {before : TrackSet α}
    (hbefore : before.Ordered) (dt : α) (observations : List (Observation α)) :
    ∃ after followed started, advance? solver c before dt observations = some after ∧
      FrameAccount c dt observations
        (Matching.run solver c.matching (predicted c dt before).tracks observations.toArray dt)
        before followed started after := by
  obtain ⟨left, hleft, hadvance⟩ := advance?_eq_some solver c hbefore dt observations
  have hs : (predicted c dt before).Ordered := hbefore.map fun _ => rfl
  have hcomplete := isComplete_run solver c.matching (predicted c dt before).tracks
    observations.toArray dt
  rw [List.size_toArray] at hcomplete
  have hascending : (Matching.run solver c.matching (predicted c dt before).tracks
      observations.toArray dt).1.unmatchedDetections.Pairwise (· < ·) :=
    List.pairwise_lt_range.filter _
  have hplace : ∀ (i : ℕ) (t : Track α), before.tracks[i]? = some t →
      (predicted c dt before).tracks[i]? = some (t.predict c.filter dt) := by
    intro i t ht
    rw [predicted, TrackSet.map, Array.getElem?_map, ht, Option.map_some]
  have hsize : (predicted c dt before).tracks.size = before.tracks.size := Array.size_map
  have hlast : (predicted c dt before).lastId = before.lastId := rfl
  -- from here on the assignment is any complete one
  generalize Matching.run solver c.matching (predicted c dt before).tracks
    observations.toArray dt = run at *
  generalize predicted c dt before = s at *
  refine ⟨_, s.tracks.toList.map (changed c dt observations run s), startAll c s.lastId left,
    hadvance, ?_⟩
  have hlength := congrArg List.length hleft
  rw [List.length_map, List.length_map] at hlength
  constructor
  · rw [← hsize]
    exact hcomplete.tracks
  · exact hcomplete.observations
  · rw [List.length_map, Array.length_toList, hsize]
  · intro i t ht
    refine ⟨_, ?_, followed_changed hs hcomplete (hplace i t ht)⟩
    rw [List.getElem?_map, Array.getElem?_toList, hplace i t ht, Option.map_some]
  · exact hascending
  · rw [length_startAll, hlength]
  · intro k j hk
    have hobserved := congrArg (fun l => l[k]?) hleft
    simp only [List.getElem?_map, hk, Option.map_some] at hobserved
    obtain ⟨o, ho, heq⟩ := Option.map_eq_some_iff.mp hobserved.symm
    rw [← hlast]
    exact ⟨o, heq.symm, getElem?_startAll c s.lastId ho⟩
  · rw [tracks_create]
    simp [TrackSet.dropExpired, TrackSet.map]
  · rw [TrackSet.lastId_create, TrackSet.lastId_dropExpired, TrackSet.lastId_map,
      length_startAll, hlast]

end Tracker

end ObstacleTracking
