import ObstacleTracking.Proofs.Track.Lookup
import ObstacleTracking.Tracker.Basic

/-!
# Updates that miss nothing

A frame hands indices, ids and observations from one step to the next, and each step goes on
quietly where a lookup finds nothing. Here every such step has a strict form which then has no
result. Where a strict form has a result the step has the same; and the strict forms have one if
no id and no observation is asked for twice.
-/

namespace ObstacleTracking

/-! ### Strict loops -/

section Loops

variable {σ β γ : Type}

theorem foldl_eq_of_foldlM {f : σ → β → σ} {f? : σ → β → Option σ}
    (hf : ∀ s b s', f? s b = some s' → f s b = s') {l : List β} {s s' : σ}
    (h : l.foldlM f? s = some s') : l.foldl f s = s' := by
  induction l generalizing s with
  | nil => exact Option.some.inj h
  | cons b l ih =>
    rw [List.foldlM_cons] at h
    obtain ⟨s₁, hs₁, h⟩ := Option.bind_eq_some_iff.mp h
    rw [List.foldl_cons, hf s b s₁ hs₁]
    exact ih h

theorem mapM_eq_some_iff {f : β → Option γ} {l : List β} {l' : List γ} :
    l.mapM f = some l' ↔ l.map f = l'.map some := by
  induction l generalizing l' with
  | nil =>
    cases l' with
    | nil => simp
    | cons c l' => simp
  | cons b l ih =>
    rw [List.mapM_cons, List.map_cons]
    simp only [Option.bind_eq_bind, Option.pure_def, Option.bind_eq_some_iff, Option.some_inj]
    constructor
    · intro h
      obtain ⟨c, hc, l₁, hl₁, rfl⟩ := h
      rw [hc, ih.mp hl₁, List.map_cons]
    · intro h
      cases l' with
      | nil => cases h
      | cons c l₁ =>
        obtain ⟨hc, hl₁⟩ := List.cons.inj h
        exact ⟨c, hc, l₁, ih.mpr hl₁, rfl⟩

theorem filterMap_eq_of_mapM {f : β → Option γ} {l : List β} {l' : List γ}
    (h : l.mapM f = some l') : l.filterMap f = l' := by
  have hmap : (l.map f).filterMap id = (l'.map some).filterMap id :=
    congrArg (List.filterMap id) (mapM_eq_some_iff.mp h)
  rw [List.filterMap_map, List.filterMap_map] at hmap
  exact hmap.trans List.filterMap_some

theorem mapM_eq_some_filterMap {f : β → Option γ} {l : List β}
    (h : ∀ b ∈ l, ∃ c, f b = some c) : l.mapM f = some (l.filterMap f) := by
  rw [mapM_eq_some_iff]
  induction l with
  | nil => rfl
  | cons b l ih =>
    obtain ⟨c, hc⟩ := h b List.mem_cons_self
    rw [List.map_cons, ih fun b' hb' => h b' (List.mem_cons_of_mem b hb'),
      List.filterMap_cons_some hc, List.map_cons, hc]

end Loops

namespace Tracker

variable {α : Type} [Scalar α] {c : Config α} {dt : α} {s : TrackSet α}

/-! ### Strict steps -/

/-- A matched track takes its observation. There is no result if the track is not alive or the
observation was taken before. -/
def applyPairing? (c : Config α) (dt : α) (state : TrackSet α × Slots α) (p : Pairing α) :
    Option (TrackSet α × Slots α) := do
  let o ← state.2[p.observation]?.join
  let tracks ← state.1.modify? p.track fun t => (t.hit c.filter c.lifecycle o p.score dt).1
  return (tracks, state.2.setIfInBounds p.observation none)

def predicted (c : Config α) (dt : α) (tracks : TrackSet α) : TrackSet α :=
  tracks.map fun t => t.predict c.filter dt

/-- The tracks after a frame, if no lookup of a track and no take of an observation misses. -/
def advance? (solver : Solver α) (c : Config α) (tracks : TrackSet α) (dt : α)
    (observations : List (Observation α)) : Option (TrackSet α) := do
  let s := predicted c dt tracks
  let run := Matching.run solver c.matching s.tracks observations.toArray dt
  let assigned ← run.1.matched.mapM fun p =>
    s.tracks[p.1]?.map fun t => (⟨t.id, p.2, run.2.entry p.1 p.2⟩ : Pairing α)
  let missed ← run.1.unmatchedTracks.mapM fun i => s.tracks[i]?.map Track.id
  let updated ← assigned.foldlM (applyPairing? c dt) (s, (observations.map some).toArray)
  let coasted ← missed.foldlM (fun s id => s.modify? id fun t => t.miss c.filter dt) updated.1
  let left ← run.1.unmatchedDetections.mapM fun j => updated.2[j]?.join
  return ((coasted.dropExpired c.lifecycle).1.create c.filter c.lifecycle.historyCapacity left).1

omit [Scalar α] in
theorem getD_none_eq_join (slots : Slots α) (j : ℕ) : slots.getD j none = slots[j]?.join := by
  rw [Array.getD_eq_getD_getElem?]
  cases slots[j]? <;> rfl

theorem applyPairing_eq_of_applyPairing? {state state' : TrackSet α × Slots α} {p : Pairing α}
    (h : applyPairing? c dt state p = some state') : applyPairing c dt state p = state' := by
  obtain ⟨o, ho, h⟩ := Option.bind_eq_some_iff.mp h
  obtain ⟨tracks, htracks, h⟩ := Option.bind_eq_some_iff.mp h
  unfold applyPairing
  simp only [getD_none_eq_join, ho, TrackSet.modify_eq_of_modify? htracks]
  exact Option.some.inj h

/-- A frame in which no lookup and no take misses is a frame. -/
theorem advance_eq_of_advance? {solver : Solver α} {observations : List (Observation α)}
    {s' : TrackSet α} (h : advance? solver c s dt observations = some s') :
    advance solver c s dt observations = s' := by
  unfold advance? predicted at h
  simp only [Option.bind_eq_bind, Option.bind_eq_some_iff, Option.pure_def] at h
  obtain ⟨assigned, hassigned, missed, hmissed, updated, hupdated, coasted, hcoasted, left, hleft,
    heq⟩ := h
  have hpairings := filterMap_eq_of_mapM hassigned
  have hids := filterMap_eq_of_mapM hmissed
  have hfold := foldl_eq_of_foldlM (fun _ _ _ => applyPairing_eq_of_applyPairing?) hupdated
  have hcoast := foldl_eq_of_foldlM (fun _ _ _ => TrackSet.modify_eq_of_modify?) hcoasted
  have htaken := filterMap_eq_of_mapM hleft
  unfold advance pairings
  simp only [hpairings, hids, hfold, hcoast, getD_none_eq_join, htaken]
  exact Option.some.inj heq

/-! ### All changes of a loop -/

section Changes

variable {β : Type} {key : β → ℕ} {g : β → Track α → Track α}

omit [Scalar α] in
/-- A track whose id is not asked for stays as it is. -/
theorem foldl_onId_of_forall_ne {l : List β} {t : Track α} (h : ∀ b ∈ l, key b ≠ t.id) :
    l.foldl (fun t b => TrackSet.onId (key b) (g b) t) t = t := by
  induction l with
  | nil => rfl
  | cons b l ih =>
    have hb : TrackSet.onId (key b) (g b) t = t :=
      if_neg fun heq => h b List.mem_cons_self heq.symm
    rw [List.foldl_cons, hb]
    exact ih fun b' hb' => h b' (List.mem_cons_of_mem b hb')

omit [Scalar α] in
theorem id_foldl_onId (hg : ∀ b t, (g b t).id = t.id) (l : List β) (t : Track α) :
    (l.foldl (fun t b => TrackSet.onId (key b) (g b) t) t).id = t.id := by
  induction l generalizing t with
  | nil => rfl
  | cons b l ih =>
    rw [List.foldl_cons, ih]
    exact TrackSet.id_onId (hg b) t

omit [Scalar α] in
/-- A track whose id is asked for once is changed once. -/
theorem foldl_onId_of_mem (hg : ∀ b t, (g b t).id = t.id) {l : List β}
    (hl : l.Pairwise fun b b' => key b ≠ key b') {b : β} (hb : b ∈ l) {t : Track α}
    (ht : key b = t.id) :
    l.foldl (fun t b => TrackSet.onId (key b) (g b) t) t = g b t := by
  induction l with
  | nil => exact absurd hb List.not_mem_nil
  | cons b' l ih =>
    obtain ⟨hhead, htail⟩ := List.pairwise_cons.mp hl
    rw [List.foldl_cons]
    rcases List.mem_cons.mp hb with rfl | hb
    · have hfirst : TrackSet.onId (key b) (g b) t = g b t := if_pos ht.symm
      rw [hfirst]
      refine foldl_onId_of_forall_ne ?_
      intro b' hb'
      rw [hg, ← ht]
      exact (hhead b' hb').symm
    · have hskip : TrackSet.onId (key b') (g b') t = t := by
        refine if_neg ?_
        intro heq
        exact hhead b hb (heq.symm.trans ht.symm)
      rw [hskip]
      exact ih htail hb

end Changes

/-- What a pairing makes of its track. -/
def hitBy (c : Config α) (dt : α) (observations : List (Observation α)) (p : Pairing α)
    (t : Track α) : Track α :=
  match observations[p.observation]? with
  | none => t
  | some o => (t.hit c.filter c.lifecycle o p.score dt).1

theorem id_hitBy (c : Config α) (dt : α) (observations : List (Observation α)) (p : Pairing α)
    (t : Track α) : (hitBy c dt observations p t).id = t.id := by
  unfold hitBy
  split <;> rfl

/-- Pairings of live tracks with observations that are all different and not taken miss nothing.
The slots of other observations stay full. -/
theorem foldlM_applyPairing? (c : Config α) (dt : α) {observations : List (Observation α)}
    {l : List (Pairing α)}
    (hl : l.Pairwise fun p q => p.observation ≠ q.observation) {slots : Slots α}
    (hs : s.Ordered) (htracks : ∀ p ∈ l, p.track ∈ s.ids)
    (hslots : ∀ p ∈ l, ∃ o, observations[p.observation]? = some o ∧
      slots[p.observation]? = some (some o)) :
    ∃ slots', l.foldlM (applyPairing? c dt) (s, slots) =
        some (s.map fun t => l.foldl
          (fun t p => TrackSet.onId p.track (hitBy c dt observations p) t) t, slots') ∧
      ∀ j, (∀ p ∈ l, p.observation ≠ j) → slots'[j]? = slots[j]? := by
  induction l generalizing s slots with
  | nil =>
    refine ⟨slots, ?_, fun j _ => rfl⟩
    rw [List.foldlM_nil]
    exact congrArg (fun s => some (s, slots)) (TrackSet.map_self s).symm
  | cons p l ih =>
    obtain ⟨hhead, htail⟩ := List.pairwise_cons.mp hl
    obtain ⟨o, ho, hslot⟩ := hslots p List.mem_cons_self
    have hmodify := hs.modify?_eq (htracks p List.mem_cons_self) (hitBy c dt observations p)
    have hstep : applyPairing? c dt (s, slots) p =
        some (s.map (TrackSet.onId p.track (hitBy c dt observations p)),
          slots.setIfInBounds p.observation none) := by
      unfold applyPairing?
      unfold hitBy at hmodify ⊢
      simp only [ho] at hmodify ⊢
      simp only [hslot, Option.join_some, hmodify, Option.bind_eq_bind, Option.bind_some,
        Option.pure_def]
    have hid : ∀ t, (TrackSet.onId p.track (hitBy c dt observations p) t).id = t.id :=
      TrackSet.id_onId (id_hitBy c dt observations p)
    have hkeep : ∀ j, p.observation ≠ j →
        (slots.setIfInBounds p.observation none)[j]? = slots[j]? :=
      fun j hj => Array.getElem?_setIfInBounds_ne hj
    obtain ⟨slots', hfold, hrest⟩ := ih htail (hs.map hid)
      (by
        intro q hq
        rw [TrackSet.ids_map hid]
        exact htracks q (List.mem_cons_of_mem p hq))
      (by
        intro q hq
        rw [hkeep q.observation (hhead q hq)]
        exact hslots q (List.mem_cons_of_mem p hq))
    refine ⟨slots', ?_, ?_⟩
    · rw [List.foldlM_cons, hstep]
      simp only [Option.bind_eq_bind, Option.bind_some, hfold, TrackSet.map_map, List.foldl_cons]
    · intro j hj
      rw [hrest j fun q hq => hj q (List.mem_cons_of_mem p hq)]
      exact hkeep j (hj p List.mem_cons_self)

omit [Scalar α] in
/-- Changes at ids of live tracks miss nothing. -/
theorem foldlM_modify? {f : Track α → Track α} (hf : ∀ t, (f t).id = t.id) {l : List ℕ}
    (hs : s.Ordered) (hl : ∀ id ∈ l, id ∈ s.ids) :
    l.foldlM (fun s id => s.modify? id f) s =
      some (s.map fun t => l.foldl (fun t id => TrackSet.onId id f t) t) := by
  induction l generalizing s with
  | nil => exact congrArg some (TrackSet.map_self s).symm
  | cons id l ih =>
    have hid : ∀ t, (TrackSet.onId id f t).id = t.id := TrackSet.id_onId hf
    rw [List.foldlM_cons, hs.modify?_eq (hl id List.mem_cons_self)]
    simp only [Option.bind_eq_bind, Option.bind_some, List.foldl_cons]
    rw [ih (hs.map hid) (by
      intro id' hid'
      rw [TrackSet.ids_map hid]
      exact hl id' (List.mem_cons_of_mem id hid')), TrackSet.map_map]

end Tracker

end ObstacleTracking
