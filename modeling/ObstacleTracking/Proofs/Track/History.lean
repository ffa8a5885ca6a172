import Mathlib.Data.List.Forall2
import ObstacleTracking.Proofs.Track.Speed

/-!
# Histories of tracks

A hit records what the track then shows, and a full history loses its oldest entry for it. So a
history holds what was shown at the start and after the hits, up to its capacity the latest of it.
A miss carries along what the track shows, but nothing of what was recorded. No law of the
arithmetic is used.
-/

namespace ObstacleTracking

namespace Track

variable {α : Type} {capacity : ℕ} {history : List (Observation α)} {o : Observation α}

/-! ### Bounded histories -/

/-- A history that holds what came last still does with one more observation. -/
theorem forall₂_remember {β : Type} {R : β → Observation α → Prop} {sources : List β} {b : β}
    (hcapacity : 0 < capacity)
    (h : List.Forall₂ R (sources.drop (sources.length - capacity)) history) (hb : R b o) :
    List.Forall₂ R ((sources ++ [b]).drop (sources.length + 1 - capacity))
      (remember capacity history o) := by
  have hlength := h.length_eq
  rw [List.length_drop] at hlength
  have hdrop : ∀ n ≤ sources.length, (sources ++ [b]).drop n = sources.drop n ++ [b] :=
    fun n hn => List.drop_append_of_le_length hn
  have hone : List.Forall₂ R [b] [o] := List.Forall₂.cons hb List.Forall₂.nil
  rw [hdrop _ (by omega)]
  unfold remember
  by_cases hfull : capacity ≤ history.length
  · have hplace : sources.length + 1 - capacity = sources.length - capacity + 1 := by omega
    rw [if_pos hfull, hplace, ← List.drop_drop]
    exact List.rel_append (List.forall₂_drop 1 h) hone
  · have hplace : sources.length + 1 - capacity = sources.length - capacity := by omega
    rw [if_neg hfull, hplace]
    exact List.rel_append h hone

theorem remember_latest (hcapacity : 0 < capacity) (shown : List (Observation α))
    (o : Observation α) :
    remember capacity (shown.drop (shown.length - capacity)) o =
      (shown ++ [o]).drop ((shown ++ [o]).length - capacity) := by
  have hsame : List.Forall₂ Eq (shown.drop (shown.length - capacity))
      (shown.drop (shown.length - capacity)) := List.forall₂_refl _
  have hmore := forall₂_remember hcapacity hsame (rfl : o = o)
  rw [List.forall₂_eq_eq_eq] at hmore
  rw [List.length_append, List.length_singleton]
  exact hmore.symm

/-! ### What a run records -/

variable [Scalar α]

/-- A run in which every event may come with a filter of its own. -/
def callAll (t : Track α) (calls : List (FilterConfig α × TrackEvent α)) : Track α :=
  calls.foldl (fun t call => t.react call.1 call.2) t

/-- What the track shows after an event, if that is a hit. -/
def shownAfter (c : FilterConfig α) (t : Track α) (event : TrackEvent α) : List (Observation α) :=
  if event.isHit then [(t.react c event).current] else []

/-- What the track shows right after each hit of a run, in order. -/
def shownAfterHits (t : Track α) : List (FilterConfig α × TrackEvent α) → List (Observation α)
  | [] => []
  | (c, event) :: calls => t.shownAfter c event ++ (t.react c event).shownAfterHits calls

theorem length_shownAfterHits (t : Track α) (calls : List (FilterConfig α × TrackEvent α)) :
    (t.shownAfterHits calls).length = calls.countP fun call => call.2.isHit := by
  induction calls generalizing t with
  | nil => rfl
  | cons call calls ih =>
    obtain ⟨c, event⟩ := call
    unfold shownAfterHits shownAfter
    rw [List.length_append, ih, List.countP_cons, Nat.add_comm]
    cases event.isHit
    · rfl
    · rfl

/-- The history of a track holds the latest of what was shown, the counter of hits has counted it,
and unless the track was just missed it shows the last of it. -/
structure Records (capacity : ℕ) (shown : List (Observation α)) (t : Track α) : Prop where
  capacity_eq : t.historyCapacity = capacity
  history_eq : t.history = shown.drop (shown.length - capacity)
  visible_eq : t.visible = UInt32.ofNat shown.length
  getLast?_eq : t.state ≠ .lost → shown.getLast? = some t.current

variable {shown : List (Observation α)} {t : Track α}

theorem records_start (c : FilterConfig α) (capacity id : ℕ) (o : Observation α) :
    Records (max capacity 1) [(start c capacity id o).current] (start c capacity id o) := by
  constructor
  · rfl
  · have hall : 1 - max capacity 1 = 0 := Nat.sub_eq_zero_of_le (le_max_right capacity 1)
    rw [List.length_singleton, hall]
    rfl
  · rfl
  · intro _
    rfl

theorem Records.react (hcapacity : 0 < capacity) (h : t.Records capacity shown)
    (c : FilterConfig α) (event : TrackEvent α) :
    (t.react c event).Records capacity (shown ++ t.shownAfter c event) := by
  cases event with
  | predict dt =>
    have hnone : t.shownAfter c (.predict dt) = [] := rfl
    rw [hnone, List.append_nil]
    exact ⟨h.capacity_eq, h.history_eq, h.visible_eq, h.getLast?_eq⟩
  | miss dt =>
    have hnone : t.shownAfter c (.miss dt) = [] := rfl
    rw [hnone, List.append_nil]
    exact ⟨h.capacity_eq, h.history_eq, h.visible_eq, fun hstate => absurd rfl hstate⟩
  | hit l o score dt =>
    have hone : t.shownAfter c (.hit l o score dt) = [(t.hit c l o score dt).1.current] := rfl
    rw [hone]
    constructor
    · exact h.capacity_eq
    · have hhistory : (t.hit c l o score dt).1.history =
          remember t.historyCapacity t.history (t.hit c l o score dt).1.current := rfl
      rw [h.capacity_eq, h.history_eq, remember_latest hcapacity] at hhistory
      exact hhistory
    · have hvisible : (t.hit c l o score dt).1.visible = t.visible + 1 := rfl
      rw [h.visible_eq] at hvisible
      rw [List.length_append, List.length_singleton, UInt32.ofNat_add]
      exact hvisible
    · intro _
      exact List.getLast?_concat

theorem Records.callAll (hcapacity : 0 < capacity) (h : t.Records capacity shown)
    (calls : List (FilterConfig α × TrackEvent α)) :
    (t.callAll calls).Records capacity (shown ++ t.shownAfterHits calls) := by
  induction calls generalizing t shown with
  | nil =>
    have hnone : t.shownAfterHits [] = [] := rfl
    rw [hnone, List.append_nil]
    exact h
  | cons call calls ih =>
    obtain ⟨c, event⟩ := call
    have hrest := ih (h.react hcapacity c event)
    rw [List.append_assoc] at hrest
    exact hrest

theorem records_callAll (first : FilterConfig α) (capacity id : ℕ) (o : Observation α)
    (calls : List (FilterConfig α × TrackEvent α)) :
    let t₀ := start first capacity id o
    (t₀.callAll calls).Records (max capacity 1) (t₀.current :: t₀.shownAfterHits calls) :=
  (records_start first capacity id o).callAll (lt_max_of_lt_right Nat.one_pos) calls

omit [Scalar α] in
theorem Records.length_history (h : t.Records capacity shown) :
    t.history.length = min capacity shown.length := by
  rw [h.history_eq, List.length_drop]
  omega

omit [Scalar α] in
theorem Records.visible_toNat (h : t.Records capacity shown) (hlt : shown.length < 2 ^ 32) :
    t.visible.toNat = shown.length := by
  rw [h.visible_eq, UInt32.toNat_ofNat', Nat.mod_eq_of_lt hlt]

omit [Scalar α] in
theorem Records.getLast?_history_eq (hcapacity : 0 < capacity) (h : t.Records capacity shown)
    (hstate : t.state ≠ .lost) : t.history.getLast? = some t.current := by
  have hlast := h.getLast?_eq hstate
  have hne : shown ≠ [] := by
    rintro rfl
    cases hlast
  have hlength := List.length_pos_iff.mpr hne
  have hsome : ¬ shown.length ≤ shown.length - capacity := by omega
  rw [h.history_eq, List.getLast?_drop, if_neg hsome]
  exact hlast

theorem history_react_of_not_isHit (c : FilterConfig α) (t : Track α) {event : TrackEvent α}
    (h : event.isHit = false) : (t.react c event).history = t.history := by
  cases event with
  | predict dt => rfl
  | miss dt => rfl
  | hit l o score dt => cases h

/-- Throughout a run of a track its history is the latest of what the track showed at the start and
right after each hit, oldest first, up to the capacity. These are as many as were counted, until the
hits make the counter go round. Other events than hits leave the history, and unless the last one
was a miss its newest entry is what the track shows. -/
theorem history_eq_latest_shown (first : FilterConfig α) (capacity id : ℕ) (o : Observation α)
    (calls : List (FilterConfig α × TrackEvent α)) :
    let hits := calls.countP fun call => call.2.isHit
    let t₀ := start first capacity id o
    let t := t₀.callAll calls
    let shown := t₀.current :: t₀.shownAfterHits calls
    t.history = shown.drop (shown.length - max capacity 1) ∧
      t.history.length = min (max capacity 1) (hits + 1) ∧
      (hits < 2 ^ 32 - 1 → t.history.length = min (max capacity 1) t.visible.toNat) ∧
      (∀ (c : FilterConfig α) (event : TrackEvent α), event.isHit = false →
        (t.react c event).history = t.history) ∧
      (t.state ≠ .lost → t.history.getLast? = some t.current) := by
  intro hits t₀ t shown
  have hrecords : t.Records (max capacity 1) shown := records_callAll first capacity id o calls
  have hshown : shown.length = hits + 1 :=
    congrArg (· + 1) (length_shownAfterHits t₀ calls)
  have hlength := hrecords.length_history
  refine ⟨hrecords.history_eq, hshown ▸ hlength, ?_, fun c event => history_react_of_not_isHit c t,
    hrecords.getLast?_history_eq (lt_max_of_lt_right Nat.one_pos)⟩
  intro hhits
  rw [hrecords.visible_toNat (by omega)]
  exact hlength

/-- The hit that makes the counter go round is recorded like any other. -/
theorem visible_eq_zero_of_hits (first : FilterConfig α) (capacity id : ℕ) (o : Observation α)
    {calls : List (FilterConfig α × TrackEvent α)}
    (hhits : (calls.countP fun call => call.2.isHit) = 2 ^ 32 - 1) :
    ((start first capacity id o).callAll calls).visible = 0 ∧
      ((start first capacity id o).callAll calls).history.length =
        min (max capacity 1) (2 ^ 32) := by
  have hrecords := records_callAll first capacity id o calls
  have hvisible := hrecords.visible_eq
  have hlength := hrecords.length_history
  rw [List.length_cons, length_shownAfterHits, hhits] at hvisible hlength
  exact ⟨hvisible.trans (by decide), hlength⟩

section Example

attribute [local instance] ExactRoots.real

/-- A history of two after two hits, with a miss and a prediction between them. -/
theorem history_eq_latest_shown_two :
    let o : Vec3 ℝ → Observation ℝ := fun p =>
      Observation.ofDetection Mat.identity none ⟨[p], [], 0, Vec3.forward, 0, .vehicle⟩
    let t₀ := start .standard 2 1 (o 0)
    let t₁ := t₀.callAll [(.standard, .hit .standard (o ⟨1, 0, 0⟩) 1 (1 / 10))]
    let t₂ := t₁.callAll [(.standard, .miss (1 / 10)), (.standard, .predict (1 / 5)),
      (.standard, .hit .standard (o ⟨2, 0, 0⟩) 1 (1 / 5))]
    t₂.history = [t₁.current, t₂.current] ∧ t₂.visible.toNat = 3 ∧
      t₂.history.length = min (max 2 1) t₂.visible.toNat ∧
      (t₂.react .standard (.miss (1 / 10))).history = t₂.history ∧
      t₂.history.getLast? = some t₂.current := by
  intro o t₀ t₁ t₂
  obtain ⟨hhistory, -, hcounted, hleft, hnewest⟩ := history_eq_latest_shown .standard 2 1 (o 0)
    [(.standard, .hit .standard (o ⟨1, 0, 0⟩) 1 (1 / 10)), (.standard, .miss (1 / 10)),
      (.standard, .predict (1 / 5)), (.standard, .hit .standard (o ⟨2, 0, 0⟩) 1 (1 / 5))]
  have hhits : 2 < 2 ^ 32 - 1 := by norm_num
  have hstate : t₂.state ≠ .lost := by
    show TrackState.tracked ≠ .lost
    decide
  exact ⟨hhistory, rfl, hcounted hhits, hleft .standard (.miss (1 / 10)) rfl, hnewest hstate⟩

/-- After `2 ^ 32 - 1` hits the counter is at zero again, and the history is not empty. -/
theorem history_outlasts_counter :
    let o : Observation ℝ :=
      Observation.ofDetection Mat.identity none ⟨[], [], 0, Vec3.forward, 0, .vehicle⟩
    let calls : List (FilterConfig ℝ × TrackEvent ℝ) :=
      List.replicate (2 ^ 32 - 1) (.standard, .hit .standard o 0 1)
    let t := (start .standard 1 1 o).callAll calls
    calls.length < 2 ^ 32 ∧ t.visible = 0 ∧ t.history.length = 1 ∧
      t.history.length ≠ min (max 1 1) t.visible.toNat := by
  intro o calls
  have hcalls : calls.length = 2 ^ 32 - 1 := List.length_replicate
  have hhits : (calls.countP fun call => call.2.isHit) = 2 ^ 32 - 1 := by
    have hhit : (TrackEvent.hit .standard o 0 1).isHit = true := rfl
    rw [List.countP_replicate, if_pos hhit]
  -- of the calls only the number of hits counts, so the list is not written out
  generalize calls = calls at hcalls hhits
  obtain ⟨hzero, hlength⟩ := visible_eq_zero_of_hits .standard 1 1 o hhits
  have hone := hlength.trans (by norm_num : min (max 1 1) (2 ^ 32) = 1)
  refine ⟨?_, hzero, hone, ?_⟩
  · rw [hcalls]
    norm_num
  · rw [hone, hzero]
    decide

end Example

end Track

end ObstacleTracking
