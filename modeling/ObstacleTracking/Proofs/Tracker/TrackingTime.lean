import Mathlib.Algebra.BigOperators.Group.List.Basic
import ObstacleTracking.Proofs.Tracker.Live
import ObstacleTracking.Proofs.Tracker.Refusal
import ObstacleTracking.Proofs.Tracker.Sightings

/-!
# Tracking times

A track is told in every accepted frame what time has passed since the accepted one before,
whether the frame hits it or misses it. So the time of a track is the sum of these steps from the
frame that started it. Where the clock is set back a step counts as nothing; where it is not, the
sum is the time between two frames.
-/

namespace ObstacleTracking

/-! ### Clocks -/

section Clock

variable {K : Type} [Field K] [LinearOrder K]

/-- The time that passes on a clock; while it is set back none does. -/
def passed (times : List K) : K := (times.zipWith (fun s t => max 0 (t - s)) times.tail).sum

@[simp] theorem passed_singleton (s : K) : passed [s] = 0 := rfl

theorem passed_cons_cons (s t : K) (times : List K) :
    passed (s :: t :: times) = max 0 (t - s) + passed (t :: times) := List.sum_cons

theorem passed_concat {times : List K} {s : K} (hlast : times.getLast? = some s) (t : K) :
    passed (times ++ [t]) = passed times + max 0 (t - s) := by
  induction times with
  | nil => cases hlast
  | cons r times ih =>
    cases times with
    | nil =>
      rw [List.getLast?_singleton, Option.some_inj] at hlast
      rw [hlast, List.singleton_append, passed_cons_cons, passed_singleton, passed_singleton,
        add_comm]
    | cons r' times =>
      rw [List.getLast?_cons_cons] at hlast
      have hrest := ih hlast
      rw [List.cons_append] at hrest
      rw [List.cons_append, List.cons_append, passed_cons_cons, hrest, passed_cons_cons, add_assoc]

/-- On a clock that is never set back the steps add up to the time between its ends. -/
theorem passed_of_pairwise [IsStrictOrderedRing K] {s t : K} {times : List K}
    (h : (s :: times).Pairwise (· ≤ ·)) (hlast : (s :: times).getLast? = some t) :
    passed (s :: times) = t - s := by
  induction times generalizing s with
  | nil =>
    rw [List.getLast?_singleton, Option.some_inj] at hlast
    rw [passed_singleton, hlast, sub_self]
  | cons r times ih =>
    obtain ⟨hs, hrest⟩ := List.pairwise_cons.mp h
    rw [List.getLast?_cons_cons] at hlast
    have hstep : 0 ≤ r - s := sub_nonneg.mpr (hs r List.mem_cons_self)
    rw [passed_cons_cons, ih hrest hlast, max_eq_right hstep, add_comm, sub_add_sub_cancel]

end Clock

namespace Tracker

open ExactScalar

variable {K α : Type} [Field K] [LinearOrder K] [Scalar α] [ExactScalar K α]
  {seen : List ℕ} {tr : Tracker α} {f : Frame α} {id : ℕ}

/-! ### Timestamps -/

/-- The timestamps of the frames that are accepted. -/
def acceptedTimes (frames : List (Frame α)) : List K :=
  (frames.filter Frame.isSound).map fun f => value f.timestamp

theorem acceptedTimes_append (frames frames' : List (Frame α)) :
    acceptedTimes (frames ++ frames') = acceptedTimes frames ++ acceptedTimes frames' := by
  unfold acceptedTimes
  rw [List.filter_append, List.map_append]

theorem acceptedTimes_cons_of_isSound (h : f.isSound = true) (frames : List (Frame α)) :
    acceptedTimes (f :: frames) = value f.timestamp :: acceptedTimes frames := by
  unfold acceptedTimes
  rw [List.filter_cons_of_pos h, List.map_cons]

theorem acceptedTimes_concat_of_isSound (h : f.isSound = true) (frames : List (Frame α)) :
    acceptedTimes (frames ++ [f]) = acceptedTimes frames ++ [value f.timestamp] := by
  rw [acceptedTimes_append, acceptedTimes_cons_of_isSound h]
  rfl

theorem acceptedTimes_concat_of_not_isSound (h : f.isSound = false) (frames : List (Frame α)) :
    acceptedTimes (frames ++ [f]) = acceptedTimes frames := by
  have hnone : acceptedTimes [f] = [] := by
    unfold acceptedTimes
    rw [List.filter_cons_of_neg (Bool.eq_false_iff.mp h)]
    rfl
  rw [acceptedTimes_append, hnone, List.append_nil]

/-- The epoch holds the timestamp of the frame that was accepted last. -/
theorem Kept.exists_epoch (hkept : Kept seen tr) (solver : Solver α) {frames : List (Frame α)}
    {s : K} (hlast : (acceptedTimes frames).getLast? = some s) :
    ∃ e, (tr.feedAll solver frames).epoch = some e ∧ e.timestamp = ofField s := by
  induction frames using List.reverseRecOn with
  | nil => cases hlast
  | append_singleton frames f ih =>
    rw [feedAll_concat]
    cases haccept : f.options.accept f.timestamp with
    | error e =>
      rw [acceptedTimes_concat_of_not_isSound (Frame.not_isSound_of_refuse haccept)] at hlast
      rw [feed_of_refuse solver _ haccept]
      exact ih hlast
    | ok pose =>
      obtain ⟨seen', hkept'⟩ := hkept.feedAll solver frames
      rw [acceptedTimes_concat_of_isSound (Frame.isSound_iff.mpr ⟨pose, haccept⟩),
        List.getLast?_concat, Option.some_inj] at hlast
      rw [hkept'.feed_of_accept solver haccept, ← hlast,
        ofField_value (FrameOptions.accept_eq_ok_iff.mp haccept).1]
      refine ⟨_, rfl, ?_⟩
      cases (tr.feedAll solver frames).epoch <;> rfl

theorem Kept.elapsed_eq (hkept : Kept seen tr) (solver : Solver α) {frames : List (Frame α)}
    {s : K} (hlast : (acceptedTimes frames).getLast? = some s) {timestamp : α}
    (hfinite : Scalar.isFinite timestamp = true) :
    (tr.feedAll solver frames).elapsed timestamp = ofField (value timestamp - s) := by
  obtain ⟨e, he, htimestamp⟩ := hkept.exists_epoch solver hlast
  unfold elapsed
  rw [he, ← sub_ofField, ofField_value hfinite, ← htimestamp]

/-! ### Starts -/

/-- The frame starts the track with an id. -/
def Starts (solver : Solver α) (tr : Tracker α) (f : Frame α) (id : ℕ) : Prop :=
  id ∉ tr.tracks.ids ∧ id ∈ (tr.feed solver f).1.tracks.ids

section Starts

variable {solver : Solver α}

omit [ExactScalar K α] in
theorem exists_accept_of_starts (h : Starts solver tr f id) :
    ∃ pose, f.options.accept f.timestamp = .ok pose := by
  obtain ⟨hnew, hlive⟩ := h
  cases haccept : f.options.accept f.timestamp with
  | error e =>
    rw [feed_of_refuse solver tr haccept] at hlive
    exact absurd hlive hnew
  | ok pose => exact ⟨pose, rfl⟩

omit [ExactScalar K α] in
/-- A live track was started by one of the frames. -/
theorem exists_starts (hnone : tr.tracks.tracks.toList = []) (frames : List (Frame α)) :
    ∀ id ∈ (tr.feedAll solver frames).tracks.ids, ∃ earlier f later,
      frames = earlier ++ f :: later ∧ Starts solver (tr.feedAll solver earlier) f id := by
  induction frames using List.reverseRecOn with
  | nil =>
    intro id hid
    rw [show (tr.feedAll solver []).tracks.ids = [] from congrArg (List.map Track.id) hnone] at hid
    exact absurd hid List.not_mem_nil
  | append_singleton frames f ih =>
    intro id hid
    rw [feedAll_concat] at hid
    by_cases hbefore : id ∈ (tr.feedAll solver frames).tracks.ids
    · obtain ⟨earlier, f', later, hframes, hstarts⟩ := ih id hbefore
      refine ⟨earlier, f', later ++ [f], ?_, hstarts⟩
      rw [hframes, List.append_assoc, List.cons_append]
    · exact ⟨frames, f, [], rfl, hbefore, hid⟩

omit [ExactScalar K α] in
/-- An id that was issued is not above the last one. -/
theorem Kept.id_le_of_starts (hkept : Kept seen tr) (hstarts : Starts solver tr f id)
    (later : List (Frame α)) : id ≤ (tr.feedAll solver (f :: later)).tracks.lastId := by
  obtain ⟨u, hu, hid⟩ := List.mem_map.mp hstarts.2
  obtain ⟨seen', hnext⟩ := hkept.feed solver f
  rw [← hid]
  exact (hnext.id_le u hu).trans (hnext.lastId_le_feedAll solver later)

end Starts

/-! ### The sum -/

/-- A track that a frame started has counted the time that passed since. -/
theorem Kept.period_of_starts (hkept : Kept seen tr) {solver : Solver α}
    (hstarts : Starts solver tr f id) (later : List (Frame α)) :
    ∀ t ∈ (tr.feedAll solver (f :: later)).tracks.tracks.toList, t.id = id →
      t.period = ofField (passed (acceptedTimes (f :: later))) := by
  obtain ⟨pose, haccept⟩ := exists_accept_of_starts hstarts
  have hsound : f.isSound = true := Frame.isSound_iff.mpr ⟨pose, haccept⟩
  induction later using List.reverseRecOn with
  | nil =>
    intro t ht hid
    rw [acceptedTimes_cons_of_isSound hsound]
    rcases hkept.mem_feed solver haccept ht with ⟨u, hu, m, rfl⟩ | ⟨new, o, -, rfl⟩
    · rw [id_follow] at hid
      exact absurd (List.mem_map.mpr ⟨u, hu, hid⟩) hstarts.1
    · exact zero_eq
  | append_singleton later g ih =>
    intro t ht hid
    obtain ⟨seen', hkept'⟩ := hkept.feedAll solver (f :: later)
    rw [← List.cons_append, feedAll_concat] at ht
    rw [← List.cons_append]
    cases haccept' : g.options.accept g.timestamp with
    | error e =>
      rw [feed_of_refuse solver _ haccept'] at ht
      rw [acceptedTimes_concat_of_not_isSound (Frame.not_isSound_of_refuse haccept')]
      exact ih t ht hid
    | ok pose' =>
      rcases hkept'.mem_feed solver haccept' ht with ⟨u, hu, m, rfl⟩ | ⟨new, o, hnew, rfl⟩
      · rw [id_follow] at hid
        obtain ⟨s, hlast⟩ : ∃ s, (acceptedTimes (f :: later)).getLast? = some s := by
          rw [acceptedTimes_cons_of_isSound hsound]
          exact ⟨_, List.getLast?_eq_some_getLast (List.cons_ne_nil _ _)⟩
        have hfinite := (FrameOptions.accept_eq_ok_iff.mp haccept').1
        rw [period_follow, ih u hu hid, hkept.elapsed_eq solver hlast hfinite, zero_eq,
          maxNum_ofField, add_ofField, max_comm, ← passed_concat hlast,
          acceptedTimes_concat_of_isSound (Frame.isSound_iff.mpr ⟨pose', haccept'⟩)]
      · -- ids are never issued again, so no later frame starts a track with this one
        have hle := hkept.id_le_of_starts hstarts later
        rw [← hid] at hle
        exact absurd hnew (not_lt.mpr hle)

/-- Every live track was started by a frame, and its time is what passed on the clock of the
accepted frames from that one on. If the clock was not set back since then, this is the latest
timestamp less that of the start. -/
theorem live_period [IsStrictOrderedRing K] {config : Config α} (h : create config = .ok tr)
    (solver : Solver α) (frames : List (Frame α)) :
    ∀ t ∈ (tr.feedAll solver frames).tracks.tracks.toList,
      (∃ earlier f later, frames = earlier ++ f :: later ∧
        Starts solver (tr.feedAll solver earlier) f t.id) ∧
      ∀ earlier f later, frames = earlier ++ f :: later →
        Starts solver (tr.feedAll solver earlier) f t.id →
        (acceptedTimes (f :: later)).head? = some (value f.timestamp) ∧
        t.period = ofField (passed (acceptedTimes (f :: later))) ∧
        ((acceptedTimes (f :: later)).Pairwise (· ≤ ·) →
          ∀ latest ∈ (acceptedTimes frames).getLast?,
            t.period = ofField (latest - value f.timestamp)) := by
  intro t ht
  have hkept := kept_create h
  have hnone : tr.tracks.tracks.toList = [] := by
    rw [(eq_of_create h).1]
  refine ⟨exists_starts hnone frames t.id (List.mem_map_of_mem ht), ?_⟩
  rintro earlier f later rfl hstarts
  obtain ⟨seen, hearlier⟩ := hkept.feedAll solver earlier
  have hsplit : tr.feedAll solver (earlier ++ f :: later) =
      (tr.feedAll solver earlier).feedAll solver (f :: later) := List.foldl_append
  rw [hsplit] at ht
  have hperiod := hearlier.period_of_starts hstarts later t ht rfl
  have hcons := acceptedTimes_cons_of_isSound
    (Frame.isSound_iff.mpr (exists_accept_of_starts hstarts)) later
  refine ⟨by rw [hcons, List.head?_cons], hperiod, ?_⟩
  intro hascending latest hlatest
  rw [acceptedTimes_append, hcons, List.getLast?_append_of_ne_nil _ (List.cons_ne_nil _ _)]
    at hlatest
  rw [hcons] at hascending hperiod
  rw [hperiod, passed_of_pairwise hascending hlatest]

-- two steps forward count, the step back from five to three does not
example : passed ([5, 3, 4, 6] : List ℚ) = 3 := by decide +kernel

section Example

attribute [local instance] ExactRoots.real

/-- An obstacle is seen, then a frame comes without a pose, then the obstacle is missed. -/
theorem live_period_missed :
    let tr : Tracker ℝ := ⟨patient, {}, none⟩
    let d : Detection ℝ := ⟨[], [], 0, Vec3.forward, 0, .vehicle⟩
    let f : Option (Pose ℝ) → List (Detection ℝ) → ℝ → Frame ℝ := fun pose ds t =>
      ⟨ds, t, ⟨pose, none⟩⟩
    let frames := [f (some Mat.identity) [d] 5, f none [d] 6, f (some Mat.identity) [] 7]
    ∃ t ∈ (tr.feedAll (Solver.cheapest ℝ) frames).tracks.tracks.toList, t.period = 2 := by
  intro tr d f frames
  have hseen : ∀ ds t, (f (some Mat.identity) ds t).isSound = true := fun _ _ =>
    ExactRoots.isFinite_mat _
  have hsound : frames.filter Frame.isSound =
      [f (some Mat.identity) [d] 5, f (some Mat.identity) [] 7] := by
    have hrefused : (f none [d] 6).isSound = false := rfl
    rw [List.filter_cons_of_pos (hseen [d] 5),
      List.filter_cons_of_neg (Bool.eq_false_iff.mp hrefused),
      List.filter_cons_of_pos (hseen [] 7), List.filter_nil]
  have htimes : acceptedTimes frames = [5, 7] := by
    unfold acceptedTimes
    rw [hsound]
    rfl
  have haccept : ∀ t : ℝ, FrameOptions.accept ⟨some Mat.identity, none⟩ t = .ok Mat.identity :=
    fun t => accept_of_pose rfl t
  obtain ⟨lane, htracks⟩ :=
    exists_tracks_missed (Solver.cheapest ℝ) (d := d) (haccept 5) (haccept 7)
  have hsame := feedAll_filter_isSound (Solver.cheapest ℝ) tr frames
  rw [hsound] at hsame
  have hlive := (congrArg (fun tr => tr.tracks.tracks.toList) hsame).symm.trans htracks
  have hmem := hlive ▸ List.mem_singleton_self _
  have hstarts : Starts (Solver.cheapest ℝ) tr (f (some Mat.identity) [d] 5) 1 := by
    refine ⟨List.not_mem_nil, ?_⟩
    rw [(kept_create create_patient).feed_of_accept _ (haccept 5)]
    exact List.mem_singleton_self _
  obtain ⟨-, hperiod⟩ := live_period create_patient (Solver.cheapest ℝ) frames _ hmem
  obtain ⟨-, -, htwo⟩ := hperiod [] _ _ rfl hstarts
  refine ⟨_, hmem, (htwo ?_ 7 ?_).trans ?_⟩
  · rw [htimes]
    norm_num
  · rw [htimes]
    rfl
  · show (7 : ℝ) - 5 = 2
    norm_num

end Example

end Tracker

end ObstacleTracking
