import ObstacleTracking.Proofs.Geometry.Cloud
import ObstacleTracking.Proofs.Tracker.Survival

/-!
# Sightings

What an object shows is a detection of some frame: the one that the frame gave to its track, as it
stands in the world from the pose of that frame. An object that is not lost shows a detection of
the latest frame. A lost one shows that of the last frame which gave one to its track, displaced
as far as its anchor has come since.
-/

namespace ObstacleTracking

/-- A detection that was given to a track, and the object that the track was right after. -/
structure Sighting (α : Type) where
  pose : Pose α
  detection : Detection α
  object : TrackedObject α

/-- Turning a detection leaves what it shows. -/
theorem Track.exists_orient_eq {α : Type} [Scalar α] (l : LifecycleConfig α)
    (velocity lane : Vec3 α) (d : Detection α) :
    ∃ center direction size,
      orient l velocity lane d = { d with center, direction, size } := by
  unfold orient
  by_cases hspeed : l.speedNoiseMaximum < velocity.norm
  · rw [if_pos hspeed]
    cases velocity.unitHorizontal? with
    | none => exact ⟨_, _, _, rfl⟩
    | some heading =>
      cases hbox : OrientedBox.around? d.cloud heading with
      | none => exact ⟨d.center, heading, d.size, by simp [hbox]⟩
      | some box => exact ⟨box.center, heading, box.size, by simp [hbox]⟩
  · rw [if_neg hspeed]
    cases d.direction.unitHorizontal? with
    | some u => exact ⟨_, _, _, rfl⟩
    | none =>
      cases lane.unitHorizontal? with
      | none => exact ⟨_, _, _, rfl⟩
      | some u => exact ⟨_, _, _, rfl⟩

namespace Tracker

section Frames

variable {α : Type} [Scalar α]

/-- The observation at a place is matched to the track with an id, or starts it. -/
inductive Assigns (before : TrackSet α) (a : Assignment) (id j : ℕ) : Prop
  | hit {i : ℕ} {t : Track α} (ht : before.tracks[i]? = some t) (hid : t.id = id)
      (hmatched : (i, j) ∈ a.matched)
  | started {k : ℕ} (hid : before.lastId + 1 + k = id)
      (hleft : a.unmatchedDetections[k]? = some j)

/-- A frame is accepted, and its detection at a place is given to the track with an id. -/
def Gives (solver : Solver α) (tr : Tracker α) (f : Frame α) (id j : ℕ) : Prop :=
  ∃ pose, f.options.accept f.timestamp = .ok pose ∧
    let observations := tr.observed f.detections f.timestamp pose f.options.lanes
    Assigns tr.tracks (tr.assigned solver (tr.elapsed f.timestamp) observations).1 id j

/-- All live tracks in world coordinates. -/
def objects (tr : Tracker α) : List (TrackedObject α) :=
  tr.tracks.tracks.toList.map (TrackedObject.ofTrack tr.offset)

/-- The frame gives one detection, and no other, to the track with an id. -/
structure Sees (solver : Solver α) (tr : Tracker α) (f : Frame α) (id : ℕ) (s : Sighting α) :
    Prop where
  accept_eq : f.options.accept f.timestamp = .ok s.pose
  given : ∃ j, f.detections[j]? = some s.detection ∧ ∀ j', Gives solver tr f id j' ↔ j' = j
  mem_objects : s.object ∈ (tr.feed solver f).1.objects
  id_eq : s.object.id = id

/-- The sighting in the last of some frames that gave a detection to the track with an id. -/
inductive LastSeen (solver : Solver α) (tr : Tracker α) (id : ℕ) :
    List (Frame α) → Sighting α → Prop
  | seen {frames : List (Frame α)} {f : Frame α} {s : Sighting α}
      (h : Sees solver (tr.feedAll solver frames) f id s) :
      LastSeen solver tr id (frames ++ [f]) s
  | missed {frames : List (Frame α)} {f : Frame α} {s : Sighting α}
      (h : LastSeen solver tr id frames s)
      (hnone : ∀ j, ¬ Gives solver (tr.feedAll solver frames) f id j) :
      LastSeen solver tr id (frames ++ [f]) s

/-! ### One detection for each track -/

variable {c : Config α} {dt : α} {observations : List (Observation α)}
  {run : Assignment × CostMatrix α} {before after : TrackSet α} {followed started : List (Track α)}

theorem ComesFrom.assigns {t' : Track α} {j : ℕ}
    (h : ComesFrom c dt observations run before t' j) : Assigns before run.1 t'.id j := by
  cases h with
  | hit ht hmatched ho heq =>
    refine .hit ht ?_ hmatched
    rw [heq]
    rfl
  | started hleft ho heq =>
    refine .started ?_ hleft
    rw [heq]
    rfl

namespace FrameAccount

theorem assigns_unique (h : FrameAccount c dt observations run before followed started after)
    (hordered : before.Ordered) (hle : ∀ t ∈ before.tracks.toList, t.id ≤ before.lastId)
    {id j j' : ℕ} (hj : Assigns before run.1 id j) (hj' : Assigns before run.1 id j') : j = j' := by
  have hmatched := (List.nodup_append'.mp h.nodup_matched).1
  have hlive : ∀ {i : ℕ} {t : Track α}, before.tracks[i]? = some t → t.id ≤ before.lastId :=
    fun ht => hle _ (Array.mem_toList_iff.mpr (Array.mem_of_getElem? ht))
  cases hj with
  | hit ht hid hpair =>
    cases hj' with
    | hit ht' hid' hpair' =>
      have hi := hordered.index_eq ht ht' (hid.trans hid'.symm)
      rw [← hi] at hpair'
      exact congrArg Prod.snd (List.inj_on_of_nodup_map hmatched hpair hpair' rfl)
    | started hid' _ =>
      have hlt := hlive ht
      omega
  | started hid hleft =>
    cases hj' with
    | hit ht' hid' _ =>
      have hlt := hlive ht'
      omega
    | started hid' hleft' =>
      have hk := Nat.add_left_cancel (hid.trans hid'.symm)
      rw [hk, hleft', Option.some_inj] at hleft
      exact hleft.symm

theorem not_assigns_of_unmatched
    (h : FrameAccount c dt observations run before followed started after)
    (hordered : before.Ordered) (hle : ∀ t ∈ before.tracks.toList, t.id ≤ before.lastId) {i : ℕ}
    {t : Track α} (ht : before.tracks[i]? = some t) (hunmatched : i ∈ run.1.unmatchedTracks)
    (j : ℕ) : ¬ Assigns before run.1 t.id j := by
  obtain ⟨-, -, hapart⟩ := List.nodup_append'.mp h.nodup_matched
  intro hj
  cases hj with
  | hit ht' hid hpair =>
    have hi := hordered.index_eq ht' ht hid
    rw [hi] at hpair
    exact hapart (List.mem_map_of_mem hpair) hunmatched
  | started hid _ =>
    have hlt := hle t (Array.mem_toList_iff.mpr (Array.mem_of_getElem? ht))
    omega

/-- A track after a frame comes from an observation, or it was live before and is missed. -/
theorem comesFrom_or_missed (h : FrameAccount c dt observations run before followed started after)
    {t' : Track α} (ht' : t' ∈ after.tracks.toList) :
    (∃ j, ComesFrom c dt observations run before t' j) ∨
      ∃ i t, before.tracks[i]? = some t ∧ i ∈ run.1.unmatchedTracks ∧
        t' = follow c dt t none := by
  rw [h.tracks_eq] at ht'
  rcases List.mem_append.mp ht' with hfollowed | hstarted
  · obtain ⟨i, t, ht, hfollow⟩ := h.exists_followed (List.mem_filter.mp hfollowed).1
    cases hfollow with
    | @hit j o hpair ho => exact Or.inl ⟨j, .hit ht hpair ho rfl⟩
    | miss hunmatched => exact Or.inr ⟨i, t, ht, hunmatched, rfl⟩
  · obtain ⟨k, hk⟩ := List.mem_iff_getElem?.mp hstarted
    have hlt : k < run.1.unmatchedDetections.length := by
      rw [← h.length_started]
      exact (List.getElem?_eq_some_iff.mp hk).1
    obtain ⟨o, ho, hstart⟩ := h.starts k _ (List.getElem?_eq_getElem hlt)
    rw [hk, Option.some_inj] at hstart
    exact Or.inl ⟨_, .started (List.getElem?_eq_getElem hlt) ho hstart⟩

end FrameAccount

/-! ### Runs -/

/-- A refused frame gives nothing to any track. -/
theorem not_gives_of_refuse {solver : Solver α} {tr : Tracker α} {f : Frame α} {e : FrameError α}
    (h : f.options.accept f.timestamp = .error e) (id j : ℕ) : ¬ Gives solver tr f id j := by
  rintro ⟨pose, haccept, -⟩
  rw [h] at haccept
  cases haccept

/-- A frame that gives a detection to a track gives it no other. -/
theorem Kept.gives_iff {seen : List ℕ} {tr : Tracker α} (hkept : Kept seen tr) (solver : Solver α)
    {f : Frame α} {id j : ℕ} (h : Gives solver tr f id j) (j' : ℕ) :
    Gives solver tr f id j' ↔ j' = j := by
  constructor
  · intro h'
    obtain ⟨pose, haccept, hassigns⟩ := h
    obtain ⟨pose', haccept', hassigns'⟩ := h'
    rw [haccept, Except.ok.injEq] at haccept'
    rw [← haccept'] at hassigns'
    obtain ⟨tr', followed, started, -, -, -, haccount⟩ :=
      hkept.exists_frameAccount solver f.detections haccept
    exact haccount.assigns_unique hkept.ordered hkept.id_le hassigns' hassigns
  · rintro rfl
    exact h

/-! ### What a frame leaves of a cloud -/

theorem ComesFrom.exists_detection {t' : Track α} {j : ℕ}
    (h : ComesFrom c dt observations run before t' j) :
    t'.state ≠ .lost ∧ ∃ o center direction size, observations[j]? = some o ∧
      t'.current.detection = { o.detection with center, direction, size } := by
  cases h with
  | @hit i t o ht hmatched ho heq =>
    obtain ⟨center, direction, size, horient⟩ := Track.exists_orient_eq c.lifecycle
      t'.estimate.velocity o.lane o.detection
    subst heq
    exact ⟨nofun, o, center, direction, size, ho, horient⟩
  | started hleft ho heq =>
    subst heq
    exact ⟨nofun, _, _, _, _, ho, rfl⟩

end Frames

/-! ### What a frame leaves in the world -/

section World

variable {K : Type} [Field K] [LinearOrder K] [ExactRoots K]

variable {tr : Tracker K} {seen : List ℕ} {f : Frame K} {pose : Pose K}

/-- A track that comes from a detection shows it from the pose of the frame. -/
theorem ofTrack_of_comesFrom {c : Config K} {dt : K} {run : Assignment × CostMatrix K}
    {before : TrackSet K} {t' : Track K} {j : ℕ}
    (h : ComesFrom c dt (tr.observed f.detections f.timestamp pose f.options.lanes) run before t'
      j) :
    let o := TrackedObject.ofTrack (nextEpoch tr.epoch pose f.timestamp).offset t'
    o.state ≠ .lost ∧ ∃ d, f.detections[j]? = some d ∧ o.kind = d.kind ∧
      o.cloud = Cloud.move pose d.cloud ∧ o.outline = Cloud.move pose d.outline := by
  obtain ⟨hstate, o, center, direction, size, ho, hdetection⟩ := h.exists_detection
  refine ⟨hstate, ?_⟩
  unfold observed observe at ho
  dsimp only at ho
  rw [List.getElem?_map, Option.map_eq_some_iff] at ho
  obtain ⟨d, hd, rfl⟩ := ho
  refine ⟨d, hd, ?_⟩
  unfold TrackedObject.ofTrack
  dsimp only
  rw [hdetection]
  exact ⟨rfl, Cloud.shift_move_displace pose _ d.cloud,
    Cloud.shift_move_displace pose _ d.outline⟩

/-- A missed track shows what it showed, displaced as far as its anchor has come. -/
theorem ofTrack_of_missed (c : Config K) (dt : K) (offset : Vec3 K) (t : Track K) :
    let o := TrackedObject.ofTrack offset t
    let o' := TrackedObject.ofTrack offset (follow c dt t none)
    o'.id = o.id ∧ o'.state = .lost ∧ o'.kind = o.kind ∧
      o'.cloud = Cloud.shift (o'.anchor - o.anchor) o.cloud ∧
      o'.outline = Cloud.shift (o'.anchor - o.anchor) o.outline := by
  intro o o'
  have hcloud : ∀ (anchor displacement : Vec3 K) (cloud : Cloud K),
      Cloud.shift (-offset) (Cloud.shift displacement cloud) =
        Cloud.shift (anchor + displacement - offset - (anchor - offset))
          (Cloud.shift (-offset) cloud) := by
    intro anchor displacement cloud
    rw [Cloud.shift_shift, Cloud.shift_shift]
    congr 1
    apply Vec3.ext <;> simp [add_comm]
  exact ⟨rfl, rfl, rfl, hcloud t.current.anchor _ _, hcloud t.current.anchor _ _⟩

/-- If a track is live, the local frame was fixed before. -/
theorem Kept.offset_nextEpoch (hkept : Kept seen tr) {t : Track K}
    (ht : t ∈ tr.tracks.tracks.toList) (pose : Pose K) (timestamp : K) :
    (nextEpoch tr.epoch pose timestamp).offset = tr.offset := by
  cases he : tr.epoch with
  | none =>
    rw [hkept.tracks_eq_nil he] at ht
    exact absurd ht List.not_mem_nil
  | some e =>
    unfold offset
    rw [he]
    rfl

/-- After an accepted frame an object shows the detection that the frame gave to its track, or
the frame gave it none and it was displaced. -/
theorem Kept.objects_feed (hkept : Kept seen tr) (solver : Solver K)
    (haccept : f.options.accept f.timestamp = .ok pose) {o : TrackedObject K}
    (ho : o ∈ (tr.feed solver f).1.objects) :
    (o.state ≠ .lost ∧ ∃ d, Sees solver tr f o.id ⟨pose, d, o⟩ ∧ o.kind = d.kind ∧
        o.cloud = Cloud.move pose d.cloud ∧ o.outline = Cloud.move pose d.outline) ∨
      (o.state = .lost ∧ (∀ j, ¬ Gives solver tr f o.id j) ∧ ∃ u ∈ tr.objects, o.id = u.id ∧
        o.kind = u.kind ∧ o.cloud = Cloud.shift (o.anchor - u.anchor) u.cloud ∧
        o.outline = Cloud.shift (o.anchor - u.anchor) u.outline) := by
  have hlive := ho
  obtain ⟨tr', followed, started, hstep, -, hepoch, haccount⟩ :=
    hkept.exists_frameAccount solver f.detections haccept
  have hfeed : (tr.feed solver f).1 = tr' := by
    unfold Tracker.feed
    rw [hstep]
  have hoffset : tr'.offset = (nextEpoch tr.epoch pose f.timestamp).offset := by
    unfold offset
    rw [hepoch]
    rfl
  unfold objects at ho
  rw [hfeed, hoffset] at ho
  obtain ⟨t', ht', rfl⟩ := List.mem_map.mp ho
  rcases haccount.comesFrom_or_missed ht' with ⟨j, hcomes⟩ | ⟨i, t, ht, hunmatched, rfl⟩
  · obtain ⟨hstate, d, hd, hshows⟩ := ofTrack_of_comesFrom hcomes
    have hgives : Gives solver tr f t'.id j := ⟨pose, haccept, hcomes.assigns⟩
    exact Or.inl ⟨hstate, d,
      ⟨haccept, ⟨j, hd, hkept.gives_iff solver hgives⟩, hlive, rfl⟩, hshows⟩
  · obtain ⟨hid, hstate, hshows⟩ := ofTrack_of_missed tr.config (tr.elapsed f.timestamp)
      (nextEpoch tr.epoch pose f.timestamp).offset t
    have hmem : t ∈ tr.tracks.tracks.toList :=
      Array.mem_toList_iff.mpr (Array.mem_of_getElem? ht)
    have hsame := hkept.offset_nextEpoch hmem pose f.timestamp
    refine Or.inr ⟨hstate, ?_, TrackedObject.ofTrack tr.offset t, List.mem_map_of_mem hmem, hid,
      ?_⟩
    · rintro j ⟨pose', haccept', hassigns⟩
      rw [haccept, Except.ok.injEq] at haccept'
      rw [← haccept'] at hassigns
      exact haccount.not_assigns_of_unmatched hkept.ordered hkept.id_le ht hunmatched j hassigns
    · rw [hsame] at hshows ⊢
      exact hshows

/-- The object shows a detection that was seen before, displaced as far as its anchor has come. -/
structure Shows (o : TrackedObject K) (s : Sighting K) : Prop where
  kind_eq : o.kind = s.detection.kind
  cloud_eq : o.cloud =
    Cloud.shift (o.anchor - s.object.anchor) (Cloud.move s.pose s.detection.cloud)
  outline_eq : o.outline =
    Cloud.shift (o.anchor - s.object.anchor) (Cloud.move s.pose s.detection.outline)

/-- What a lost object shows is what was seen of its track last. -/
theorem exists_lastSeen_of_lost {solver : Solver K} {frames : List (Frame K)}
    (hprevious : ∀ u ∈ (tr.feedAll solver frames).objects,
      ∃ s, LastSeen solver tr u.id frames s ∧ Shows u s)
    {o u : TrackedObject K} (hu : u ∈ (tr.feedAll solver frames).objects) (hid : o.id = u.id)
    (hkind : o.kind = u.kind) (hcloud : o.cloud = Cloud.shift (o.anchor - u.anchor) u.cloud)
    (houtline : o.outline = Cloud.shift (o.anchor - u.anchor) u.outline) :
    ∃ s, LastSeen solver tr o.id frames s ∧ Shows o s := by
  obtain ⟨s, hseen, hshows⟩ := hprevious u hu
  rw [← hid] at hseen
  refine ⟨s, hseen, ?_, ?_, ?_⟩
  · rw [hkind, hshows.kind_eq]
  · rw [hcloud, hshows.cloud_eq, Cloud.shift_sub_shift_sub]
  · rw [houtline, hshows.outline_eq, Cloud.shift_sub_shift_sub]

/-- After any frames, every live track shows what was seen of it last. -/
theorem Kept.exists_lastSeen (hkept : Kept seen tr) (hnone : tr.tracks.tracks.toList = [])
    (solver : Solver K) (frames : List (Frame K)) :
    ∀ o ∈ (tr.feedAll solver frames).objects,
      ∃ s, LastSeen solver tr o.id frames s ∧ Shows o s := by
  induction frames using List.reverseRecOn with
  | nil =>
    intro o ho
    obtain ⟨t, ht, -⟩ := List.mem_map.mp ho
    rw [show (tr.feedAll solver []).tracks.tracks.toList = [] from hnone] at ht
    exact absurd ht List.not_mem_nil
  | append_singleton frames f ih =>
    intro o ho
    rw [feedAll_concat] at ho
    obtain ⟨seen', hkept'⟩ := hkept.feedAll solver frames
    cases haccept : f.options.accept f.timestamp with
    | error e =>
      rw [feed_of_refuse solver _ haccept] at ho
      obtain ⟨s, hseen, hshows⟩ := ih o ho
      exact ⟨s, .missed hseen (not_gives_of_refuse haccept o.id), hshows⟩
    | ok pose =>
      rcases hkept'.objects_feed solver haccept ho with
        ⟨-, d, hsees, hkind, hcloud, houtline⟩ |
        ⟨-, hgives, u, hu, hid, hkind, hcloud, houtline⟩
      · refine ⟨_, .seen hsees, hkind, ?_, ?_⟩
        · rw [Cloud.shift_sub_self, hcloud]
        · rw [Cloud.shift_sub_self, houtline]
      · obtain ⟨s, hseen, hshows⟩ :=
          exists_lastSeen_of_lost ih hu hid hkind hcloud houtline
        exact ⟨s, .missed hseen hgives, hshows⟩

/-- In every frame of a run, a reported object that is not lost shows the one detection that the
frame gave to its track, from the pose of the frame. A lost one got none, and shows the detection
that was given to it last, from the pose of that frame, displaced as far as its anchor has come
since. -/
theorem reported_shows {config : Config K} (h : create config = .ok tr) (solver : Solver K)
    (frames : List (Frame K)) (f : Frame K) {report : FrameReport K}
    (hreport : ((tr.feedAll solver frames).feed solver f).2 = .ok report) :
    ∀ o ∈ report.objects,
      (o.state ≠ .lost → ∃ s, Sees solver (tr.feedAll solver frames) f o.id s ∧
        o.kind = s.detection.kind ∧ o.cloud = Cloud.move s.pose s.detection.cloud ∧
        o.outline = Cloud.move s.pose s.detection.outline) ∧
      (o.state = .lost → (∀ j, ¬ Gives solver (tr.feedAll solver frames) f o.id j) ∧
        ∃ s, LastSeen solver tr o.id frames s ∧ o.kind = s.detection.kind ∧
          o.cloud = Cloud.shift (o.anchor - s.object.anchor) (Cloud.move s.pose s.detection.cloud) ∧
          o.outline = Cloud.shift (o.anchor - s.object.anchor)
            (Cloud.move s.pose s.detection.outline)) := by
  intro o ho
  have hstart := kept_create h
  have hnone : tr.tracks.tracks.toList = [] := by
    rw [(eq_of_create h).1]
  obtain ⟨seen, hkept⟩ := hstart.feedAll solver frames
  have hprevious := hstart.exists_lastSeen hnone solver frames
  cases haccept : f.options.accept f.timestamp with
  | error e =>
    rw [feed_of_refuse solver _ haccept] at hreport
    cases hreport
  | ok pose =>
    have hfeed := hkept.feed_of_accept solver haccept
    have hmem : o ∈ ((tr.feedAll solver frames).feed solver f).1.objects := by
      rw [hfeed] at hreport ⊢
      rw [← Except.ok.inj hreport] at ho
      obtain ⟨t, ht, rfl⟩ := List.mem_map.mp ho
      exact List.mem_map_of_mem (List.mem_filter.mp ht).1
    rcases hkept.objects_feed solver haccept hmem with
      ⟨hstate, d, hsees, hshows⟩ | ⟨hstate, hgives, u, hu, hid, hkind, hcloud, houtline⟩
    · exact ⟨fun _ => ⟨_, hsees, hshows⟩, fun hlost => absurd hlost hstate⟩
    · refine ⟨fun hseen => absurd hstate hseen, fun _ => ⟨hgives, ?_⟩⟩
      obtain ⟨s, hseen, hshows⟩ :=
        exists_lastSeen_of_lost hprevious hu hid hkind hcloud houtline
      exact ⟨s, hseen, hshows.kind_eq, hshows.cloud_eq, hshows.outline_eq⟩

/-! ### A missed obstacle -/

/-- A frame without detections misses every track. -/
theorem FrameAccount.tracks_eq_of_nil {c : Config K} {dt : K} {run : Assignment × CostMatrix K}
    {before after : TrackSet K} {followed started : List (Track K)}
    (h : FrameAccount c dt [] run before followed started after) :
    after.tracks.toList = (before.tracks.toList.map fun t => follow c dt t none).filter
      fun t => !TrackSet.isExpired c.lifecycle t := by
  have hnone := h.observations_once
  rw [List.length_nil, List.range_zero, List.perm_nil, List.append_eq_nil_iff,
    List.map_eq_nil_iff] at hnone
  obtain ⟨hmatched, hleft⟩ := hnone
  have hmatch : ∀ i, matchOf? ([] : List (Observation K)) run i = none := by
    intro i
    refine matchOf?_of_unmatched ?_
    rw [hmatched]
    exact List.not_mem_nil
  have hfollowed : followAll c dt [] run before.tracks.toList =
      before.tracks.toList.map fun t => follow c dt t none := by
    refine List.ext_getElem? ?_
    intro i
    rw [followAll, List.getElem?_mapIdx, List.getElem?_map, hmatch]
  have hstarted : started = [] := by
    rw [h.started_eq, leftOver, hleft]
    rfl
  rw [h.tracks_eq, h.followed_eq, hfollowed, hstarted, List.append_nil]

section Example

attribute [local instance] ExactRoots.real

theorem not_isExpired_missed (dt : ℝ) (id : ℕ) (o : Observation ℝ) :
    TrackSet.isExpired patient.lifecycle (follow patient dt
      (Track.start patient.filter patient.lifecycle.historyCapacity id o) none) = false := by
  have hratio : ∀ t : Track ℝ, ¬ t.visibleRatio < 0 := fun t => not_lt.mpr t.visibleRatio_nonneg
  have hzero : patient.lifecycle.visibleRatioMinimum = 0 := rfl
  unfold TrackSet.isExpired
  rw [hzero, decide_eq_false (hratio _), Bool.and_false, Bool.or_false]
  rfl

theorem create_patient : create patient = .ok ⟨patient, {}, none⟩ :=
  create_of_error?_eq_none error?_patient

/-- An obstacle that is seen in a first frame and missed in a second has one track. -/
theorem exists_tracks_missed (solver : Solver ℝ) {d : Detection ℝ} {timestamp timestamp' : ℝ}
    {options options' : FrameOptions ℝ} {pose pose' : Pose ℝ}
    (haccept : options.accept timestamp = .ok pose)
    (haccept' : options'.accept timestamp' = .ok pose') :
    ∃ lane, (feedAll solver ⟨patient, {}, none⟩
        [⟨[d], timestamp, options⟩, ⟨[], timestamp', options'⟩]).tracks.tracks.toList =
      [follow patient (timestamp' - timestamp)
        (Track.start patient.filter patient.lifecycle.historyCapacity 1
          { Observation.ofDetection (pose.displace (-pose.origin)) patient.matching.bins? d with
            lane }) none] := by
  have hkept := kept_create create_patient
  have hfirst := hkept.feed_of_accept solver (f := ⟨[d], timestamp, options⟩) haccept
  obtain ⟨seen, hkept'⟩ := hkept.feed solver ⟨[d], timestamp, options⟩
  rw [hfirst] at hkept'
  obtain ⟨tr', followed, started, hstep, -, -, haccount⟩ :=
    hkept'.exists_frameAccount solver [] haccept'
  have hmissed := haccount.tracks_eq_of_nil
  have hlast : feedAll solver ⟨patient, {}, none⟩
      [⟨[d], timestamp, options⟩, ⟨[], timestamp', options'⟩] = tr' := by
    rw [feedAll_cons, hfirst, feedAll_cons]
    unfold feed
    dsimp only
    rw [hstep]
    rfl
  rw [hlast, hmissed]
  refine ⟨_, List.filter_eq_self.mpr ?_⟩
  intro t ht
  rw [List.mem_singleton.mp ht]
  exact congrArg (!·) (not_isExpired_missed _ _ _)

/-- An obstacle is seen once, and then missed. -/
theorem reported_shows_missed :
    let tr : Tracker ℝ := ⟨patient, {}, none⟩
    let d : Detection ℝ := ⟨[⟨1, 2, 0⟩, ⟨2, 2, 1⟩], [⟨1, 2, 0⟩], 0, Vec3.forward, 0, .vehicle⟩
    let f : List (Detection ℝ) → ℝ → Frame ℝ := fun ds t =>
      ⟨ds, t, ⟨some (Pose.ofOrigin ⟨t, 0, 0⟩), none⟩⟩
    ∃ report, ((tr.feedAll (Solver.cheapest ℝ) [f [d] 5]).feed (Solver.cheapest ℝ) (f [] 6)).2 =
        .ok report ∧
      ∃ o ∈ report.objects, o.state = .lost ∧
        ∃ s, LastSeen (Solver.cheapest ℝ) tr o.id [f [d] 5] s ∧
          o.cloud = Cloud.shift (o.anchor - s.object.anchor)
            (Cloud.move s.pose s.detection.cloud) := by
  intro tr d f
  have hcreate : create patient = .ok tr := by
    unfold create
    rw [error?_patient]
  have haccept : ∀ (ds : List (Detection ℝ)) (t : ℝ), (f ds t).options.accept (f ds t).timestamp =
      .ok (Pose.ofOrigin ⟨t, 0, 0⟩) := fun ds t =>
    FrameOptions.accept_eq_ok_iff.mpr ⟨rfl, rfl, ExactRoots.isFinite_mat _⟩
  have hkept := kept_create hcreate
  have hfirst : ∃ o, (tr.feedAll (Solver.cheapest ℝ) [f [d] 5]).tracks.tracks.toList =
      [Track.start patient.filter patient.lifecycle.historyCapacity 1 o] := by
    rw [feedAll_cons, hkept.feed_of_accept _ (haccept [d] 5)]
    exact ⟨_, rfl⟩
  have hconfig : (tr.feedAll (Solver.cheapest ℝ) [f [d] 5]).config = patient := by
    rw [feedAll_cons, hkept.feed_of_accept _ (haccept [d] 5)]
    rfl
  obtain ⟨o, hfirst⟩ := hfirst
  obtain ⟨seen, hkept'⟩ := hkept.feedAll (Solver.cheapest ℝ) [f [d] 5]
  obtain ⟨tr', followed, started, hstep, hconfig', -, haccount⟩ :=
    hkept'.exists_frameAccount (Solver.cheapest ℝ) (f [] 6).detections (haccept [] 6)
  have hmissed := haccount.tracks_eq_of_nil
  rw [hfirst, hconfig, List.map_singleton, List.filter_singleton, not_isExpired_missed] at hmissed
  have hreport : ((tr.feedAll (Solver.cheapest ℝ) [f [d] 5]).feed (Solver.cheapest ℝ)
      (f [] 6)).2 = .ok (tr'.reported none []) := by
    unfold feed
    rw [hstep]
    rfl
  have hmem : TrackedObject.ofTrack tr'.offset (follow patient
      ((tr.feedAll (Solver.cheapest ℝ) [f [d] 5]).elapsed (f [] 6).timestamp)
      (Track.start patient.filter patient.lifecycle.historyCapacity 1 o) none) ∈
      (tr'.reported none []).objects := by
    unfold reported TrackSet.report
    dsimp only
    rw [hmissed, hconfig', hconfig]
    exact List.mem_singleton_self _
  obtain ⟨-, hlost⟩ := reported_shows hcreate (Solver.cheapest ℝ) [f [d] 5] (f [] 6) hreport _ hmem
  obtain ⟨-, s, hseen, -, hcloud, -⟩ := hlost rfl
  exact ⟨_, hreport, _, hmem, rfl, s, hseen, hcloud⟩

end Example

end World

end Tracker

end ObstacleTracking
