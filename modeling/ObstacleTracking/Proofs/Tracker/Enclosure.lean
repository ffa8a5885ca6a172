import ObstacleTracking.Detection.Segment
import ObstacleTracking.Proofs.Association.Permutations
import ObstacleTracking.Proofs.Geometry.Enclosure
import ObstacleTracking.Proofs.Tracker.Frames

/-!
# Objects fit their boxes

The box of a detection that is made of a segment encloses its cloud. The tracker moves both by
poses that turn about the vertical axis, fits the box again where it turns it along the motion,
and displaces both while the obstacle is missed, so the box of every reported object encloses the
cloud of the object.
-/

namespace ObstacleTracking

variable {K : Type} [Field K] [LinearOrder K] [ExactRoots K]

/-! ### Detections -/

/-- The box of the detection encloses its cloud. -/
def Detection.FitsBox (d : Detection K) : Prop :=
  OrientedBox.Encloses ⟨d.size, d.center⟩ d.direction d.cloud

namespace Detection.FitsBox

variable {d : Detection K}

theorem shift (h : d.FitsBox) (offset : Vec3 K) : (d.shift offset).FitsBox :=
  OrientedBox.Encloses.shift h offset

theorem move (h : d.FitsBox) {pose : Pose K} {r : Yaw K} (hpose : ∀ v, pose.turn v = r.turn v) :
    (d.move pose).FitsBox :=
  OrientedBox.Encloses.move h hpose

variable [IsStrictOrderedRing K]

/-- A moving obstacle gets the box along its heading, and a slow one has a direction already. -/
theorem orient (h : d.FitsBox) (l : LifecycleConfig K) (velocity lane : Vec3 K) :
    (Track.orient l velocity lane d).FitsBox := by
  unfold Track.orient
  by_cases hspeed : l.speedNoiseMaximum < velocity.norm
  · rw [if_pos hspeed]
    cases hheading : velocity.unitHorizontal? with
    | none => exact h
    | some heading =>
      have hunit := Vec3.isLevelUnit_of_unitHorizontal? hheading
      cases hbox : OrientedBox.around? d.cloud heading with
      | none =>
        -- only an empty cloud has no box, and any box encloses it
        have hcloud : d.cloud = [] := OrientedBox.eq_nil_of_around? hbox
        dsimp only
        rw [hbox]
        exact OrientedBox.encloses_nil hunit hcloud
      | some box =>
        dsimp only
        rw [hbox]
        exact OrientedBox.encloses_of_around? hunit hbox
  · rw [if_neg hspeed, h.levelUnit.unitHorizontal?_eq]
    exact h

theorem segment (s : Segment K) : s.detection.FitsBox := by
  have hunit := Vec3.isLevelUnit_axis s.direction
  unfold FitsBox Segment.detection Segment.box
  dsimp only
  cases hbox : OrientedBox.around? s.points s.direction.axis with
  | none => exact OrientedBox.encloses_nil hunit (OrientedBox.eq_nil_of_around? hbox)
  | some box => exact OrientedBox.encloses_of_around? hunit hbox

end Detection.FitsBox

namespace Tracker

/-! ### Frames -/

/-- The pose turns about the vertical axis, and then displaces. -/
def IsUpright (pose : Pose K) : Prop := ∃ (r : Yaw K) (t : Vec3 K), pose = r.pose.displace t

/-- The detections of a frame are made of segments, and its pose, if it has one, is upright. -/
structure Frame.FromSegments (f : Frame K) : Prop where
  detections : ∀ d ∈ f.detections, ∃ s : Segment K, d = s.detection
  pose : ∀ pose, f.options.pose = some pose → IsUpright pose

variable [IsStrictOrderedRing K] {tr : Tracker K} {seen : List ℕ}

theorem fitsBox_observed {f : Frame K} (hf : f.FromSegments) {pose : Pose K}
    (hpose : f.options.pose = some pose) :
    ∀ o ∈ tr.observed f.detections f.timestamp pose f.options.lanes, o.detection.FitsBox := by
  intro o ho
  obtain ⟨d, hd, rfl⟩ := List.mem_map.mp ho
  obtain ⟨s, rfl⟩ := hf.detections d hd
  obtain ⟨r, t, rfl⟩ := hf.pose pose hpose
  refine (Detection.FitsBox.segment s).move (r := r) ?_
  intro v
  rw [Pose.turn_displace, Pose.turn_displace, r.turn_pose]

/-- What a run needs to know of a tracker between frames. -/
structure HasFittedTracks (tr : Tracker K) : Prop where
  kept : ∃ seen, Kept seen tr
  fits : ∀ t ∈ tr.tracks.tracks.toList, t.current.detection.FitsBox

theorem fitsBox_advanced {c : Config K} {dt : K} {observations : List (Observation K)}
    {run : Assignment × CostMatrix K} {s : TrackSet K}
    (hs : ∀ t ∈ s.tracks.toList, t.current.detection.FitsBox)
    (hobservations : ∀ o ∈ observations, o.detection.FitsBox) :
    ∀ t ∈ (advanced c dt observations run s).tracks.toList, t.current.detection.FitsBox := by
  refine forall_advanced hs ?_ ?_ ?_
  · intro t _ o ho score
    exact (hobservations o ho).orient c.lifecycle _ o.lane
  · intro t ht
    exact ht.shift _
  · intro id o ho
    exact hobservations o ho

/-- The tracks stay fitted in every frame. -/
theorem HasFittedTracks.feed (h : tr.HasFittedTracks) (solver : Solver K) {f : Frame K}
    (hf : f.FromSegments) : (tr.feed solver f).1.HasFittedTracks := by
  obtain ⟨seen, hkept⟩ := h.kept
  refine ⟨hkept.feed solver f, ?_⟩
  cases haccept : f.options.accept f.timestamp with
  | error e =>
    rw [feed_of_refuse solver tr haccept]
    exact h.fits
  | ok pose =>
    obtain ⟨-, hpose, -⟩ := FrameOptions.accept_eq_ok_iff.mp haccept
    rw [hkept.feed_of_accept solver haccept]
    exact fitsBox_advanced h.fits (fitsBox_observed hf hpose)

omit [IsStrictOrderedRing K] in
theorem HasFittedTracks.encloses_reported (h : tr.HasFittedTracks) (lanes : Option (LaneMap K))
    (observations : List (Observation K)) :
    ∀ o ∈ (tr.reported lanes observations).objects,
      OrientedBox.Encloses ⟨o.size, o.center⟩ o.direction o.cloud := by
  intro o ho
  obtain ⟨t, ht, rfl⟩ := List.mem_map.mp ho
  have hfits := (h.fits t (List.mem_filter.mp ht).1).shift (-tr.offset)
  have hcenter : t.current.detection.center - tr.offset =
      t.current.detection.center + -tr.offset := by
    apply Vec3.ext <;> simp [sub_eq_add_neg]
  unfold TrackedObject.ofTrack
  dsimp only
  rw [hcenter]
  exact hfits

/-! ### Runs -/

theorem HasFittedTracks.encloses_answers (h : tr.HasFittedTracks) (solver : Solver K)
    {frames : List (Frame K)} (hframes : ∀ f ∈ frames, f.FromSegments) :
    ∀ report, .ok report ∈ answers solver tr frames → ∀ o ∈ report.objects,
      OrientedBox.Encloses ⟨o.size, o.center⟩ o.direction o.cloud := by
  induction frames generalizing tr with
  | nil =>
    intro report hreport
    exact absurd hreport List.not_mem_nil
  | cons f frames ih =>
    have hnext := h.feed solver (hframes f List.mem_cons_self)
    intro report hreport
    rcases List.mem_cons.mp hreport with hfirst | hrest
    · obtain ⟨seen, hkept⟩ := h.kept
      cases haccept : f.options.accept f.timestamp with
      | error e =>
        rw [feed_of_refuse solver tr haccept] at hfirst
        cases hfirst
      | ok pose =>
        have hfeed := hkept.feed_of_accept solver haccept
        dsimp only at hfeed
        rw [hfeed] at hnext hfirst
        rw [Except.ok.inj hfirst]
        exact hnext.encloses_reported _ _
    · exact ih hnext (fun f' hf' => hframes f' (List.mem_cons_of_mem f hf')) report hrest

/-- If all detections are made of segments and all poses are upright, the box of every reported
object encloses its cloud. -/
theorem reported_encloses {config : Config K} (h : create config = .ok tr) (solver : Solver K)
    {frames : List (Frame K)} (hframes : ∀ f ∈ frames, f.FromSegments) :
    ∀ report, .ok report ∈ answers solver tr frames → ∀ o ∈ report.objects,
      OrientedBox.Encloses ⟨o.size, o.center⟩ o.direction o.cloud := by
  have hfitted : tr.HasFittedTracks := by
    refine ⟨⟨[], kept_create h⟩, ?_⟩
    intro t ht
    rw [(eq_of_create h).1] at ht
    exact absurd ht List.not_mem_nil
  exact hfitted.encloses_answers solver hframes

section Example

attribute [local instance] ExactRoots.real

/-- Two points seen from a sensor that drives on and turns left, with lanes that run to the
right. -/
theorem reported_encloses_two :
    let quarter : Yaw ℝ := ⟨0, 1, by norm_num⟩
    let tr : Tracker ℝ := ⟨.standard, {}, none⟩
    let d := (⟨[⟨3, 0, 0⟩, ⟨4, 2, 1⟩], none, ⟨1, 1, 0⟩, .vehicle⟩ : Segment ℝ).detection
    let f : ℝ → Frame ℝ := fun t =>
      ⟨[d], t, ⟨some (quarter.pose.displace ⟨t, 0, 0⟩), some fun _ => .ok ⟨0, -1, 0⟩⟩⟩
    ∀ report, .ok report ∈ answers (Solver.cheapest ℝ) tr [f 0, f 1] → ∀ o ∈ report.objects,
      OrientedBox.Encloses ⟨o.size, o.center⟩ o.direction o.cloud := by
  intro quarter tr d f
  have hcreate : create .standard = .ok tr := create_standard ℝ
  have hsegments : ∀ t, (f t).FromSegments := by
    intro t
    constructor
    · intro d' hd'
      exact ⟨_, List.mem_singleton.mp hd'⟩
    · intro pose hpose
      exact ⟨quarter, ⟨t, 0, 0⟩, (Option.some_inj.mp hpose).symm⟩
  have hframes : ∀ f' ∈ [f 0, f 1], f'.FromSegments := by
    intro f' hf'
    simp only [List.mem_cons, List.not_mem_nil, or_false] at hf'
    rcases hf' with rfl | rfl
    · exact hsegments 0
    · exact hsegments 1
  exact reported_encloses hcreate (Solver.cheapest ℝ) hframes

end Example

end Tracker

end ObstacleTracking
