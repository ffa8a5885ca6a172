import ObstacleTracking.Proofs.Tracker.Live
import ObstacleTracking.Proofs.Tracker.Sightings

/-!
# What a track shows of its motion

A track holds its velocity and its place twice: in its estimate and in its current observation,
from which it is reported. A start, a hit and a missed frame each write both. The velocity and its
uncertainty are copied, so no arithmetic separates them. The place is copied by a hit, but carried
along by displacements while the obstacle is missed, so it takes exact arithmetic to keep it.
-/

namespace ObstacleTracking

/-! ### Velocity -/

namespace Track

variable {α : Type} [Scalar α]

/-- The velocity that is shown is the estimated one, as is its uncertainty. -/
structure ShowsVelocity (t : Track α) : Prop where
  velocity_eq : t.current.velocity = t.estimate.velocity
  uncertainty_eq : t.current.velocityUncertainty = t.estimate.velocityCovariance

theorem showsVelocity_start (f : FilterConfig α) (capacity id : ℕ) (o : Observation α) :
    ShowsVelocity (start f capacity id o) := ⟨rfl, rfl⟩

theorem showsVelocity_hit (f : FilterConfig α) (c : LifecycleConfig α) (t : Track α)
    (o : Observation α) (score dt : α) : ShowsVelocity (t.hit f c o score dt).1 := ⟨rfl, rfl⟩

theorem showsVelocity_miss (f : FilterConfig α) (t : Track α) (dt : α) :
    ShowsVelocity (t.miss f dt) := ⟨rfl, rfl⟩

/-- Turning a detection leaves its points. -/
theorem cloud_orient (l : LifecycleConfig α) (velocity lane : Vec3 α) (d : Detection α) :
    (orient l velocity lane d).cloud = d.cloud := by
  obtain ⟨center, direction, size, horient⟩ := exists_orient_eq l velocity lane d
  rw [horient]

end Track

theorem Tracker.Reachable.showsVelocity {α : Type} [Scalar α] {seen : List ℕ} {tr : Tracker α}
    (h : Reachable seen tr) : ∀ t ∈ tr.tracks.tracks.toList, t.ShowsVelocity := by
  refine h.forall_live rfl ?_ ?_ ?_
  · intro t _ o _ score dt
    exact Track.showsVelocity_hit _ _ _ o score dt
  · intro t _ dt
    exact Track.showsVelocity_miss _ _ dt
  · intro id o _
    exact Track.showsVelocity_start _ _ id o

/-! ### Place -/

section Place

variable {K : Type} [Field K] [LinearOrder K] [ExactRoots K]

/-- The barycenter is the mean of the points, if there are any. -/
def Observation.IsCentered (o : Observation K) : Prop :=
  o.detection.cloud ≠ [] → o.barycenter = Cloud.mean o.detection.cloud

namespace Observation

variable {o : Observation K}

theorem isCentered_ofDetection (pose : Pose K) (bins : Option ℕ) (d : Detection K) :
    (ofDetection pose bins d).IsCentered := by
  intro hcloud
  unfold ofDetection at hcloud ⊢
  dsimp only at hcloud ⊢
  rw [Cloud.barycenter?_eq hcloud, Option.getD_some]

theorem IsCentered.shift [IsStrictOrderedRing K] (h : o.IsCentered) (v : Vec3 K) :
    (o.shift v).IsCentered := by
  intro hcloud
  have hpoints : o.detection.cloud ≠ [] := fun hnil => hcloud (congrArg (Cloud.shift v) hnil)
  calc (o.shift v).barycenter
      = Cloud.mean o.detection.cloud + v := congrArg (· + v) (h hpoints)
    _ = Cloud.mean (o.shift v).detection.cloud := (Cloud.mean_shift hpoints v).symm

theorem IsCentered.adopt (h : o.IsCentered) (c : LifecycleConfig K) (e : Estimate K) :
    (Track.adopt c e o).IsCentered := by
  unfold IsCentered Track.adopt
  dsimp only
  rw [Track.cloud_orient]
  exact h

end Observation

namespace Track

/-- The place that is shown is the estimated one, and the observation stands there. -/
structure ShowsPlace (t : Track K) : Prop where
  anchor_eq : t.current.anchor = t.estimate.position
  centered : t.current.IsCentered

variable {t : Track K} {o : Observation K}

theorem showsPlace_start (f : FilterConfig K) (capacity id : ℕ) (ho : o.IsCentered) :
    ShowsPlace (start f capacity id o) := ⟨rfl, ho⟩

theorem showsPlace_hit (f : FilterConfig K) (c : LifecycleConfig K) (t : Track K)
    (ho : o.IsCentered) (score dt : K) : ShowsPlace (t.hit f c o score dt).1 :=
  ⟨rfl, ho.adopt c _⟩

theorem ShowsPlace.miss [IsStrictOrderedRing K] (h : t.ShowsPlace) (f : FilterConfig K) (dt : K) :
    ShowsPlace (t.miss f dt) := by
  have hadd : ∀ p q : Vec3 K, p + (q - p) = q := by
    intro p q
    apply Vec3.ext <;> simp
  constructor
  · -- the anchor makes the way of the estimate, and they set out from one place
    show t.current.anchor + (_ - t.estimate.position) = _
    rw [h.anchor_eq, hadd]
    rfl
  · exact h.centered.shift _

end Track

end Place

namespace Tracker

theorem Reachable.showsPlace {K : Type} [Field K] [LinearOrder K] [IsStrictOrderedRing K]
    [ExactRoots K] {seen : List ℕ} {tr : Tracker K} (h : Reachable seen tr) :
    ∀ t ∈ tr.tracks.tracks.toList, t.ShowsPlace := by
  have hcentered : ∀ o : Observation K, IsObserved tr.config.matching o → o.IsCentered := by
    rintro o ⟨pose, d, lane, rfl⟩
    exact Observation.isCentered_ofDetection pose tr.config.matching.bins? d
  refine h.forall_live rfl ?_ ?_ ?_
  · intro t _ o ho score dt
    exact Track.showsPlace_hit _ _ _ (hcentered o ho) score dt
  · intro t ht dt
    have hpredicted : (t.predict tr.config.filter dt).ShowsPlace := ⟨ht.anchor_eq, ht.centered⟩
    exact hpredicted.miss _ dt
  · intro id o ho
    exact Track.showsPlace_start _ _ id (hcentered o ho)

/-- After any frames every live track shows the velocity of its estimate and the uncertainty of it,
whatever the arithmetic. With exact arithmetic it is also shown where it is estimated to be, and
the barycenter of what it shows is the mean of the points. -/
theorem live_shows_estimate :
    (∀ {α : Type} [Scalar α] {seen : List ℕ} {tr : Tracker α}, Reachable seen tr →
      ∀ t ∈ tr.tracks.tracks.toList,
        t.current.velocity = MotionState.velocity t.estimate.mean ∧
        ∀ i j : Fin 3, t.current.velocityUncertainty i j =
          t.estimate.covariance (i.natAdd 3) (j.natAdd 3)) ∧
    ∀ {K : Type} [Field K] [LinearOrder K] [IsStrictOrderedRing K] [ExactRoots K] {seen : List ℕ}
      {tr : Tracker K}, Reachable seen tr → ∀ t ∈ tr.tracks.tracks.toList,
        t.current.anchor = MotionState.position t.estimate.mean ∧
        (t.current.detection.cloud ≠ [] →
          t.current.barycenter = Cloud.mean t.current.detection.cloud) := by
  constructor
  · intro α _ seen tr h t ht
    have hshows := h.showsVelocity t ht
    refine ⟨hshows.velocity_eq, ?_⟩
    intro i j
    rw [hshows.uncertainty_eq]
    exact Mat.get_ofFn _ i j
  · intro K _ _ _ _ seen tr h t ht
    have hshows := h.showsPlace t ht
    exact ⟨hshows.anchor_eq, hshows.centered⟩

section Example

attribute [local instance] ExactRoots.real

/-- An obstacle of two points is seen, and then missed from further on. -/
theorem live_shows_estimate_missed :
    let tr : Tracker ℝ := ⟨patient, {}, none⟩
    let d : Detection ℝ := ⟨[⟨1, 2, 0⟩, ⟨2, 2, 1⟩], [], 0, Vec3.forward, 0, .vehicle⟩
    let f : List (Detection ℝ) → ℝ → Frame ℝ := fun ds t =>
      ⟨ds, t, ⟨some (Pose.ofOrigin ⟨t, 0, 0⟩), none⟩⟩
    ∃ t ∈ (tr.feedAll (Solver.cheapest ℝ) [f [d] 5, f [] 6]).tracks.tracks.toList,
      t.state = .lost ∧ t.current.velocity = MotionState.velocity t.estimate.mean ∧
      t.current.anchor = MotionState.position t.estimate.mean ∧
      t.current.barycenter = Cloud.mean t.current.detection.cloud := by
  intro tr d f
  have haccept : ∀ t : ℝ, FrameOptions.accept ⟨some (Pose.ofOrigin ⟨t, 0, 0⟩), none⟩ t =
      .ok (Pose.ofOrigin ⟨t, 0, 0⟩) := fun t => accept_of_pose rfl t
  obtain ⟨lane, htracks⟩ :=
    exists_tracks_missed (Solver.cheapest ℝ) (d := d) (haccept 5) (haccept 6)
  obtain ⟨seen, hreachable⟩ :=
    (Reachable.create create_patient).feedAll (Solver.cheapest ℝ) [f [d] 5, f [] 6]
  have hmem := htracks ▸ List.mem_singleton_self _
  obtain ⟨hvelocity, -⟩ := live_shows_estimate.1 hreachable _ hmem
  obtain ⟨hanchor, hbarycenter⟩ := live_shows_estimate.2 hreachable _ hmem
  exact ⟨_, hmem, rfl, hvelocity, hanchor, hbarycenter (List.cons_ne_nil _ _)⟩

end Example

end Tracker

end ObstacleTracking
