import ObstacleTracking.Proofs.Config.Standard
import ObstacleTracking.Proofs.Filter.Covariance
import ObstacleTracking.Proofs.Scalar.ExactNumber
import ObstacleTracking.Track.Basic

/-!
# Runs of a track

A track is predicted, hit and missed in any order, with any observations, scores and time steps.
What holds of its covariances is proved of the start, of one event, and so of every run.
-/

namespace ObstacleTracking

inductive TrackEvent (α : Type) where
  | predict (dt : α)
  | hit (l : LifecycleConfig α) (o : Observation α) (score dt : α)
  | miss (dt : α)

namespace Track

variable {α : Type} [Scalar α]

def react (c : FilterConfig α) (t : Track α) : TrackEvent α → Track α
  | .predict dt => t.predict c dt
  | .hit l o score dt => (t.hit c l o score dt).1
  | .miss dt => t.miss c dt

def run (c : FilterConfig α) (t : Track α) (events : List (TrackEvent α)) : Track α :=
  events.foldl (react c) t

/-! ### Covariances -/

theorem covariance_settleVelocity (l : LifecycleConfig α) (previous : Vec3 α) (dt : α)
    (e : Estimate α) : (settleVelocity l previous dt e).covariance = e.covariance := by
  unfold settleVelocity
  dsimp only
  split
  · rfl
  · rfl

variable {K : Type} [Field K] [LinearOrder K] [ExactScalar K α]

/-- The covariances of the confirmed estimate and of the prediction are sound. -/
structure HasSoundCovariances (t : Track α) : Prop where
  estimate : IsSound t.estimate.covariance
  predicted : ∀ e ∈ t.predicted, IsSound e.covariance

variable [IsStrictOrderedRing K] {c : FilterConfig α}

theorem hasSoundCovariances_start (hc : c.error? = none) (capacity id : ℕ) (o : Observation α) :
    HasSoundCovariances (start c capacity id o) := by
  constructor
  · exact isSound_initiate hc o.anchor
  · intro e he
    cases he

/-- Every event leaves sound covariances sound. -/
theorem HasSoundCovariances.react (hc : c.error? = none) {t : Track α}
    (h : HasSoundCovariances t) (event : TrackEvent α) : HasSoundCovariances (t.react c event) := by
  cases event with
  | predict dt =>
    constructor
    · exact h.estimate
    · intro e he
      have heq : Filter.predict c t.estimate dt = e := Option.some_inj.mp he
      rw [← heq]
      exact isSound_predict hc h.estimate dt
  | hit l o score dt =>
    constructor
    · have hupdate := (isSound_update hc h.estimate o.anchor score dt).1
      rw [← covariance_settleVelocity l t.estimate.velocity dt] at hupdate
      exact hupdate
    · intro e he
      cases he
  | miss dt =>
    constructor
    · have hpredicted : IsSound
          (t.predicted.getD (Filter.predict c t.estimate dt)).covariance := by
        cases hp : t.predicted with
        | none => exact isSound_predict hc h.estimate dt
        | some e => exact h.predicted e hp
      exact hpredicted
    · intro e he
      cases he

theorem HasSoundCovariances.run (hc : c.error? = none) {t : Track α}
    (h : HasSoundCovariances t) (events : List (TrackEvent α)) :
    HasSoundCovariances (t.run c events) := by
  induction events generalizing t with
  | nil => exact h
  | cons event events ih => exact ih (h.react hc event)

/-- Throughout every run of a track under a valid configuration the confirmed covariance and
that of a stored prediction are covariances of the filter, and no hit finds a singular one. -/
theorem isCovariance_run (hc : c.error? = none) (capacity id : ℕ) (o : Observation α)
    (events : List (TrackEvent α)) :
    IsCovariance ((start c capacity id o).run c events).estimate.covariance ∧
      (∀ e, ((start c capacity id o).run c events).predicted = some e →
        IsCovariance e.covariance) ∧
      ∀ (l : LifecycleConfig α) (o' : Observation α) (score dt : α),
        (((start c capacity id o).run c events).hit c l o' score dt).2 ≠ .singular := by
  have hsound := (hasSoundCovariances_start hc capacity id o).run hc events
  refine ⟨hsound.estimate.isCovariance, ?_, ?_⟩
  · intro e he
    exact (hsound.predicted e he).isCovariance
  · intro l o' score dt
    exact (isSound_update hc hsound.estimate o'.anchor score dt).2

/-- The first hit has a score that is not a number, and the missed frame is infinitely long. -/
theorem isCovariance_run_standard :
    let o := Observation.ofDetection Mat.identity none
      (⟨[], [], 0, 0, 0, .vehicle⟩ : Detection ExactNumber)
    let t := (start .standard 5 1 o).run .standard
      [.predict (.real 1), .hit .standard o .notNumber (.real 1), .miss (.infinite false),
        .predict (.real 2)]
    IsCovariance t.estimate.covariance ∧ (∃ e, t.predicted = some e ∧ IsCovariance e.covariance) ∧
      (t.hit .standard .standard o (.real 1) (.real 2)).2 ≠ .singular := by
  intro o t
  have hrun := isCovariance_run (FilterConfig.error?_standard ℝ ExactNumber) 5 1 o
    [.predict (.real 1), .hit .standard o .notNumber (.real 1), .miss (.infinite false),
      .predict (.real 2)]
  obtain ⟨hestimate, hpredicted, hhit⟩ := hrun
  exact ⟨hestimate, ⟨_, rfl, hpredicted _ rfl⟩, hhit .standard o (.real 1) (.real 2)⟩

end Track

end ObstacleTracking
