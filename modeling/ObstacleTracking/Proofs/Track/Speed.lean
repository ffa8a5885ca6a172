import ObstacleTracking.Proofs.Config.Settings
import ObstacleTracking.Proofs.Filter.Mean
import ObstacleTracking.Proofs.Linear.Length
import ObstacleTracking.Proofs.Track.Run

/-!
# Speeds of tracks

Only a correction changes a velocity other than by setting it to zero, and its change of velocity is
shortened to a maximum. So the speed grows by at most that maximum with each hit, and a track that
starts at rest is no faster than the maximum times the number of its hits. Which covariances the
corrections use does not matter.
-/

namespace ObstacleTracking

/-! ### Hits -/

section Hits

variable {α : Type}

def TrackEvent.isHit : TrackEvent α → Bool
  | .hit .. => true
  | _ => false

/-- Each hit adds one to the counter of the frames in which a track was seen, which may go round. -/
theorem Track.visible_run [Scalar α] (c : FilterConfig α) (t : Track α)
    (events : List (TrackEvent α)) :
    (t.run c events).visible = t.visible + UInt32.ofNat (events.countP TrackEvent.isHit) := by
  induction events generalizing t with
  | nil => exact (UInt32.add_zero _).symm
  | cons event events ih =>
    cases event with
    | predict dt => exact ih (t.predict c dt)
    | miss dt => exact ih (t.miss c dt)
    | hit l o score dt =>
      have hvisible : (t.hit c l o score dt).1.visible = t.visible + UInt32.ofNat 1 := rfl
      rw [List.countP_cons_of_pos rfl, Nat.add_comm, UInt32.ofNat_add, ← UInt32.add_assoc,
        ← hvisible]
      exact ih (t.hit c l o score dt).1

end Hits

variable {K : Type} [Field K] [LinearOrder K] [ExactRoots K]

/-! ### The filter -/

namespace Filter

variable {c : FilterConfig K}

theorem velocity_predict (c : FilterConfig K) (e : Estimate K) (dt : K) :
    (predict c e dt).velocity = e.velocity := by
  unfold predict Estimate.velocity
  split
  · dsimp only
    rw [transition_mul, MotionState.velocity_ofParts]
  · rfl

variable [IsStrictOrderedRing K]

theorem norm_velocity_limit_le (hc : 0 ≤ c.velocityCorrectionMaximum) (change : MotionState K) :
    (MotionState.velocity (limit c change).1).norm ≤ c.velocityCorrectionMaximum := by
  unfold limit
  dsimp only
  split
  case isTrue hlong =>
    have hlength : 0 < (MotionState.velocity change).norm := hc.trans_lt hlong
    rw [MotionState.velocity_ofParts, Vec3.norm_mul _ (div_nonneg hc hlength.le),
      mul_div_cancel₀ _ hlength.ne']
  case isFalse hshort => exact not_lt.mp hshort

theorem norm_velocity_correct_le (hc : 0 ≤ c.velocityCorrectionMaximum) (predicted : Estimate K)
    (innovation inverse : Mat 6 6 K) (observed : MotionState K) :
    (correct c predicted innovation inverse observed).estimate.velocity.norm ≤
      predicted.velocity.norm + c.velocityCorrectionMaximum := by
  unfold correct Estimate.velocity
  dsimp only
  rw [MotionState.velocity_plus]
  exact (Vec3.norm_add_le _ _).trans (add_le_add_right (norm_velocity_limit_le hc _) _)

/-- Whatever becomes of an observation, the speed grows by no more than one correction allows. -/
theorem norm_velocity_update_le (hc : 0 ≤ c.velocityCorrectionMaximum) (e : Estimate K)
    (anchor : Vec3 K) (score dt : K) :
    (update c e anchor score dt).estimate.velocity.norm ≤
      e.velocity.norm + c.velocityCorrectionMaximum := by
  have hkept : e.velocity.norm ≤ e.velocity.norm + c.velocityCorrectionMaximum :=
    le_add_of_nonneg_right hc
  have hpredicted : (predict c e dt).velocity.norm ≤
      e.velocity.norm + c.velocityCorrectionMaximum := by
    rw [velocity_predict]
    exact hkept
  unfold update
  split
  · dsimp only
    split
    · exact hpredicted
    · split
      · exact hpredicted
      · rw [← velocity_predict c e dt]
        exact norm_velocity_correct_le hc _ _ _ _
  · exact hkept

end Filter

/-! ### The track -/

namespace Track

variable {c : FilterConfig K}

/-- The estimate of a track and its prediction are no faster than a bound. -/
structure SpeedWithin (bound : K) (t : Track K) : Prop where
  estimate : t.estimate.velocity.norm ≤ bound
  predicted : ∀ e, t.predicted = some e → e.velocity.norm ≤ bound

variable {bound : K} {t : Track K}

theorem speedWithin_start (c : FilterConfig K) (capacity id : ℕ) (o : Observation K) :
    SpeedWithin 0 (start c capacity id o) := by
  constructor
  · exact Vec3.norm_zero.le
  · intro e he
    cases he

theorem SpeedWithin.predict (h : SpeedWithin bound t) (dt : K) :
    SpeedWithin bound (t.predict c dt) := by
  constructor
  · exact h.estimate
  · intro e he
    rw [← Option.some_inj.mp he, Filter.velocity_predict]
    exact h.estimate

theorem SpeedWithin.miss (h : SpeedWithin bound t) (dt : K) : SpeedWithin bound (t.miss c dt) := by
  have hestimate : (t.predicted.getD (Filter.predict c t.estimate dt)).velocity.norm ≤ bound := by
    cases hpredicted : t.predicted with
    | none =>
      rw [Option.getD_none, Filter.velocity_predict]
      exact h.estimate
    | some e => exact h.predicted e hpredicted
  constructor
  · exact hestimate
  · intro e he
    cases he

variable [IsStrictOrderedRing K]

theorem norm_velocity_settleVelocity_le (l : LifecycleConfig K) (previous : Vec3 K) (dt : K)
    (e : Estimate K) : (settleVelocity l previous dt e).velocity.norm ≤ e.velocity.norm := by
  unfold settleVelocity
  dsimp only
  split
  · unfold Estimate.velocity
    dsimp only
    rw [MotionState.velocity_ofParts, Vec3.norm_zero]
    exact Vec3.norm_nonneg _
  · exact le_rfl

theorem SpeedWithin.hit (hc : 0 ≤ c.velocityCorrectionMaximum) (h : SpeedWithin bound t)
    (l : LifecycleConfig K) (o : Observation K) (score dt : K) :
    SpeedWithin (bound + c.velocityCorrectionMaximum) (t.hit c l o score dt).1 := by
  constructor
  · calc (t.hit c l o score dt).1.estimate.velocity.norm
        ≤ (Filter.update c t.estimate o.anchor score dt).estimate.velocity.norm :=
          norm_velocity_settleVelocity_le l _ dt _
      _ ≤ t.estimate.velocity.norm + c.velocityCorrectionMaximum :=
          Filter.norm_velocity_update_le hc _ _ _ _
      _ ≤ bound + c.velocityCorrectionMaximum := add_le_add_left h.estimate _
  · intro e he
    cases he

/-! ### Runs -/

/-- The speed grows by at most one correction for each hit. -/
theorem SpeedWithin.run (hc : 0 ≤ c.velocityCorrectionMaximum) (h : SpeedWithin bound t)
    (events : List (TrackEvent K)) :
    SpeedWithin (bound + c.velocityCorrectionMaximum * (events.countP TrackEvent.isHit : ℕ))
      (t.run c events) := by
  induction events generalizing t bound with
  | nil =>
    rw [List.countP_nil, Nat.cast_zero, mul_zero, add_zero]
    exact h
  | cons event events ih =>
    cases event with
    | predict dt => exact ih (h.predict dt)
    | miss dt => exact ih (h.miss dt)
    | hit l o score dt =>
      have hrun := ih (h.hit hc l o score dt)
      rw [List.countP_cons_of_pos rfl, Nat.cast_succ, mul_add_one, add_comm (_ * _), ← add_assoc]
      exact hrun

/-- A track is never faster than the largest change of velocity times the number of its hits, which
is one less than the number of frames in which it was seen. -/
theorem norm_velocity_run_le (hc : c.error? = none) (capacity id : ℕ) (o : Observation K)
    (events : List (TrackEvent K)) (hevents : events.countP TrackEvent.isHit < 2 ^ 32) :
    let t := (start c capacity id o).run c events
    (t.visible - 1).toNat = events.countP TrackEvent.isHit ∧
      t.estimate.velocity.norm ≤ c.velocityCorrectionMaximum * ((t.visible - 1).toNat : ℕ) := by
  intro t
  have hvisible : (t.visible - 1).toNat = events.countP TrackEvent.isHit := by
    have hstart : (start c capacity id o).visible = 1 := rfl
    rw [visible_run, hstart, UInt32.add_comm, UInt32.add_sub_cancel,
      UInt32.toNat_ofNat_of_lt' hevents]
  refine ⟨hvisible, ?_⟩
  have hrun := (speedWithin_start c capacity id o).run
    (FilterConfig.velocityCorrectionMaximum_pos hc).le events
  rw [zero_add] at hrun
  rw [hvisible]
  exact hrun.estimate

section Example

attribute [local instance] ExactRoots.real

/-- An obstacle that jumps by fifty meters in a tenth of a second is given no more than the speed of
one correction, and it keeps it while it is missed. -/
theorem norm_velocity_run_le_jump :
    let o := Observation.ofDetection Mat.identity none
      (⟨[⟨0, 0, 0⟩], [], 0, Vec3.forward, 0, .vehicle⟩ : Detection ℝ)
    let o' := Observation.ofDetection Mat.identity none
      (⟨[⟨50, 0, 0⟩], [], 0, Vec3.forward, 0, .vehicle⟩ : Detection ℝ)
    let events := [.predict (1 / 10), .hit .standard o' 0 (1 / 10), .predict (1 / 5), .miss (1 / 5)]
    ((start .standard 5 1 o).run .standard events).estimate.velocity.norm ≤ 10 := by
  intro o o' events
  have hhits : events.countP TrackEvent.isHit = 1 := rfl
  have hmaximum : (FilterConfig.standard : FilterConfig ℝ).velocityCorrectionMaximum = 10 :=
    Nat.cast_ofNat
  have hspeed := norm_velocity_run_le (FilterConfig.error?_standard ℝ ℝ) 5 1 o events (by decide)
  obtain ⟨hcount, hle⟩ := hspeed
  rw [hcount, hhits, hmaximum, Nat.cast_one, mul_one] at hle
  exact hle

end Example

end Track

end ObstacleTracking
