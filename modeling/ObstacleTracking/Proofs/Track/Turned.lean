import ObstacleTracking.Proofs.Scalar.Field
import ObstacleTracking.Proofs.Detection.Turned
import ObstacleTracking.Proofs.Filter.Turned
import ObstacleTracking.Proofs.Track.Run
import ObstacleTracking.Track.Set

/-!
# Turned tracks

A turned track is predicted, hit and missed as the track itself, apart from the turn. Speeds and
accelerations decide what is noise and which direction an obstacle takes, and turns keep them.
-/

namespace ObstacleTracking

variable {K : Type} [Field K] [LinearOrder K] [ExactRoots K]

def Track.turned (r : Yaw K) (t : Track K) : Track K :=
  { t with
    estimate := t.estimate.turned r
    predicted := t.predicted.map (Estimate.turned r)
    current := t.current.turned r
    history := t.history.map (Observation.turned r) }

namespace Track

variable (r : Yaw K)

theorem start_turned (c : FilterConfig K) (capacity id : ℕ) (o : Observation K) :
    start c capacity id (o.turned r) = (start c capacity id o).turned r := by
  have hinitiate : Filter.initiate c (o.turned r).anchor = (Filter.initiate c o.anchor).turned r :=
    Filter.initiate_turned r c o.anchor
  have hcurrent : ∀ u : Mat 3 3 K, { o.turned r with velocity := 0, velocityUncertainty := u } =
      ({ o with velocity := 0, velocityUncertainty := u } : Observation K).turned r := by
    intro u
    unfold Observation.turned
    dsimp only
    rw [r.turn_zero]
  unfold start
  rw [hinitiate]
  dsimp only
  rw [hcurrent]
  rfl

theorem predict_turned (c : FilterConfig K) (t : Track K) (dt : K) :
    (t.turned r).predict c dt = (t.predict c dt).turned r := by
  unfold predict turned
  dsimp only
  rw [Filter.predict_turned]
  rfl

theorem expected_turned (t : Track K) : (t.turned r).expected = t.expected.turned r := by
  unfold expected turned
  dsimp only
  rw [Option.getD_map]
  rfl

/-! ### A matched detection -/

theorem settleVelocity_turned (c : LifecycleConfig K) (previous : Vec3 K) (dt : K)
    (e : Estimate K) :
    settleVelocity c (r.turn previous) dt (e.turned r) =
      (settleVelocity c previous dt e).turned r := by
  unfold settleVelocity
  dsimp only
  rw [Estimate.velocity_turned, Estimate.position_turned, ← r.turn_sub, ← r.turn_div, r.norm_turn,
    r.norm_turn]
  split
  · unfold Estimate.turned
    dsimp only
    rw [MotionState.turned_ofParts, r.turn_zero]
  · rfl

theorem remember_turned (capacity : ℕ) (history : List (Observation K)) (o : Observation K) :
    remember capacity (history.map (Observation.turned r)) (o.turned r) =
      (remember capacity history o).map (Observation.turned r) := by
  unfold remember
  rw [List.length_map, List.map_append]
  split
  · rw [List.map_drop]
    rfl
  · rfl

variable [IsStrictOrderedRing K]

theorem orient_turned (c : LifecycleConfig K) (velocity lane : Vec3 K) (d : Detection K) :
    orient c (r.turn velocity) (r.turn lane) (d.turned r) =
      (orient c velocity lane d).turned r := by
  unfold orient
  rw [r.norm_turn]
  split
  · rw [r.unitHorizontal?_turn]
    cases hheading : velocity.unitHorizontal? with
    | none => rfl
    | some heading =>
      have hbox := r.around?_turn d.cloud (Vec3.isDirected_unitHorizontal? hheading)
      have hcloud : (d.turned r).cloud = d.cloud.map r.turn := rfl
      dsimp only [Option.map_some]
      rw [hcloud, hbox]
      cases OrientedBox.around? d.cloud heading with
      | none => rfl
      | some box => rfl
  · have hdirection : (d.turned r).direction = r.turn d.direction := rfl
    rw [hdirection, r.unitHorizontal?_turn, r.unitHorizontal?_turn]
    cases d.direction.unitHorizontal? with
    | some u => rfl
    | none =>
      cases lane.unitHorizontal? with
      | none => rfl
      | some u => rfl

theorem adopt_turned (c : LifecycleConfig K) (e : Estimate K) (o : Observation K) :
    adopt c (e.turned r) (o.turned r) = (adopt c e o).turned r := by
  have horient := orient_turned r c e.velocity o.lane o.detection
  unfold adopt
  rw [Estimate.velocity_turned, Estimate.position_turned]
  unfold Observation.turned
  dsimp only
  rw [horient]
  rfl

theorem hit_turned {f : FilterConfig K} (hf : f.error? = none) (c : LifecycleConfig K) {t : Track K}
    (ht : IsSound t.estimate.covariance) (o : Observation K) (score dt : K) :
    ((t.turned r).hit f c (o.turned r) score dt).1 = (t.hit f c o score dt).1.turned r := by
  have hupdate := Filter.update_turned r hf ht o.anchor score dt
  have hestimate : (t.turned r).estimate = t.estimate.turned r := rfl
  have hanchor : (o.turned r).anchor = r.turn o.anchor := rfl
  have hhistory : (t.turned r).history = t.history.map (Observation.turned r) := rfl
  unfold hit
  rw [hestimate, hanchor, hupdate, hhistory]
  dsimp only
  rw [Estimate.velocity_turned, settleVelocity_turned, adopt_turned, remember_turned]
  rfl

/-! ### A missed frame -/

omit [IsStrictOrderedRing K] in
theorem miss_turned (f : FilterConfig K) (t : Track K) (dt : K) :
    (t.turned r).miss f dt = (t.miss f dt).turned r := by
  have hestimate : (t.turned r).predicted.getD (Filter.predict f (t.turned r).estimate dt) =
      (t.predicted.getD (Filter.predict f t.estimate dt)).turned r := by
    show (t.predicted.map (Estimate.turned r)).getD (Filter.predict f (t.estimate.turned r) dt) = _
    rw [Filter.predict_turned, Option.getD_map]
  have hposition : (t.turned r).estimate.position = r.turn t.estimate.position :=
    Estimate.position_turned r t.estimate
  have hcurrent : (t.turned r).current = t.current.turned r := rfl
  unfold miss
  rw [hestimate, hposition, hcurrent]
  dsimp only
  rw [Estimate.position_turned, Estimate.velocity_turned, ← r.turn_sub, Observation.shift_turned]
  rfl

end Track

end ObstacleTracking
