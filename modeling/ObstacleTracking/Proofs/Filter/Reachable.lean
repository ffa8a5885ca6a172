import ObstacleTracking.Proofs.Filter.Covariance

/-!
# Reachable estimates

The estimates that a filter comes to when it starts from an observed point and then predicts and
corrects in any order, with any points, scores and time steps. Under a valid configuration all their
covariances are sound.
-/

namespace ObstacleTracking.Filter

/-- What is reached from the estimate of a first observation by predictions and corrections. -/
inductive Reachable {α : Type} [Scalar α] (c : FilterConfig α) : Estimate α → Prop where
  | initiate (anchor : Vec3 α) : Reachable c (initiate c anchor)
  | predict {e : Estimate α} (h : Reachable c e) (dt : α) : Reachable c (predict c e dt)
  | update {e : Estimate α} (h : Reachable c e) (anchor : Vec3 α) (score dt : α) :
    Reachable c (update c e anchor score dt).estimate

theorem Reachable.isSound {K α : Type} [Field K] [LinearOrder K] [IsStrictOrderedRing K] [Scalar α]
    [ExactScalar K α] {c : FilterConfig α} (hc : c.error? = none) {e : Estimate α}
    (h : Reachable c e) : IsSound e.covariance := by
  induction h with
  | initiate anchor => exact isSound_initiate hc anchor
  | predict _ dt ih => exact isSound_predict hc ih dt
  | update _ anchor score dt ih => exact (isSound_update hc ih anchor score dt).1

end ObstacleTracking.Filter
