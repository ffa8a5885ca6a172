import ObstacleTracking.Proofs.Config.Standard
import ObstacleTracking.Proofs.Filter.Steps
import ObstacleTracking.Proofs.Geometry.Cloud
import ObstacleTracking.Track.Basic

/-!
# Coasting

A track that is missed in some frames in a row goes where it would have gone in one frame of the
whole time: the predictions compose, and the displacements of what it carries along add up. Only
the counters tell how many frames it were.
-/

namespace ObstacleTracking

theorem Observation.shift_shift {K : Type} [Field K] [LinearOrder K] [ExactRoots K] (u v : Vec3 K)
    (o : Observation K) : (o.shift u).shift v = o.shift (u + v) := by
  have hadd : ∀ p : Vec3 K, p + u + v = p + (u + v) := by
    intro p
    apply Vec3.ext <;> simp [add_assoc]
  unfold shift Detection.shift
  dsimp only
  rw [Cloud.shift_shift, Cloud.shift_shift, hadd, hadd, hadd]

namespace Track

/-! ### Missed frames -/

section Coast

variable {α : Type} [Scalar α]

/-- A frame in which the track is predicted and then missed. -/
def coast (c : FilterConfig α) (t : Track α) (dt : α) : Track α := (t.predict c dt).miss c dt

def coastAll (c : FilterConfig α) (t : Track α) (dts : List α) : Track α := dts.foldl (coast c) t

/-- The track with some more missed frames on its counters. -/
def countMissed (t : Track α) (n : ℕ) : Track α :=
  { t with age := t.age + UInt32.ofNat n, invisible := t.invisible + UInt32.ofNat n }

omit [Scalar α] in
theorem countMissed_zero (t : Track α) : t.countMissed 0 = t := by
  unfold countMissed
  simp

omit [Scalar α] in
theorem countMissed_succ (t : Track α) (n : ℕ) :
    (t.countMissed 1).countMissed n = t.countMissed (n + 1) := by
  have hadd : ∀ a : UInt32, a + UInt32.ofNat 1 + UInt32.ofNat n = a + UInt32.ofNat (n + 1) := by
    intro a
    rw [UInt32.add_assoc, ← UInt32.ofNat_add, Nat.add_comm 1 n]
  unfold countMissed
  dsimp only
  rw [hadd, hadd]

end Coast

variable {K : Type} [Field K] [LinearOrder K] [IsStrictOrderedRing K] [ExactRoots K]
  {c : FilterConfig K}

theorem period_add (p : K) {d₁ d₂ : K} (h₁ : Scalar.doubleSpacing < d₁)
    (h₂ : Scalar.doubleSpacing < d₂) :
    p + Scalar.maxNum d₁ 0 + Scalar.maxNum d₂ 0 = p + Scalar.maxNum (d₁ + d₂) 0 := by
  have hmax : ∀ d : K, 0 < d → Scalar.maxNum d 0 = d := by
    intro d hd
    have heq := ExactScalar.maxNum_ofField (α := K) d 0
    rw [max_eq_left hd.le] at heq
    exact heq
  have hpos₁ := Filter.doubleSpacing_pos.trans h₁
  have hpos₂ := Filter.doubleSpacing_pos.trans h₂
  rw [hmax d₁ hpos₁, hmax d₂ hpos₂, hmax _ (add_pos hpos₁ hpos₂), add_assoc]

/-- Two missed frames carry a track as far as one of their whole time. -/
theorem coast_coast (t : Track K) {d₁ d₂ : K} (h₁ : Scalar.doubleSpacing < d₁)
    (h₂ : Scalar.doubleSpacing < d₂) :
    (t.coast c d₁).coast c d₂ = (t.coast c (d₁ + d₂)).countMissed 1 := by
  have hestimate := Filter.predict_predict c t.estimate h₁ h₂
  have hdisplacement : ∀ a b e : Vec3 K, b - a + (e - b) = e - a := by
    intro a b e
    apply Vec3.ext <;> simp
  -- velocities are replaced after each displacement, so only the displacements add up
  have hcurrent : ∀ (o : Observation K) (u v w w' : Vec3 K) (m m' : Mat 3 3 K),
      { ({ o.shift u with velocity := w, velocityUncertainty := m } : Observation K).shift v with
        velocity := w', velocityUncertainty := m' } =
      { o.shift (u + v) with velocity := w', velocityUncertainty := m' } := by
    intro o u v w w' m m'
    rw [← Observation.shift_shift]
    rfl
  unfold coast miss predict countMissed
  dsimp only [Option.getD_some]
  rw [hestimate, hcurrent, hdisplacement, period_add _ h₁ h₂]
  rfl

/-! ### Runs of missed frames -/

theorem doubleSpacing_lt_sum {dts : List K} (hne : dts ≠ [])
    (h : ∀ dt ∈ dts, Scalar.doubleSpacing < dt) : Scalar.doubleSpacing < dts.sum := by
  induction dts with
  | nil => exact absurd rfl hne
  | cons d dts ih =>
    have hd := h d List.mem_cons_self
    rw [List.sum_cons]
    cases dts with
    | nil => rwa [List.sum_nil, add_zero]
    | cons e dts =>
      have hrest := ih (List.cons_ne_nil e dts) fun dt hdt => h dt (List.mem_cons_of_mem d hdt)
      exact hd.trans (lt_add_of_pos_right d (Filter.doubleSpacing_pos.trans hrest))

/-- Missed frames of any number carry a track as far as one missed frame of their whole time, and
two predictions in a row are one of the whole time. -/
theorem coastAll_eq_coast_sum (c : FilterConfig K) (t : Track K) {dts : List K} (hne : dts ≠ [])
    (hsteps : ∀ dt ∈ dts, Scalar.doubleSpacing < dt) :
    t.coastAll c dts = (t.coast c dts.sum).countMissed (dts.length - 1) ∧
      ∀ (e : Estimate K) (d₁ d₂ : K), Scalar.doubleSpacing < d₁ → Scalar.doubleSpacing < d₂ →
        Filter.predict c (Filter.predict c e d₁) d₂ = Filter.predict c e (d₁ + d₂) := by
  refine ⟨?_, fun e d₁ d₂ h₁ h₂ => Filter.predict_predict c e h₁ h₂⟩
  induction dts generalizing t with
  | nil => exact absurd rfl hne
  | cons d dts ih =>
    have hd := hsteps d List.mem_cons_self
    have hrest : ∀ dt ∈ dts, Scalar.doubleSpacing < dt :=
      fun dt hdt => hsteps dt (List.mem_cons_of_mem d hdt)
    cases dts with
    | nil =>
      rw [List.sum_singleton, List.length_singleton, Nat.sub_self, countMissed_zero]
      rfl
    | cons e dts =>
      have hne' := List.cons_ne_nil e dts
      calc t.coastAll c (d :: e :: dts)
          = (t.coast c d).coastAll c (e :: dts) := rfl
        _ = ((t.coast c d).coast c (e :: dts).sum).countMissed dts.length := ih _ hne' hrest
        _ = ((t.coast c (d + (e :: dts).sum)).countMissed 1).countMissed dts.length := by
          rw [coast_coast t hd (doubleSpacing_lt_sum hne' hrest)]
        _ = (t.coast c (d :: e :: dts).sum).countMissed (dts.length + 1) := by
          rw [countMissed_succ, List.sum_cons (a := d)]

section Example

attribute [local instance] ExactRoots.real

/-- A track that moves is missed for a tenth and then for a fifth of a second. -/
theorem coastAll_eq_coast_sum_two :
    let o := Observation.ofDetection Mat.identity none
      (⟨[⟨1, 2, 0⟩], [], 0, Vec3.forward, 0, .vehicle⟩ : Detection ℝ)
    let t : Track ℝ := { start .standard 5 1 o with
      estimate := ⟨MotionState.ofParts ⟨1, 2, 0⟩ ⟨5, 0, 0⟩, Mat.identity⟩ }
    t.coastAll .standard [1 / 10, 1 / 5] = (t.coast .standard (3 / 10)).countMissed 1 := by
  intro o t
  have hsteps : ∀ dt ∈ [(1 / 10 : ℝ), 1 / 5], Scalar.doubleSpacing < dt := by
    intro dt hdt
    simp only [List.mem_cons, List.not_mem_nil, or_false] at hdt
    unfold Scalar.doubleSpacing Scalar.ratio
    rcases hdt with rfl | rfl
    · norm_num
    · norm_num
  have hsum : [(1 / 10 : ℝ), 1 / 5].sum = 3 / 10 := by norm_num
  have hcoast := (coastAll_eq_coast_sum .standard t (List.cons_ne_nil _ _) hsteps).1
  rw [hsum] at hcoast
  exact hcoast

end Example

end Track

end ObstacleTracking
