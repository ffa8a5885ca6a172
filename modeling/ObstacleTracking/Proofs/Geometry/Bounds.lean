import Mathlib.Order.Bounds.Basic
import ObstacleTracking.Proofs.Linear.Length
import ObstacleTracking.Geometry.Cloud

/-!
# Bounds that are attained

The bounds of a cloud are looked for from beyond every coordinate in use. So once there is a point
they are coordinates of points, the least and the greatest along each axis, and neither the order of
the points nor the start of the search matters to them.
-/

namespace ObstacleTracking

/-! ### Lists -/

section Lists

variable {K : Type} [LinearOrder K] {values : List K} {start : K}

theorem isLeast_foldl_min (hne : values ≠ []) (h : ∀ x ∈ values, x ≤ start) :
    IsLeast {x | x ∈ values} (values.foldl min start) := by
  have hmin : (start :: values).min? = some (values.foldl min start) := List.min?_cons'
  obtain ⟨hmem, hle⟩ := List.min?_eq_some_iff.mp hmin
  have hlower : ∀ x ∈ values, values.foldl min start ≤ x :=
    fun x hx => hle x (List.mem_cons_of_mem start hx)
  refine ⟨?_, fun x hx => hlower x hx⟩
  rcases List.mem_cons.mp hmem with hstart | hmem
  · -- the start is the least only if it is one of the values itself
    obtain ⟨x, hx⟩ := List.exists_mem_of_ne_nil values hne
    have heq : values.foldl min start = x :=
      le_antisymm (hlower x hx) ((h x hx).trans hstart.ge)
    exact heq ▸ hx
  · exact hmem

theorem isGreatest_foldl_max (hne : values ≠ []) (h : ∀ x ∈ values, start ≤ x) :
    IsGreatest {x | x ∈ values} (values.foldl max start) :=
  isLeast_foldl_min (K := Kᵒᵈ) hne h

end Lists

/-! ### Clouds -/

variable {K : Type}

namespace Cloud

/-- The values that a measure takes on the points of a cloud. -/
def values (measure : Vec3 K → K) (cloud : Cloud K) : Set K := {x | ∃ p ∈ cloud, measure p = x}

theorem values_perm (measure : Vec3 K → K) {cloud cloud' : Cloud K} (h : cloud.Perm cloud') :
    values measure cloud = values measure cloud' := by
  unfold values
  simp only [h.mem_iff]

variable [Field K] [LinearOrder K] [ExactRoots K]

theorem shift_ne_nil (v : Vec3 K) {cloud : Cloud K} (hne : cloud ≠ []) : shift v cloud ≠ [] := by
  unfold shift
  rw [Ne, List.map_eq_nil_iff]
  exact hne

theorem values_shift (v : Vec3 K) (cloud : Cloud K) (i : Fin 3) :
    values (·.onAxis i) (shift v cloud) =
      (· + v.onAxis i) '' values (·.onAxis i) cloud := by
  ext x
  constructor
  · rintro ⟨q, hq, rfl⟩
    obtain ⟨p, hp, rfl⟩ := List.mem_map.mp hq
    exact ⟨p.onAxis i, ⟨p, hp, rfl⟩, (Vec3.onAxis_add p v i).symm⟩
  · rintro ⟨_, ⟨p, hp, rfl⟩, rfl⟩
    exact ⟨p + v, List.mem_map_of_mem hp, Vec3.onAxis_add p v i⟩

/-- No coordinate of a point is beyond the largest number. -/
def InReach (cloud : Cloud K) : Prop :=
  ∀ p ∈ cloud, ∀ i, |p.onAxis i| ≤ Scalar.farthest

theorem onAxis_bounds (cloud : Cloud K) (i : Fin 3) :
    (bounds cloud).1.onAxis i =
        (cloud.map fun p => p.onAxis i).foldl min Scalar.farthest ∧
      (bounds cloud).2.onAxis i =
        (cloud.map fun p => p.onAxis i).foldl max (-Scalar.farthest) := by
  have hfold : ∀ b : Vec3 K × Vec3 K,
      (cloud.foldl (fun b p => (b.1.lower p, b.2.upper p)) b).1.onAxis i =
          (cloud.map fun p => p.onAxis i).foldl min (b.1.onAxis i) ∧
        (cloud.foldl (fun b p => (b.1.lower p, b.2.upper p)) b).2.onAxis i =
          (cloud.map fun p => p.onAxis i).foldl max (b.2.onAxis i) := by
    induction cloud with
    | nil => exact fun b => ⟨rfl, rfl⟩
    | cons p cloud ih =>
      intro b
      have hlower : (b.1.lower p).onAxis i = min (b.1.onAxis i) (p.onAxis i) := by
        fin_cases i <;> exact ExactRoots.lower_eq _ _
      have hupper : (b.2.upper p).onAxis i = max (b.2.onAxis i) (p.onAxis i) := by
        fin_cases i <;> exact ExactRoots.upper_eq _ _
      obtain ⟨hlow, hhigh⟩ := ih (b.1.lower p, b.2.upper p)
      rw [hlower] at hlow
      rw [hupper] at hhigh
      exact ⟨hlow, hhigh⟩
  obtain ⟨hlow, hhigh⟩ := hfold (Vec3.fill Scalar.farthest, Vec3.fill (-Scalar.farthest))
  have hstart : ∀ a : K, (Vec3.fill a).onAxis i = a := by
    intro a
    fin_cases i <;> rfl
  rw [hstart] at hlow hhigh
  exact ⟨hlow, hhigh⟩

variable [IsStrictOrderedRing K] {cloud : Cloud K}

/-- The bounds of a cloud with a point are its least and its greatest coordinates. -/
theorem isLeast_isGreatest_bounds (hne : cloud ≠ []) (h : InReach cloud) (i : Fin 3) :
    IsLeast (values (·.onAxis i) cloud) ((bounds cloud).1.onAxis i) ∧
      IsGreatest (values (·.onAxis i) cloud) ((bounds cloud).2.onAxis i) := by
  have hvalues : values (·.onAxis i) cloud =
      {x | x ∈ cloud.map fun p => p.onAxis i} := by
    ext x
    exact List.mem_map.symm
  have hne' : (cloud.map fun p => p.onAxis i) ≠ [] := by
    rw [Ne, List.map_eq_nil_iff]
    exact hne
  obtain ⟨hlow, hhigh⟩ := onAxis_bounds cloud i
  rw [hvalues, hlow, hhigh]
  constructor
  · refine isLeast_foldl_min hne' ?_
    intro x hx
    obtain ⟨p, hp, rfl⟩ := List.mem_map.mp hx
    exact (abs_le.mp (h p hp i)).2
  · refine isGreatest_foldl_max hne' ?_
    intro x hx
    obtain ⟨p, hp, rfl⟩ := List.mem_map.mp hx
    exact (abs_le.mp (h p hp i)).1

end Cloud

end ObstacleTracking
