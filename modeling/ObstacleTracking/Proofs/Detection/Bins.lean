import ObstacleTracking.Proofs.Geometry.Bounds
import ObstacleTracking.Proofs.Association.Bounds
import ObstacleTracking.Proofs.Association.Signs

/-!
# Bins of histograms

The bins of an axis are intervals of one length side by side. They start at the least coordinate,
and what is added to their length makes them end beyond the greatest one, so every point lies in
one of them. A histogram holds the fraction of the points in each bin, and only depends on where
the points lie relative to their least coordinates.
-/

namespace ObstacleTracking

variable {K : Type} [Field K] [LinearOrder K] [ExactRoots K]

/-! ### Indices -/

/-- Scalars are rounded down to the indices of a machine, as far as these go. -/
class ExactIndices (K : Type) [Field K] [LinearOrder K] [ExactRoots K] : Prop where
  floorIndex_eq {x : K} {n : ℕ} : n < 2 ^ 64 → (n : K) ≤ x → x < n + 1 → Scalar.floorIndex x = n

theorem exactIndices_real : @ExactIndices ℝ _ _ ExactRoots.real := by
  refine @ExactIndices.mk ℝ _ _ ExactRoots.real ?_
  intro x n hn hle hlt
  have hfloor : ⌊x⌋₊ = n := (Nat.floor_eq_iff ((Nat.cast_nonneg n).trans hle)).mpr ⟨hle, hlt⟩
  show min ⌊x⌋₊ (2 ^ 64 - 1) = n
  omega

namespace Histogram

section Floor

variable {x : K} {n k : ℕ}

theorem exists_floor (hx : 0 ≤ x) (hn : x < n) : ∃ i < n, (i : K) ≤ x ∧ x < i + 1 := by
  induction n with
  | zero =>
    rw [Nat.cast_zero] at hn
    exact absurd hn (not_lt.mpr hx)
  | succ n ih =>
    rcases lt_or_ge x n with hlt | hge
    · obtain ⟨i, hi, hfloor⟩ := ih hlt
      exact ⟨i, Nat.lt_succ_of_lt hi, hfloor⟩
    · rw [Nat.cast_succ] at hn
      exact ⟨n, Nat.lt_succ_self n, hge, hn⟩

theorem eq_of_floor [IsStrictOrderedRing K] (hn : (n : K) ≤ x ∧ x < n + 1)
    (hk : (k : K) ≤ x ∧ x < k + 1) : n = k := by
  have hle : ∀ i j : ℕ, (i : K) ≤ x → x < j + 1 → i ≤ j := by
    intro i j hi hj
    have hlt : (i : K) < (j + 1 : ℕ) := by
      rw [Nat.cast_succ]
      exact hi.trans_lt hj
    exact Nat.lt_succ_iff.mp (Nat.cast_lt.mp hlt)
  exact le_antisymm (hle n k hn.1 hk.2) (hle k n hk.1 hn.2)

end Floor

/-! ### One axis -/

section Axis

variable {bins : ℕ} {low high x a : K} {coordinates coordinates' : List K}

theorem ofCoordinates_perm (h : coordinates.Perm coordinates') :
    ofCoordinates bins low high coordinates = ofCoordinates bins low high coordinates' := by
  unfold ofCoordinates
  dsimp only
  refine List.map_congr_left ?_
  intro k _
  rw [(h.map _).count_eq, h.length_eq]

/-- Coordinates that are displaced with their bounds fall into the same bins. -/
theorem ofCoordinates_shift :
    ofCoordinates bins (low + a) (high + a) (coordinates.map (· + a)) =
      ofCoordinates bins low high coordinates := by
  have hwidth : high + a - (low + a) = high - low := add_sub_add_right_eq_sub high low a
  have hindex : ∀ width, binIndex bins (low + a) width ∘ (· + a) = binIndex bins low width := by
    intro width
    funext x
    unfold Function.comp binIndex
    rw [add_sub_add_right_eq_sub]
  unfold ofCoordinates
  dsimp only
  rw [hwidth, List.map_map, hindex, List.length_map]

variable [IsStrictOrderedRing K]

theorem slack_eq : (slack : K) = 1 / ((10 ^ 6 : ℕ) : K) := by
  unfold slack Scalar.ratio
  norm_num

/-- The length of a bin. -/
def binLength (bins : ℕ) (low high : K) : K :=
  (high - low) / (bins : K) + 1 / ((10 ^ 6 : ℕ) : K)

theorem binLength_pos (bins : ℕ) (h : low ≤ high) : 0 < binLength bins low high := by
  have hquotient : 0 ≤ (high - low) / (bins : K) :=
    div_nonneg (sub_nonneg.mpr h) (Nat.cast_nonneg bins)
  unfold binLength
  positivity

/-- The last bin ends beyond the greatest coordinate. -/
theorem lt_bins (hbins : 0 < bins) (hlow : low ≤ x) (hhigh : x ≤ high) :
    0 ≤ (x - low) / binLength bins low high ∧ (x - low) / binLength bins low high < bins := by
  have hlength := binLength_pos bins (hlow.trans hhigh)
  have hcast : (0 : K) < bins := Nat.cast_pos.mpr hbins
  refine ⟨div_nonneg (sub_nonneg.mpr hlow) hlength.le, ?_⟩
  rw [div_lt_iff₀ hlength]
  calc x - low ≤ high - low := sub_le_sub_right hhigh low
    _ < high - low + bins * (1 / ((10 ^ 6 : ℕ) : K)) := lt_add_of_pos_right _ (by positivity)
    _ = bins * binLength bins low high := by
      unfold binLength
      rw [mul_add, mul_div_cancel₀ _ hcast.ne']

theorem mem_bin_iff (h : low ≤ high) (k : ℕ) :
    ((k : K) ≤ (x - low) / binLength bins low high ∧
        (x - low) / binLength bins low high < k + 1) ↔
      low + k * binLength bins low high ≤ x ∧ x < low + (k + 1) * binLength bins low high := by
  have hlength := binLength_pos bins h
  rw [le_div_iff₀ hlength, div_lt_iff₀ hlength, le_sub_iff_add_le', sub_lt_iff_lt_add']

variable [ExactIndices K]

theorem floorIndex_lt (hbins : 0 < bins) (hsize : bins < 2 ^ 64) (hlow : low ≤ x)
    (hhigh : x ≤ high) : Scalar.floorIndex ((x - low) / binLength bins low high) < bins := by
  obtain ⟨hnonneg, hlt⟩ := lt_bins hbins hlow hhigh
  obtain ⟨n, hn, hle, hnext⟩ := exists_floor hnonneg hlt
  rw [ExactIndices.floorIndex_eq (hn.trans hsize) hle hnext]
  exact hn

/-- A coordinate falls into the bin that it lies in. -/
theorem binIndex_eq_iff (hbins : 0 < bins) (hsize : bins < 2 ^ 64) (hlow : low ≤ x)
    (hhigh : x ≤ high) (k : ℕ) :
    binIndex bins low (binLength bins low high) x = k ↔
      low + k * binLength bins low high ≤ x ∧ x < low + (k + 1) * binLength bins low high := by
  obtain ⟨hnonneg, hlt⟩ := lt_bins hbins hlow hhigh
  obtain ⟨n, hn, hfloor⟩ := exists_floor hnonneg hlt
  have hindex : binIndex bins low (binLength bins low high) x = n := by
    unfold binIndex
    rw [ExactIndices.floorIndex_eq (hn.trans hsize) hfloor.1 hfloor.2]
    omega
  rw [hindex, ← mem_bin_iff (hlow.trans hhigh)]
  constructor
  · rintro rfl
    exact hfloor
  · exact eq_of_floor hfloor

theorem getElem?_ofCoordinates (hbins : 0 < bins) (hsize : bins < 2 ^ 64)
    (hbounds : ∀ x ∈ coordinates, low ≤ x ∧ x ≤ high) {k : ℕ} (hk : k < bins) :
    (ofCoordinates bins low high coordinates)[k]? =
      some (((coordinates.countP fun x =>
        decide (low + k * binLength bins low high ≤ x) &&
          decide (x < low + (k + 1) * binLength bins low high) : ℕ) : K) / coordinates.length) := by
  have hcount : (coordinates.map (binIndex bins low (binLength bins low high))).count k =
      coordinates.countP fun x => decide (low + k * binLength bins low high ≤ x) &&
        decide (x < low + (k + 1) * binLength bins low high) := by
    rw [List.count_eq_countP, List.countP_map]
    refine List.countP_congr ?_
    intro x hx
    obtain ⟨hlow, hhigh⟩ := hbounds x hx
    rw [Function.comp_apply, beq_iff_eq, binIndex_eq_iff hbins hsize hlow hhigh, Bool.and_eq_true,
      decide_eq_true_eq, decide_eq_true_eq]
  unfold ofCoordinates
  rw [slack_eq]
  dsimp only
  rw [List.getElem?_map, List.getElem?_range hk, Option.map_some]
  unfold binLength at hcount ⊢
  rw [hcount]

end Axis

/-! ### All axes -/

section Axes

variable {bins : ℕ} {cloud cloud' : Cloud K}

/-- The bins of one axis. -/
def ofAxis (bins : ℕ) (cloud : Cloud K) (i : Fin 3) : List K :=
  ofCoordinates bins ((Cloud.bounds cloud).1.onAxis i) ((Cloud.bounds cloud).2.onAxis i)
    (cloud.map fun p => p.onAxis i)

theorem length_ofAxis (bins : ℕ) (cloud : Cloud K) (i : Fin 3) :
    (ofAxis bins cloud i).length = bins :=
  length_ofCoordinates _ _ _ _

theorem ofCloud_eq (bins : ℕ) (hne : cloud ≠ []) :
    ofCloud bins cloud = ofAxis bins cloud 0 ++ ofAxis bins cloud 1 ++ ofAxis bins cloud 2 := by
  cases cloud with
  | nil => exact absurd rfl hne
  | cons p cloud => rfl

theorem ofCloud_congr (hne : cloud ≠ []) (hne' : cloud' ≠ [])
    (h : ∀ i, ofAxis bins cloud i = ofAxis bins cloud' i) :
    ofCloud bins cloud = ofCloud bins cloud' := by
  rw [ofCloud_eq bins hne, ofCloud_eq bins hne', h, h, h]

/-- The bins of an axis lie together. -/
theorem take_drop_ofCloud (hne : cloud ≠ []) (i : Fin 3) :
    ((ofCloud bins cloud).drop (i * bins)).take bins = ofAxis bins cloud i := by
  have hlength := length_ofAxis bins cloud
  rw [ofCloud_eq bins hne]
  fin_cases i
  · simp [hlength]
  · simp [hlength]
  · simp [hlength, two_mul, ← List.drop_drop]

theorem getElem?_ofCloud (hne : cloud ≠ []) (i : Fin 3) {k : ℕ} (hk : k < bins) :
    (ofCloud bins cloud)[i * bins + k]? = (ofAxis bins cloud i)[k]? := by
  rw [← take_drop_ofCloud hne i, List.getElem?_take_of_lt hk, List.getElem?_drop]

variable [IsStrictOrderedRing K]

theorem ofCloud_perm (hne : cloud ≠ []) (h : cloud.InReach) (hperm : cloud.Perm cloud') :
    ofCloud bins cloud = ofCloud bins cloud' := by
  have hne' : cloud' ≠ [] := fun hnil => hne (List.perm_nil.mp (hnil ▸ hperm))
  have h' : cloud'.InReach := fun p hp => h p (hperm.mem_iff.mpr hp)
  refine ofCloud_congr hne hne' ?_
  intro i
  obtain ⟨hlow, hhigh⟩ := Cloud.isLeast_isGreatest_bounds hne h i
  obtain ⟨hlow', hhigh'⟩ := Cloud.isLeast_isGreatest_bounds hne' h' i
  rw [Cloud.values_perm _ hperm] at hlow hhigh
  unfold ofAxis
  rw [hlow.unique hlow', hhigh.unique hhigh']
  exact ofCoordinates_perm (hperm.map _)

theorem ofCloud_shift (hne : cloud ≠ []) (h : cloud.InReach) {v : Vec3 K}
    (hv : (Cloud.shift v cloud).InReach) :
    ofCloud bins (Cloud.shift v cloud) = ofCloud bins cloud := by
  have hne' := Cloud.shift_ne_nil v hne
  refine ofCloud_congr hne' hne ?_
  intro i
  have hmono : Monotone (· + v.onAxis i) := fun x y hxy => add_le_add_left hxy _
  obtain ⟨hlow, hhigh⟩ := Cloud.isLeast_isGreatest_bounds hne h i
  obtain ⟨hlow', hhigh'⟩ := Cloud.isLeast_isGreatest_bounds hne' hv i
  rw [Cloud.values_shift] at hlow' hhigh'
  have hcoordinates : (Cloud.shift v cloud).map (fun p => p.onAxis i) =
      (cloud.map fun p => p.onAxis i).map (· + v.onAxis i) := by
    unfold Cloud.shift
    rw [List.map_map, List.map_map]
    exact List.map_congr_left fun p _ => Vec3.onAxis_add p v i
  unfold ofAxis
  rw [hlow'.unique (hmono.map_isLeast hlow), hhigh'.unique (hmono.map_isGreatest hhigh),
    hcoordinates]
  exact ofCoordinates_shift

/-! ### Points in bins -/

variable [ExactIndices K]

/-- The bins of an axis start at the least coordinate and end beyond the greatest one. They hold the
fractions of the points that lie in them, and no index has to be brought back to the last bin. -/
structure HasBins (bins : ℕ) (cloud : Cloud K) (i : Fin 3) (low high : K) : Prop where
  least : IsLeast (Cloud.values (·.onAxis i) cloud) low
  greatest : IsGreatest (Cloud.values (·.onAxis i) cloud) high
  entry : ∀ k < bins, (ofCloud bins cloud)[i * bins + k]? =
    some (((cloud.countP fun p => decide (low + k * binLength bins low high ≤ p.onAxis i) &&
      decide (p.onAxis i < low + (k + 1) * binLength bins low high) : ℕ) : K) / cloud.length)
  floorIndex_lt : ∀ p ∈ cloud,
    Scalar.floorIndex ((p.onAxis i - low) / binLength bins low high) < bins
  sum_eq_one : (((ofCloud bins cloud).drop (i * bins)).take bins).sum = 1

theorem exists_hasBins (hbins : 0 < bins) (hsize : bins < 2 ^ 64) (hne : cloud ≠ [])
    (h : cloud.InReach) (i : Fin 3) : ∃ low high, HasBins bins cloud i low high := by
  obtain ⟨hlow, hhigh⟩ := Cloud.isLeast_isGreatest_bounds hne h i
  have hbounds : ∀ p ∈ cloud, (Cloud.bounds cloud).1.onAxis i ≤ p.onAxis i ∧
      p.onAxis i ≤ (Cloud.bounds cloud).2.onAxis i :=
    fun p hp => ⟨hlow.2 ⟨p, hp, rfl⟩, hhigh.2 ⟨p, hp, rfl⟩⟩
  have hlength : ((cloud.map fun p => p.onAxis i).length : K) ≠ 0 := by
    rw [List.length_map, Nat.cast_ne_zero]
    exact fun hzero => hne (List.length_eq_zero_iff.mp hzero)
  refine ⟨_, _, hlow, hhigh, ?_, ?_, ?_⟩
  · intro k hk
    have hentry := getElem?_ofCoordinates hbins hsize
      (List.forall_mem_map.mpr hbounds) hk
    rw [List.countP_map, List.length_map] at hentry
    rw [getElem?_ofCloud hne i hk]
    exact hentry
  · intro p hp
    exact floorIndex_lt hbins hsize (hbounds p hp).1 (hbounds p hp).2
  · rw [take_drop_ofCloud hne i]
    unfold ofAxis
    rw [sum_ofCoordinates hbins, div_self hlength]

/-- A histogram of a cloud holds, for each axis, the fraction of the points in each of its bins,
which add up to one. It is that of the cloud in any order and displaced anywhere. So two histograms
differ by at most two, and not at all if one cloud is the other in another order and displaced. -/
theorem ofCloud_bins (hbins : 0 < bins) (hsize : bins < 2 ^ 64) (hne : cloud ≠ [])
    (h : cloud.InReach) :
    (ofCloud bins cloud).length = 3 * bins ∧
      (∀ i, ∃ low high, HasBins bins cloud i low high) ∧
      (∀ cloud', cloud.Perm cloud' → ofCloud bins cloud' = ofCloud bins cloud) ∧
      (∀ v, (Cloud.shift v cloud).InReach →
        ofCloud bins (Cloud.shift v cloud) = ofCloud bins cloud) ∧
      ∀ (last o : Observation K) (cloud' : Cloud K), last.shape = some (ofCloud bins cloud) →
        o.shape = some (ofCloud bins cloud') →
        0 ≤ Dissimilarity.shape last o ∧ Dissimilarity.shape last o ≤ 2 ∧
          ∀ v, (Cloud.shift v cloud).InReach → (Cloud.shift v cloud).Perm cloud' →
            Dissimilarity.shape last o = 0 := by
  refine ⟨length_ofCloud bins cloud, exists_hasBins hbins hsize hne h,
    fun cloud' hperm => (ofCloud_perm hne h hperm).symm, fun v hv => ofCloud_shift hne h hv, ?_⟩
  intro last o cloud' hlast ho
  refine ⟨not_lt.mp (Dissimilarity.not_shape_lt K last o), ?_, ?_⟩
  · refine Dissimilarity.shape_le_two ?_ ?_
    · intro old hold
      exact ⟨bins, cloud, Option.some_inj.mp (hold.symm.trans hlast)⟩
    · intro new hnew
      exact ⟨bins, cloud', Option.some_inj.mp (hnew.symm.trans ho)⟩
  · intro v hv hperm
    have hne' := Cloud.shift_ne_nil v hne
    refine Dissimilarity.shape_self ?_
    rw [hlast, ho, ← ofCloud_perm hne' hv hperm, ofCloud_shift hne h hv]

end Axes

section Example

attribute [local instance] ExactRoots.real exactIndices_real

/-- Three points that differ in two coordinates: the axis on which they are flat has them all in its
first bin. -/
theorem ofCloud_bins_flat :
    let cloud : Cloud ℝ := [⟨0, 7, 0⟩, ⟨1, 7, 2⟩, ⟨4, 7, 2⟩]
    (ofCloud 2 cloud)[2]? = some 1 ∧ ofCloud 2 cloud.reverse = ofCloud 2 cloud := by
  intro cloud
  have hreach : cloud.InReach := by
    have hseven : (7 : ℝ) ≤ Scalar.farthest := by
      have hle : 7 ≤ Nat.pow 2 1024 - Nat.pow 2 971 := by decide +kernel
      unfold Scalar.farthest
      exact_mod_cast hle
    intro p hp i
    refine le_trans ?_ hseven
    simp only [cloud, List.mem_cons, List.not_mem_nil, or_false] at hp
    rcases hp with rfl | rfl | rfl
    · fin_cases i <;> norm_num [Vec3.onAxis]
    · fin_cases i <;> norm_num [Vec3.onAxis]
    · fin_cases i <;> norm_num [Vec3.onAxis]
  obtain ⟨-, haxes, hperm, -, -⟩ :=
    ofCloud_bins Nat.two_pos (by norm_num) (List.cons_ne_nil _ _) hreach
  have hflat : ∀ p ∈ cloud, p.onAxis 1 = 7 := by
    intro p hp
    simp only [cloud, List.mem_cons, List.not_mem_nil, or_false] at hp
    rcases hp with rfl | rfl | rfl <;> rfl
  obtain ⟨low, high, h⟩ := haxes 1
  obtain ⟨p, hp, hlow⟩ := h.least.1
  obtain ⟨q, hq, hhigh⟩ := h.greatest.1
  obtain rfl : 7 = low := (hflat p hp).symm.trans hlow
  obtain rfl : 7 = high := (hflat q hq).symm.trans hhigh
  refine ⟨?_, hperm _ (List.reverse_perm _).symm⟩
  have hentry := h.entry 0 Nat.two_pos
  rw [List.countP_eq_length.mpr] at hentry
  · rw [div_self (by norm_num)] at hentry
    exact hentry
  · intro p hp
    rw [hflat p hp]
    norm_num [binLength]

end Example

end Histogram

end ObstacleTracking
