import ObstacleTracking.Config.Bundle
import ObstacleTracking.Proofs.Config.Records
import ObstacleTracking.Proofs.Config.Standard
import ObstacleTracking.Proofs.Scalar.ExactNumber
import ObstacleTracking.Proofs.Scalar.Field

/-!
# Bundles are complete or refused

Every setting of a configuration that was read is found in its place in the bundle. A bundle of
objects that has lost a key is refused, and the message names it. A valid configuration is read
again as it was written.
-/

namespace ObstacleTracking

open Value (Field Entry ReadsBy Refuses Layout)

variable {α β : Type}

/-! ### Settings and their places -/

/-- A setting of any of the three kinds. -/
inductive Setting (α : Type) where
  | number (x : α)
  | count (n : Nat)
  | flag (b : Bool)

/-- A value that states a setting: a number with or without fraction, a count without, a flag. -/
def Setting.IsIn [Scalar α] (w : Value α) : Setting α → Prop
  | .number x => w = .real x ∨ (∃ n : ℕ, w = .integer n ∧ x = (n : α)) ∨
      ∃ n : ℕ, w = .integer (-n) ∧ x = -(n : α)
  | .count n => w = .integer n
  | .flag b => w = .bool b

/-- Settings with the ways that lead to them. -/
abbrev Placed (α : Type) := List (List Field × Setting α)

def Placed.inside (f : Field) (settings : Placed α) : Placed α :=
  settings.map fun p => (f :: p.1, p.2)

/-- Every setting is stated at the end of its way. -/
def Value.States [Scalar α] (v : Value α) (settings : Placed α) : Prop :=
  ∀ p ∈ settings, ∃ w, v.follow? p.1 = some w ∧ p.2.IsIn w

def Weights.settings (w : Weights α) : Placed α := [
  ([⟨0, "location"⟩], .number w.location),
  ([⟨1, "direction"⟩], .number w.direction),
  ([⟨2, "bbox_size"⟩], .number w.boxSize),
  ([⟨3, "point_num"⟩], .number w.pointCount),
  ([⟨4, "histogram"⟩], .number w.histogram)]

def MatchingConfig.settings (c : MatchingConfig α) : Placed α :=
  ([⟨0, "match_distance_maximum"⟩], .number c.gate) ::
    c.weights.settings.inside ⟨1, "weights"⟩ ++
    [([⟨2, "histogram_bin_size"⟩], .count c.histogramBins)]

def FilterConfig.settings (c : FilterConfig α) : Placed α := [
  ([⟨0, "measurement_noise"⟩], .number c.measurementNoise),
  ([⟨1, "initial_velocity_noise"⟩], .number c.initialVelocityNoise),
  ([⟨2, "xy_propagation_noise"⟩], .number c.horizontalNoise),
  ([⟨3, "z_propagation_noise"⟩], .number c.verticalNoise),
  ([⟨4, "association_score_maximum"⟩], .number c.scoreMaximum),
  ([⟨5, "breakdown_threshold_maximum"⟩], .number c.velocityCorrectionMaximum),
  ([⟨6, "use_adaptive"⟩], .flag c.adaptive)]

def LifecycleConfig.settings (c : LifecycleConfig α) : Placed α := [
  ([⟨0, "track_cached_history_size_maximum"⟩], .count c.historyCapacity),
  ([⟨1, "track_consecutive_invisible_maximum"⟩], .count c.invisibleMaximum.toNat),
  ([⟨2, "track_visible_ratio_minimum"⟩], .number c.visibleRatioMinimum),
  ([⟨3, "collect_age_minimum"⟩], .count c.reportAgeMinimum.toNat),
  ([⟨4, "collect_consecutive_invisible_maximum"⟩], .count c.reportInvisibleMaximum.toNat),
  ([⟨5, "acceleration_noise_maximum"⟩], .number c.accelerationNoiseMaximum),
  ([⟨6, "speed_noise_maximum"⟩], .number c.speedNoiseMaximum)]

/-- The settings of a configuration, each with its way into a bundle. -/
def Config.settings (c : Config α) : Placed α :=
  c.matching.settings.inside ⟨0, "matcher"⟩ ++ c.filter.settings.inside ⟨1, "filter"⟩ ++
    c.lifecycle.settings.inside ⟨2, "lifecycle"⟩

example (c : Config α) : c.settings.length = 21 := rfl

/-- The records of a bundle, each with the way to it and the keys of its fields. -/
def Config.records : List (List Field × List String) := [
  ([], ["matcher", "filter", "lifecycle"]),
  ([⟨0, "matcher"⟩], ["match_distance_maximum", "weights", "histogram_bin_size"]),
  ([⟨0, "matcher"⟩, ⟨1, "weights"⟩],
    ["location", "direction", "bbox_size", "point_num", "histogram"]),
  ([⟨1, "filter"⟩], ["measurement_noise", "initial_velocity_noise", "xy_propagation_noise",
    "z_propagation_noise", "association_score_maximum", "breakdown_threshold_maximum",
    "use_adaptive"]),
  ([⟨2, "lifecycle"⟩], ["track_cached_history_size_maximum",
    "track_consecutive_invisible_maximum", "track_visible_ratio_minimum", "collect_age_minimum",
    "collect_consecutive_invisible_maximum", "acceleration_noise_maximum",
    "speed_noise_maximum"])]

variable [Scalar α]

/-! ### What was read is there -/

section Read

variable {v u : Value α} {f : Field}

theorem Setting.isIn_of_number {x : α} (h : v.number = .ok x) : (number x).IsIn v := by
  unfold Value.number at h
  split at h
  · rename_i n
    cases h
    exact Or.inr (Or.inl ⟨n, rfl, rfl⟩)
  · rename_i n
    cases h
    exact Or.inr (Or.inr ⟨n + 1, rfl, rfl⟩)
  · cases h
    exact Or.inl rfl
  · cases h

omit [Scalar α] in
theorem Value.count_eq_ok {largest n : Nat} :
    v.count largest = .ok n ↔ n ≤ largest ∧ v = .integer n := by
  constructor
  · intro h
    unfold count at h
    split at h
    · split at h
      · rename_i hle
        cases h
        exact ⟨hle, rfl⟩
      · cases h
    · cases h
  · rintro ⟨hle, rfl⟩
    exact if_pos hle

theorem Setting.isIn_of_flag {b : Bool} (h : v.flag = .ok b) : (flag b : Setting α).IsIn v := by
  unfold Value.flag at h
  split at h
  · cases h
    rfl
  · cases h

theorem Setting.isIn_of_size {n : Nat} (h : v.size = .ok n) : (count n : Setting α).IsIn v :=
  (Value.count_eq_ok.mp h).2

theorem Setting.isIn_of_smallCount {n : UInt32} (h : v.smallCount = .ok n) :
    (count n.toNat : Setting α).IsIn v := by
  unfold Value.smallCount at h
  cases hcount : v.count smallCountMaximum with
  | error e =>
    rw [hcount] at h
    cases h
  | ok m =>
    rw [hcount] at h
    cases h
    obtain ⟨hle, rfl⟩ := Value.count_eq_ok.mp hcount
    show Value.integer _ = Value.integer _
    rw [UInt32.toNat_ofNat_of_lt' (Nat.lt_succ_of_le hle)]

theorem Value.States.nil : v.States [] := fun _ h => nomatch h

theorem Value.States.append {s t : Placed α} (hs : v.States s) (ht : v.States t) :
    v.States (s ++ t) := by
  intro p hp
  rcases List.mem_append.mp hp with h | h
  · exact hs p h
  · exact ht p h

variable {l : Layout α}

theorem Value.States.cons (hl : v.layout = .ok l) (hu : l.at? f.position f.key = some u)
    {setting : Setting α} (hin : setting.IsIn u) {rest : Placed α} (hrest : v.States rest) :
    v.States (([f], setting) :: rest) := by
  rw [← child?_eq_at? hl f] at hu
  intro p hp
  rcases List.mem_cons.mp hp with rfl | h
  · refine ⟨u, ?_, hin⟩
    rw [follow?, hu]
    rfl
  · exact hrest p h

theorem Value.States.inside (hl : v.layout = .ok l) (hu : l.at? f.position f.key = some u)
    {settings : Placed α} (h : u.States settings) : v.States (settings.inside f) := by
  rw [← child?_eq_at? hl f] at hu
  intro p hp
  obtain ⟨q, hq, rfl⟩ := List.mem_map.mp hp
  obtain ⟨w, hw, hin⟩ := h q hq
  refine ⟨w, ?_, hin⟩
  rw [follow?, hu]
  exact hw

open Value Setting

theorem Weights.states_settings {w : Weights α} (h : ofValue v = .ok w) : v.States w.settings := by
  obtain ⟨l, hl, hmake⟩ := exists_layout h
  simp only [bind_eq_ok, Layout.content_slot_eq_ok] at hmake
  obtain ⟨_, ⟨_, hw₀, h₀⟩, _, ⟨_, hw₁, h₁⟩, _, ⟨_, hw₂, h₂⟩, _, ⟨_, hw₃, h₃⟩, _, ⟨_, hw₄, h₄⟩,
    heq⟩ := hmake
  cases heq
  exact .cons hl hw₀ (isIn_of_number h₀) <| .cons hl hw₁ (isIn_of_number h₁) <|
    .cons hl hw₂ (isIn_of_number h₂) <| .cons hl hw₃ (isIn_of_number h₃) <|
    .cons hl hw₄ (isIn_of_number h₄) .nil

theorem MatchingConfig.states_settings {c : MatchingConfig α} (h : ofValue v = .ok c) :
    v.States c.settings := by
  obtain ⟨l, hl, hmake⟩ := exists_layout h
  simp only [bind_eq_ok, Layout.content_slot_eq_ok] at hmake
  obtain ⟨_, ⟨_, hw₀, h₀⟩, _, ⟨_, hw₁, h₁⟩, _, ⟨_, hw₂, h₂⟩, heq⟩ := hmake
  cases heq
  exact .cons hl hw₀ (isIn_of_number h₀) <|
    (States.inside hl hw₁ (Weights.states_settings h₁)).append <|
    .cons hl hw₂ (isIn_of_size h₂) .nil

theorem FilterConfig.states_settings {c : FilterConfig α} (h : ofValue v = .ok c) :
    v.States c.settings := by
  obtain ⟨l, hl, hmake⟩ := exists_layout h
  simp only [bind_eq_ok, Layout.content_slot_eq_ok] at hmake
  obtain ⟨_, ⟨_, hw₀, h₀⟩, _, ⟨_, hw₁, h₁⟩, _, ⟨_, hw₂, h₂⟩, _, ⟨_, hw₃, h₃⟩, _, ⟨_, hw₄, h₄⟩,
    _, ⟨_, hw₅, h₅⟩, _, ⟨_, hw₆, h₆⟩, heq⟩ := hmake
  cases heq
  exact .cons hl hw₀ (isIn_of_number h₀) <| .cons hl hw₁ (isIn_of_number h₁) <|
    .cons hl hw₂ (isIn_of_number h₂) <| .cons hl hw₃ (isIn_of_number h₃) <|
    .cons hl hw₄ (isIn_of_number h₄) <| .cons hl hw₅ (isIn_of_number h₅) <|
    .cons hl hw₆ (isIn_of_flag h₆) .nil

theorem LifecycleConfig.states_settings {c : LifecycleConfig α} (h : ofValue v = .ok c) :
    v.States c.settings := by
  obtain ⟨l, hl, hmake⟩ := exists_layout h
  simp only [bind_eq_ok, Layout.content_slot_eq_ok] at hmake
  obtain ⟨_, ⟨_, hw₀, h₀⟩, _, ⟨_, hw₁, h₁⟩, _, ⟨_, hw₂, h₂⟩, _, ⟨_, hw₃, h₃⟩, _, ⟨_, hw₄, h₄⟩,
    _, ⟨_, hw₅, h₅⟩, _, ⟨_, hw₆, h₆⟩, heq⟩ := hmake
  cases heq
  exact .cons hl hw₀ (isIn_of_size h₀) <| .cons hl hw₁ (isIn_of_smallCount h₁) <|
    .cons hl hw₂ (isIn_of_number h₂) <| .cons hl hw₃ (isIn_of_smallCount h₃) <|
    .cons hl hw₄ (isIn_of_smallCount h₄) <| .cons hl hw₅ (isIn_of_number h₅) <|
    .cons hl hw₆ (isIn_of_number h₆) .nil

theorem Config.states_settings {c : Config α} (h : ofValue v = .ok c) : v.States c.settings := by
  obtain ⟨l, hl, hmake⟩ := exists_layout h
  simp only [bind_eq_ok, Layout.content_slot_eq_ok] at hmake
  obtain ⟨_, ⟨_, hw₀, h₀⟩, _, ⟨_, hw₁, h₁⟩, _, ⟨_, hw₂, h₂⟩, heq⟩ := hmake
  cases heq
  exact ((States.inside hl hw₀ (MatchingConfig.states_settings h₀)).append <|
    .inside hl hw₁ (FilterConfig.states_settings h₁)).append <|
    .inside hl hw₂ (LifecycleConfig.states_settings h₂)

end Read

/-! ### What has lost a key is refused -/

section Lost

open Value (number flag size smallCount)

def Weights.entries : List (Entry α) := [
  ⟨⟨0, "location"⟩, α, number⟩, ⟨⟨1, "direction"⟩, α, number⟩, ⟨⟨2, "bbox_size"⟩, α, number⟩,
  ⟨⟨3, "point_num"⟩, α, number⟩, ⟨⟨4, "histogram"⟩, α, number⟩]

def MatchingConfig.entries : List (Entry α) := [
  ⟨⟨0, "match_distance_maximum"⟩, α, number⟩, ⟨⟨1, "weights"⟩, Weights α, Weights.ofValue⟩,
  ⟨⟨2, "histogram_bin_size"⟩, Nat, size⟩]

def FilterConfig.entries : List (Entry α) := [
  ⟨⟨0, "measurement_noise"⟩, α, number⟩, ⟨⟨1, "initial_velocity_noise"⟩, α, number⟩,
  ⟨⟨2, "xy_propagation_noise"⟩, α, number⟩, ⟨⟨3, "z_propagation_noise"⟩, α, number⟩,
  ⟨⟨4, "association_score_maximum"⟩, α, number⟩,
  ⟨⟨5, "breakdown_threshold_maximum"⟩, α, number⟩, ⟨⟨6, "use_adaptive"⟩, Bool, flag⟩]

def LifecycleConfig.entries : List (Entry α) := [
  ⟨⟨0, "track_cached_history_size_maximum"⟩, Nat, size⟩,
  ⟨⟨1, "track_consecutive_invisible_maximum"⟩, UInt32, smallCount⟩,
  ⟨⟨2, "track_visible_ratio_minimum"⟩, α, number⟩, ⟨⟨3, "collect_age_minimum"⟩, UInt32, smallCount⟩,
  ⟨⟨4, "collect_consecutive_invisible_maximum"⟩, UInt32, smallCount⟩,
  ⟨⟨5, "acceleration_noise_maximum"⟩, α, number⟩, ⟨⟨6, "speed_noise_maximum"⟩, α, number⟩]

def Config.entries : List (Entry α) := [
  ⟨⟨0, "matcher"⟩, MatchingConfig α, MatchingConfig.ofValue⟩,
  ⟨⟨1, "filter"⟩, FilterConfig α, FilterConfig.ofValue⟩,
  ⟨⟨2, "lifecycle"⟩, LifecycleConfig α, LifecycleConfig.ofValue⟩]

theorem Weights.readsBy : ReadsBy (α := α) Weights.ofValue entries := fun _ => ⟨_, rfl⟩

theorem MatchingConfig.readsBy : ReadsBy (α := α) ofValue entries := fun _ => ⟨_, rfl⟩

theorem FilterConfig.readsBy : ReadsBy (α := α) ofValue entries := fun _ => ⟨_, rfl⟩

theorem LifecycleConfig.readsBy : ReadsBy (α := α) ofValue entries := fun _ => ⟨_, rfl⟩

theorem Config.readsBy : ReadsBy (α := α) ofValue entries := fun _ => ⟨_, rfl⟩

theorem Config.refuses {v : Value α} {c : Config α} (h : ofValue v = .ok c)
    (hobjects : ∀ r ∈ records, ∃ fields, v.follow? r.1 = some (.object fields)) :
    ∀ r ∈ records, Refuses ofValue v r.1 r.2 := by
  simp only [records, List.forall_mem_cons] at hobjects ⊢
  obtain ⟨⟨fields, hv⟩, ⟨m, hm⟩, ⟨w, hw⟩, ⟨f, hf⟩, ⟨l, hl⟩, -⟩ := hobjects
  cases hv
  have hkeys : ((entries (α := α)).map fun f => f.key).Nodup := by
    show ["matcher", "filter", "lifecycle"].Nodup
    decide
  have hmkeys : ((MatchingConfig.entries (α := α)).map fun f => f.key).Nodup := by
    show ["match_distance_maximum", "weights", "histogram_bin_size"].Nodup
    decide
  have hmatcher : ⟨⟨0, "matcher"⟩, MatchingConfig α, MatchingConfig.ofValue⟩ ∈ entries := .head _
  have hfilter : ⟨⟨1, "filter"⟩, FilterConfig α, FilterConfig.ofValue⟩ ∈ entries :=
    .tail _ (.head _)
  have hlifecycle : ⟨⟨2, "lifecycle"⟩, LifecycleConfig α, LifecycleConfig.ofValue⟩ ∈ entries :=
    .tail _ (.tail _ (.head _))
  have hweights : ⟨⟨1, "weights"⟩, Weights α, Weights.ofValue⟩ ∈ MatchingConfig.entries :=
    .tail _ (.head _)
  obtain ⟨hmlookup, matching, hmread⟩ := readsBy.exists_object h hmatcher hm
  obtain ⟨hflookup, filter, hfread⟩ := readsBy.exists_object h hfilter hf
  obtain ⟨hllookup, lifecycle, hlread⟩ := readsBy.exists_object h hlifecycle hl
  have hw' : (Value.object m).follow? [⟨1, "weights"⟩] = some (.object w) := by
    rw [Value.follow?, Value.child?, hmlookup] at hw
    exact hw
  obtain ⟨hwlookup, weights, hwread⟩ := MatchingConfig.readsBy.exists_object hmread hweights hw'
  refine ⟨?_, ?_, ?_, ?_, ?_, List.forall_mem_nil _⟩
  · exact readsBy.refuses_fields h
  · exact readsBy.refuses_inside h hkeys hmatcher hmlookup
      (MatchingConfig.readsBy.refuses_fields hmread)
  · exact readsBy.refuses_inside h hkeys hmatcher hmlookup
      (MatchingConfig.readsBy.refuses_inside hmread hmkeys hweights hwlookup
        (Weights.readsBy.refuses_fields hwread))
  · exact readsBy.refuses_inside h hkeys hfilter hflookup
      (FilterConfig.readsBy.refuses_fields hfread)
  · exact readsBy.refuses_inside h hkeys hlifecycle hllookup
      (LifecycleConfig.readsBy.refuses_fields hlread)

end Lost

/-! ### What was written is read again -/

/-- A scalar type in which what is between zero and one is finite. -/
class FiniteFractions (α : Type) [Scalar α] : Prop where
  isFinite_of_fraction {x : α} : 0 ≤ x → x ≤ 1 → Scalar.isFinite x = true

instance ExactRoots.finiteFractions {K : Type} [Field K] [LinearOrder K] [ExactRoots K] :
    FiniteFractions K := ⟨fun _ _ => rfl⟩

instance ExactNumber.finiteFractions : FiniteFractions ExactNumber where
  isFinite_of_fraction hlow hhigh := by
    obtain ⟨x, -, rfl⟩ := exists_real_of_fraction hlow hhigh
    rfl

section Written

open Value Layout

theorem number_ofNumber {x : α} (h : Scalar.isFinite x = true) : (ofNumber x).number = .ok x := by
  unfold ofNumber
  rw [if_pos h]
  rfl

omit [Scalar α] in
theorem size_integer {n : Nat} (h : n ≤ sizeMaximum) : (integer n : Value α).size = .ok n :=
  count_eq_ok.mpr ⟨h, rfl⟩

omit [Scalar α] in
theorem smallCount_integer (n : UInt32) : (integer n.toNat : Value α).smallCount = .ok n := by
  have hcount : (integer n.toNat : Value α).count smallCountMaximum = .ok n.toNat :=
    count_eq_ok.mpr ⟨Nat.le_of_lt_succ n.toNat_lt, rfl⟩
  unfold smallCount
  rw [hcount]
  show Except.ok (UInt32.ofNat n.toNat) = _
  rw [UInt32.ofNat_toNat]

theorem Weights.isFinite_of_fault? {name : String} {x : α} (h : fault? name x = none) :
    Scalar.isFinite x = true := by
  unfold fault? at h
  by_contra hfinite
  rw [if_pos (Or.inl (Bool.eq_false_iff.mpr hfinite))] at h
  cases h

theorem Weights.ofValue_toValue {w : Weights α} (h : w.error? = none) :
    ofValue w.toValue = .ok w := by
  unfold error? at h
  simp only [Option.or_eq_none_iff] at h
  obtain ⟨h₀, h₁, h₂, h₃, h₄, -⟩ := h
  have r₀ := number_ofNumber (isFinite_of_fault? h₀)
  have r₁ := number_ofNumber (isFinite_of_fault? h₁)
  have r₂ := number_ofNumber (isFinite_of_fault? h₂)
  have r₃ := number_ofNumber (isFinite_of_fault? h₃)
  have r₄ := number_ofNumber (isFinite_of_fault? h₄)
  refine object_eq_ok ?_ ?_
  · simp [List.lookup_cons, r₀, r₁, r₂, r₃, r₄]
  · simp [List.lookup_cons, r₀, r₁, r₂, r₃, r₄, bind, Except.bind, pure, Except.pure]

variable [FiniteFractions α]

theorem Requirement.isFinite_of_fault? {r : Requirement} {name : String} {x : α}
    (h : r.fault? name x = none) : Scalar.isFinite x = true := by
  have hholds := holds_of_fault? h
  cases r with
  | positive => exact (Bool.and_eq_true_iff.mp hholds).1
  | nonNegative => exact (Bool.and_eq_true_iff.mp hholds).1
  | fraction =>
    obtain ⟨hlow, hhigh⟩ := Bool.and_eq_true_iff.mp hholds
    exact FiniteFractions.isFinite_of_fraction (of_decide_eq_true hlow) (of_decide_eq_true hhigh)

theorem Requirement.number_ofNumber {r : Requirement} {name : String} {x : α}
    (h : r.fault? name x = none) : (ofNumber x).number = .ok x :=
  ObstacleTracking.number_ofNumber (isFinite_of_fault? h)

theorem MatchingConfig.ofValue_toValue {c : MatchingConfig α} (h : c.error? = none)
    (hbins : c.histogramBins ≤ sizeMaximum) : ofValue c.toValue = .ok c := by
  unfold error? at h
  simp only [Option.or_eq_none_iff] at h
  obtain ⟨h₀, h₁, -⟩ := h
  have r₀ := Requirement.number_ofNumber h₀
  have r₁ := Weights.ofValue_toValue h₁
  have r₂ : (integer c.histogramBins : Value α).size = _ := size_integer hbins
  refine object_eq_ok ?_ ?_
  · simp [List.lookup_cons, r₀, r₁, r₂]
  · simp [List.lookup_cons, r₀, r₁, r₂, bind, Except.bind, pure, Except.pure]

theorem FilterConfig.ofValue_toValue {c : FilterConfig α} (h : c.error? = none) :
    ofValue c.toValue = .ok c := by
  unfold error? at h
  simp only [Option.or_eq_none_iff] at h
  obtain ⟨h₀, h₁, h₂, h₃, h₄, h₅⟩ := h
  have r₀ := Requirement.number_ofNumber h₀
  have r₁ := Requirement.number_ofNumber h₁
  have r₂ := Requirement.number_ofNumber h₂
  have r₃ := Requirement.number_ofNumber h₃
  have r₄ := Requirement.number_ofNumber h₄
  have r₅ := Requirement.number_ofNumber h₅
  have r₆ : (bool c.adaptive : Value α).flag = .ok c.adaptive := rfl
  refine object_eq_ok ?_ ?_
  · simp [List.lookup_cons, r₀, r₁, r₂, r₃, r₄, r₅, r₆]
  · simp [List.lookup_cons, r₀, r₁, r₂, r₃, r₄, r₅, r₆, bind, Except.bind, pure, Except.pure]

theorem LifecycleConfig.ofValue_toValue {c : LifecycleConfig α} (h : c.error? = none)
    (hcapacity : c.historyCapacity ≤ sizeMaximum) : ofValue c.toValue = .ok c := by
  unfold error? at h
  simp only [Option.or_eq_none_iff] at h
  obtain ⟨-, h₂, h₅, h₆⟩ := h
  have r₀ : (integer c.historyCapacity : Value α).size = _ := size_integer hcapacity
  have r₁ : (integer c.invisibleMaximum.toNat : Value α).smallCount = _ := smallCount_integer _
  have r₂ := Requirement.number_ofNumber h₂
  have r₃ : (integer c.reportAgeMinimum.toNat : Value α).smallCount = _ := smallCount_integer _
  have r₄ : (integer c.reportInvisibleMaximum.toNat : Value α).smallCount = _ :=
    smallCount_integer _
  have r₅ := Requirement.number_ofNumber h₅
  have r₆ := Requirement.number_ofNumber h₆
  refine object_eq_ok ?_ ?_
  · simp [List.lookup_cons, r₀, r₁, r₂, r₃, r₄, r₅, r₆]
  · simp [List.lookup_cons, r₀, r₁, r₂, r₃, r₄, r₅, r₆, bind, Except.bind, pure, Except.pure]

theorem Config.ofValue_toValue {c : Config α} (h : c.error? = none)
    (hbins : c.matching.histogramBins ≤ sizeMaximum)
    (hcapacity : c.lifecycle.historyCapacity ≤ sizeMaximum) : ofValue c.toValue = .ok c := by
  unfold error? at h
  simp only [Option.or_eq_none_iff] at h
  obtain ⟨h₀, h₁, h₂⟩ := h
  have r₀ := MatchingConfig.ofValue_toValue h₀ hbins
  have r₁ := FilterConfig.ofValue_toValue h₁
  have r₂ := LifecycleConfig.ofValue_toValue h₂ hcapacity
  refine object_eq_ok ?_ ?_
  · simp [List.lookup_cons, r₀, r₁, r₂]
  · simp [List.lookup_cons, r₀, r₁, r₂, bind, Except.bind, pure, Except.pure]

end Written

/-- A bundle is complete or refused. What was read of it is what it states in the place of every
setting, whether records are objects or arrays. A bundle of objects that was read is refused once
any key of any record is removed, and the error names the key. A valid configuration, whose sizes
have 64 bits, is read again as it was written. -/
theorem Config.ofValue_complete :
    (∀ (v : Value α) (c : Config α), Config.ofValue v = .ok c →
      v.States c.settings ∧
        ((∀ r ∈ Config.records, ∃ fields, v.follow? r.1 = some (.object fields)) →
          ∀ r ∈ Config.records, ∀ key ∈ r.2,
            Config.ofValue (v.without r.1 key) = .error (.missingField key))) ∧
      ∀ [FiniteFractions α] (c : Config α), c.error? = none →
        c.matching.histogramBins ≤ sizeMaximum → c.lifecycle.historyCapacity ≤ sizeMaximum →
        Config.ofValue c.toValue = .ok c := by
  refine ⟨?_, ?_⟩
  · intro v c h
    exact ⟨Config.states_settings h, Config.refuses h⟩
  · intro _ c hc hbins hcapacity
    exact Config.ofValue_toValue hc hbins hcapacity

/-- The usual configuration is read as it was written, but not without the weight of the
location. -/
theorem Config.ofValue_complete_standard :
    let c : Config ExactNumber := .standard
    let lost := c.toValue.without [⟨0, "matcher"⟩, ⟨1, "weights"⟩] "location"
    Config.ofValue c.toValue = .ok c ∧ c.toValue.States c.settings ∧
      Config.ofValue lost = .error (.missingField "location") := by
  intro c lost
  obtain ⟨hread, hwritten⟩ := Config.ofValue_complete (α := ExactNumber)
  have hsizes : 10 ≤ sizeMaximum ∧ 5 ≤ sizeMaximum := by decide
  have hok := hwritten c (Config.error?_standard ℝ ExactNumber) hsizes.1 hsizes.2
  obtain ⟨hstates, hlost⟩ := hread c.toValue c hok
  refine ⟨hok, hstates, ?_⟩
  refine hlost ?_ _ (.tail _ (.tail _ (.head _))) "location" (.head _)
  simp only [Config.records, List.forall_mem_cons]
  exact ⟨⟨_, rfl⟩, ⟨_, rfl⟩, ⟨_, rfl⟩, ⟨_, rfl⟩, ⟨_, rfl⟩, List.forall_mem_nil _⟩

end ObstacleTracking
