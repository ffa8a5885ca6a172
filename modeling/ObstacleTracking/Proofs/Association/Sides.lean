import ObstacleTracking.Proofs.Association.Components

/-!
# Sides of a cost matrix

Tracks and detections may be split into two sides such that no gated pair leads from one side to
the other. The connected blocks of one side are then those of the whole matrix that lie on it.
-/

namespace ObstacleTracking

namespace Block

variable {α : Type} [Scalar α]

/-- What lies on one side of a block. -/
def side (track detection : ℕ → Bool) (b : Block) : Block :=
  ⟨b.tracks.filter track, b.detections.filter detection⟩

/-- No gated pair of some tracks and detections leads from one side to the other. -/
def IsSplit (c : CostMatrix α) (gate : α) (track detection : ℕ → Bool) (tracks detections : List ℕ) :
    Prop :=
  ∀ t ∈ tracks, ∀ d ∈ detections, c.isGated gate t d = true → track t = detection d

variable {c : CostMatrix α} {gate : α} {track detection : ℕ → Bool} {tracks detections : List ℕ}

theorem IsSplit.subset (h : IsSplit c gate track detection tracks detections)
    {tracks' detections' : List ℕ} (htracks : tracks' ⊆ tracks)
    (hdetections : detections' ⊆ detections) :
    IsSplit c gate track detection tracks' detections' :=
  fun t ht d hd => h t (htracks ht) d (hdetections hd)

/-- The two sides may change places. -/
theorem IsSplit.other (h : IsSplit c gate track detection tracks detections) :
    IsSplit c gate (fun t => !track t) (fun d => !detection d) tracks detections := by
  intro t ht d hd hgated
  show (!track t) = !detection d
  rw [h t ht d hd hgated]

/-! ### What one track reaches -/

theorem filter_isGated_side {t : ℕ} (h : IsSplit c gate track detection [t] detections)
    (ht : track t = true) :
    (detections.filter detection).filter (c.isGated gate t) =
      detections.filter (c.isGated gate t) := by
  rw [List.filter_filter]
  refine List.filter_congr ?_
  intro d hd
  cases hgated : c.isGated gate t d with
  | false => rfl
  | true =>
    have hside := h t (List.mem_singleton_self t) d hd hgated
    rw [← hside, ht]
    rfl

theorem joins_side {t : ℕ} (h : IsSplit c gate track detection [t] detections)
    (ht : track t = true) :
    joins c gate (detections.filter detection) t = joins c gate detections t := by
  rw [Bool.eq_iff_iff, joins_iff, joins_iff]
  constructor
  · intro hjoins
    obtain ⟨d, hd, hgated⟩ := hjoins
    exact ⟨d, (List.mem_filter.mp hd).1, hgated⟩
  · intro hjoins
    obtain ⟨d, hd, hgated⟩ := hjoins
    have hside := h t (List.mem_singleton_self t) d hd hgated
    rw [ht] at hside
    exact ⟨d, List.mem_filter.mpr ⟨hd, hside.symm⟩, hgated⟩

/-- Whoever shares a gated detection with a track is on its side. -/
theorem track_eq_of_joins {t u : ℕ} {b : Block}
    (h : IsSplit c gate track detection (t :: b.tracks) b.detections) (hu : u ∈ b.tracks)
    (hjoins : joins c gate (b.detections.filter (c.isGated gate t)) u = true) :
    track u = track t := by
  obtain ⟨d, hd, hgated⟩ := joins_iff.mp hjoins
  obtain ⟨hd, ht⟩ := List.mem_filter.mp hd
  rw [h u (List.mem_cons_of_mem t hu) d hd hgated, h t List.mem_cons_self d hd ht]

theorem neighbours_side {t : ℕ} {b : Block}
    (h : IsSplit c gate track detection (t :: b.tracks) b.detections) (ht : track t = true) :
    neighbours c gate t (b.side track detection) = neighbours c gate t b ∧
      (neighbours c gate t b).filter track = neighbours c gate t b := by
  have hgated := filter_isGated_side (h.subset (List.cons_subset_cons t (List.nil_subset _))
    (List.Subset.refl _)) ht
  have hself : (neighbours c gate t b).filter track = neighbours c gate t b := by
    refine List.filter_eq_self.mpr ?_
    intro u hu
    obtain ⟨hu, hjoins⟩ := List.mem_filter.mp hu
    rw [track_eq_of_joins h hu hjoins]
    exact ht
  refine ⟨?_, hself⟩
  have hcomm : neighbours c gate t (b.side track detection) =
      (neighbours c gate t b).filter track := by
    unfold neighbours side
    dsimp only
    rw [hgated]
    exact List.filter_comm ..
  rw [hcomm, hself]

theorem without_side {t : ℕ} {b : Block}
    (h : IsSplit c gate track detection (t :: b.tracks) b.detections) (ht : track t = true) :
    without c gate t (b.side track detection) = (without c gate t b).side track detection := by
  have hgated := filter_isGated_side (h.subset (List.cons_subset_cons t (List.nil_subset _))
    (List.Subset.refl _)) ht
  unfold without side
  dsimp only
  rw [hgated]
  congr 1
  · exact List.filter_comm ..
  · exact List.filter_comm ..

/-- What a track of the other side takes away is on the other side. -/
theorem side_without {t : ℕ} {b : Block}
    (h : IsSplit c gate track detection (t :: b.tracks) b.detections) (ht : track t = false) :
    (without c gate t b).side track detection = b.side track detection := by
  unfold without side
  dsimp only
  congr 1
  · rw [List.filter_filter]
    refine List.filter_congr ?_
    intro u hu
    cases hjoins : joins c gate (b.detections.filter (c.isGated gate t)) u with
    | false => simp
    | true => simp [track_eq_of_joins h hu hjoins, ht]
  · rw [List.filter_filter]
    refine List.filter_congr ?_
    intro d hd
    cases hgated : c.isGated gate t d with
    | false => simp
    | true => simp [← h t List.mem_cons_self d hd hgated, ht]

/-! ### What a search reaches -/

/-- A search from one side leaves of that side what it leaves without the other. -/
theorem unreached_side (frontier : List ℕ) (rest : Block)
    (h : IsSplit c gate track detection (frontier ++ rest.tracks) rest.detections) :
    unreached c gate (frontier.filter track) (rest.side track detection) =
      (unreached c gate frontier rest).side track detection := by
  induction frontier, rest using unreached.induct c gate with
  | case1 rest => rw [List.filter_nil, unreached, unreached]
  | case2 rest t frontier ih =>
    have hhead : IsSplit c gate track detection (t :: rest.tracks) rest.detections := by
      refine h.subset (List.cons_subset.mpr ⟨List.mem_cons_self, ?_⟩) (List.Subset.refl _)
      exact fun u hu => List.mem_append_right _ hu
    have hlater : IsSplit c gate track detection
        ((neighbours c gate t rest ++ frontier) ++ (without c gate t rest).tracks)
        (without c gate t rest).detections := by
      refine h.subset ?_ List.filter_sublist.subset
      intro u hu
      simp only [List.mem_append] at hu ⊢
      rcases hu with (hu | hu) | hu
      · exact Or.inr (mem_neighbours.mp hu).1
      · exact Or.inl (List.mem_cons_of_mem t hu)
      · exact Or.inr (mem_tracks_without.mp hu).1
    have ih := ih hlater
    rw [List.filter_append] at ih
    conv_rhs => rw [unreached]
    rw [← ih]
    -- a step from a track of the side is a step in the side, and any other is none there
    cases ht : track t with
    | true =>
      obtain ⟨hsame, hself⟩ := neighbours_side hhead ht
      rw [List.filter_cons_of_pos ht, unreached, hsame, hself, without_side hhead ht]
    | false =>
      -- the neighbours are all on the other side too
      have hnone : (neighbours c gate t rest).filter track = [] := by
        refine List.filter_eq_nil_iff.mpr ?_
        intro u hu
        obtain ⟨hu, hjoins⟩ := List.mem_filter.mp hu
        rw [track_eq_of_joins hhead hu hjoins, ht]
        exact Bool.false_ne_true
      rw [List.filter_cons_of_neg (by rw [ht]; exact Bool.false_ne_true), hnone,
        side_without hhead ht, List.nil_append]

/-- A search from one side reaches nothing of the other. -/
theorem side_unreached {t : ℕ} (rest : Block)
    (h : IsSplit c gate track detection (t :: rest.tracks) rest.detections) (ht : track t = false) :
    (unreached c gate [t] rest).side track detection = rest.side track detection := by
  have hside := unreached_side [t] rest h
  rw [List.filter_cons_of_neg (by rw [ht]; exact Bool.false_ne_true), List.filter_nil,
    unreached] at hside
  exact hside.symm

theorem track_of_reached {t : ℕ} (rest : Block)
    (h : IsSplit c gate track detection (t :: rest.tracks) rest.detections) (ht : track t = true) :
    (∀ u ∈ rest.tracks, u ∉ (unreached c gate [t] rest).tracks → track u = true) ∧
      ∀ d ∈ rest.detections, d ∉ (unreached c gate [t] rest).detections → detection d = true := by
  have hother : (unreached c gate [t] rest).side (fun t => !track t) (fun d => !detection d) =
      rest.side (fun t => !track t) fun d => !detection d :=
    side_unreached rest h.other (by rw [ht]; rfl)
  constructor
  · intro u hu hmiss
    by_contra hfalse
    have hmem : u ∈ (rest.side (fun t => !track t) fun d => !detection d).tracks :=
      List.mem_filter.mpr ⟨hu, by simpa using hfalse⟩
    rw [← hother] at hmem
    exact hmiss (List.mem_filter.mp hmem).1
  · intro d hd hmiss
    by_contra hfalse
    have hmem : d ∈ (rest.side (fun t => !track t) fun d => !detection d).detections :=
      List.mem_filter.mpr ⟨hd, by simpa using hfalse⟩
    rw [← hother] at hmem
    exact hmiss (List.mem_filter.mp hmem).1

/-! ### The blocks of one side -/

theorem filter_side_not_contains {l rest : List ℕ} {p : ℕ → Bool}
    (h : ∀ k ∈ l, k ∉ rest → p k = true) :
    ((l.filter p).filter fun k => !(rest.filter p).contains k) =
      l.filter fun k => !rest.contains k := by
  rw [List.filter_filter]
  refine List.filter_congr ?_
  intro k hk
  cases hp : p k with
  | true => simp [hp]
  | false =>
    have hmem : k ∈ rest := by
      by_contra hmiss
      rw [h k hk hmiss] at hp
      cases hp
    simp [hmem]

/-- The connected blocks of one side are those of the whole that lie on it. -/
theorem componentsOf_side (h : IsSplit c gate track detection tracks detections) :
    componentsOf c gate (tracks.filter track) (detections.filter detection) =
      (componentsOf c gate tracks detections).filter fun b => b.tracks.all track := by
  fun_induction componentsOf c gate tracks detections with
  | case1 detections => rw [List.filter_nil, componentsOf, List.filter_nil]
  | case2 detections t tracks hjoins rest ih =>
    have hlater : IsSplit c gate track detection rest.tracks rest.detections :=
      h.subset ((tracks_unreached_sublist c gate [t] ⟨tracks, detections⟩).cons t).subset
        (detections_unreached_sublist c gate [t] ⟨tracks, detections⟩).subset
    have ih := ih hlater
    -- the block lies on the side of the track that it is searched from
    cases ht : track t with
    | true =>
      obtain ⟨htracks, hdetections⟩ := track_of_reached ⟨tracks, detections⟩ h ht
      have hside : unreached c gate [t] ⟨tracks.filter track, detections.filter detection⟩ =
          rest.side track detection := by
        have hside := unreached_side [t] ⟨tracks, detections⟩ h
        rw [List.filter_cons_of_pos ht, List.filter_nil] at hside
        exact hside
      have hjoins' : joins c gate (detections.filter detection) t = true := by
        rw [joins_side (h.subset (List.cons_subset_cons t (List.nil_subset _))
          (List.Subset.refl _)) ht]
        exact hjoins
      rw [List.filter_cons_of_pos ht, componentsOf, if_pos hjoins']
      dsimp only
      rw [hside, List.filter_cons_of_pos]
      · refine congrArg₂ List.cons ?_ ih
        exact congrArg₂ Block.mk (congrArg (List.cons t) (filter_side_not_contains htracks))
          (filter_side_not_contains hdetections)
      · rw [List.all_cons, ht, Bool.true_and, List.all_eq_true]
        intro k hk
        obtain ⟨hk, hmiss⟩ := List.mem_filter.mp hk
        exact htracks k hk (by simpa using hmiss)
    | false =>
      have hside := side_unreached ⟨tracks, detections⟩ h ht
      have htracks : rest.tracks.filter track = tracks.filter track :=
        congrArg Block.tracks hside
      have hdetections : rest.detections.filter detection = detections.filter detection :=
        congrArg Block.detections hside
      rw [htracks, hdetections] at ih
      rw [List.filter_cons_of_neg (by rw [ht]; exact Bool.false_ne_true),
        List.filter_cons_of_neg (by simp [ht]), ih]
  | case3 detections t tracks hjoins ih =>
    have ih := ih (h.subset (List.subset_cons_self t tracks) (List.Subset.refl _))
    cases ht : track t with
    | true =>
      have hjoins' : ¬ joins c gate (detections.filter detection) t = true := by
        rw [joins_side (h.subset (List.cons_subset_cons t (List.nil_subset _))
          (List.Subset.refl _)) ht]
        exact hjoins
      rw [List.filter_cons_of_pos ht, componentsOf, if_neg hjoins', ih]
    | false =>
      rw [List.filter_cons_of_neg (by rw [ht]; exact Bool.false_ne_true), ih]

end Block

end ObstacleTracking
