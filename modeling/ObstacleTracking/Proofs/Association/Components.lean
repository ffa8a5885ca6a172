import ObstacleTracking.Proofs.Association.Matchings

/-!
# Connected blocks

No gated pair leads from what a search has reached to what it has not, so the connected blocks of
a matrix share no track and no detection, and every gated pair lies in one of them.
-/

namespace ObstacleTracking

namespace Block

variable {α : Type} [Scalar α] {c : CostMatrix α} {gate : α}

/-! ### What is reached -/

theorem joins_iff {detections : List ℕ} {t : ℕ} :
    joins c gate detections t = true ↔ ∃ d ∈ detections, c.isGated gate t d = true :=
  List.any_eq_true

theorem mem_detections_without {b : Block} {t d : ℕ} :
    d ∈ (without c gate t b).detections ↔ d ∈ b.detections ∧ c.isGated gate t d = false := by
  simp [without]

theorem mem_neighbours {b : Block} {t u : ℕ} :
    u ∈ neighbours c gate t b ↔
      u ∈ b.tracks ∧ ∃ d ∈ b.detections, c.isGated gate t d = true ∧ c.isGated gate u d = true := by
  simp [neighbours, joins_iff, and_assoc]

theorem mem_tracks_without {b : Block} {t u : ℕ} :
    u ∈ (without c gate t b).tracks ↔ u ∈ b.tracks ∧ u ∉ neighbours c gate t b := by
  simp only [without, neighbours, List.mem_filter, Bool.not_eq_true', not_and, Bool.not_eq_true]
  constructor
  · intro h
    exact ⟨h.1, fun _ => h.2⟩
  · intro h
    exact ⟨h.1, h.2 h.1⟩

/-- A track was reached, from the frontier or later. -/
def Reached (c : CostMatrix α) (gate : α) (frontier : List ℕ) (rest : Block) (t : ℕ) : Prop :=
  t ∈ frontier ∨ t ∈ rest.tracks ∧ t ∉ (unreached c gate frontier rest).tracks

theorem reached_cons {frontier : List ℕ} {rest : Block} {t u : ℕ} :
    Reached c gate (t :: frontier) rest u ↔
      u = t ∨ Reached c gate (neighbours c gate t rest ++ frontier) (without c gate t rest) u := by
  unfold Reached
  rw [unreached, mem_tracks_without, List.mem_cons, List.mem_append]
  constructor
  · intro h
    rcases h with (h | h) | h
    · exact Or.inl h
    · exact Or.inr (Or.inl (Or.inr h))
    · by_cases hn : u ∈ neighbours c gate t rest
      · exact Or.inr (Or.inl (Or.inl hn))
      · exact Or.inr (Or.inr ⟨⟨h.1, hn⟩, h.2⟩)
  · intro h
    rcases h with h | (h | h) | h
    · exact Or.inl (Or.inl h)
    · refine Or.inr ⟨(mem_neighbours.mp h).1, ?_⟩
      intro hmem
      exact (mem_tracks_without.mp ((tracks_unreached_sublist ..).subset hmem)).2 h
    · exact Or.inl (Or.inr h)
    · exact Or.inr ⟨h.1.1, h.2⟩

/-- A track that was reached has no gated pair with a detection that was not. -/
theorem not_isGated_of_reached {frontier : List ℕ} {rest : Block} {t d : ℕ}
    (ht : Reached c gate frontier rest t) (hd : d ∈ (unreached c gate frontier rest).detections) :
    c.isGated gate t d = false := by
  induction frontier, rest using unreached.induct c gate with
  | case1 rest =>
    rw [Reached, unreached] at ht
    rcases ht with ht | ht
    · exact absurd ht List.not_mem_nil
    · exact absurd ht.1 ht.2
  | case2 rest s frontier ih =>
    rw [unreached] at hd
    rcases reached_cons.mp ht with heq | ht
    · rw [heq]
      exact (mem_detections_without.mp ((detections_unreached_sublist ..).subset hd)).2
    · exact ih ht hd

/-- A detection that was reached has no gated pair with a track that was not. -/
theorem not_isGated_of_unreached {frontier : List ℕ} {rest : Block} {t d : ℕ}
    (ht : t ∈ (unreached c gate frontier rest).tracks) (hd : d ∈ rest.detections)
    (hnot : d ∉ (unreached c gate frontier rest).detections) : c.isGated gate t d = false := by
  induction frontier, rest using unreached.induct c gate with
  | case1 rest =>
    rw [unreached] at hnot
    exact absurd hd hnot
  | case2 rest s frontier ih =>
    rw [unreached] at ht hnot
    by_cases hmem : d ∈ (without c gate s rest).detections
    · exact ih ht hmem hnot
    · have hs : c.isGated gate s d = true := by
        rw [mem_detections_without, not_and, Bool.not_eq_false] at hmem
        exact hmem hd
      have hmiss := mem_tracks_without.mp ((tracks_unreached_sublist ..).subset ht)
      rw [mem_neighbours, not_and] at hmiss
      rw [Bool.eq_false_iff]
      intro hgated
      exact hmiss.2 hmiss.1 ⟨d, hd, hs, hgated⟩

/-- A detection was reached over a gated pair. -/
theorem exists_isGated_of_reached {frontier : List ℕ} {rest : Block} {d : ℕ}
    (hd : d ∈ rest.detections) (hnot : d ∉ (unreached c gate frontier rest).detections) :
    ∃ t, Reached c gate frontier rest t ∧ c.isGated gate t d = true := by
  induction frontier, rest using unreached.induct c gate with
  | case1 rest =>
    rw [unreached] at hnot
    exact absurd hd hnot
  | case2 rest s frontier ih =>
    rw [unreached] at hnot
    by_cases hmem : d ∈ (without c gate s rest).detections
    · obtain ⟨t, ht, hgated⟩ := ih hmem hnot
      exact ⟨t, reached_cons.mpr (Or.inr ht), hgated⟩
    · rw [mem_detections_without, not_and, Bool.not_eq_false] at hmem
      exact ⟨s, reached_cons.mpr (Or.inl rfl), hmem hd⟩

/-! ### The blocks of a search -/

/-- Two blocks share no track and no detection. -/
structure Apart (b b' : Block) : Prop where
  tracks : ∀ t ∈ b.tracks, t ∉ b'.tracks
  detections : ∀ d ∈ b.detections, d ∉ b'.detections

instance : Std.Symm Apart where
  symm _ _ h := ⟨fun t ht ht' => h.tracks t ht' ht, fun d hd hd' => h.detections d hd' hd⟩

theorem pairwise_apart_componentsOf {tracks detections : List ℕ} (h : tracks.Nodup) :
    (componentsOf c gate tracks detections).Pairwise Apart := by
  fun_induction componentsOf c gate tracks detections with
  | case1 detections => exact List.Pairwise.nil
  | case2 detections t tracks _ rest ih =>
    have hsub : rest.tracks.Sublist tracks := tracks_unreached_sublist ..
    obtain ⟨ht, htracks⟩ := List.nodup_cons.mp h
    refine List.pairwise_cons.mpr ⟨?_, ih (htracks.sublist hsub)⟩
    intro b hb
    obtain ⟨hbt, hbd⟩ := sublist_of_mem_componentsOf hb
    constructor
    · intro u hu hub
      have hrest : u ∈ rest.tracks := hbt.subset hub
      rcases List.mem_cons.mp hu with heq | hu
      · rw [heq] at hrest
        exact ht (hsub.subset hrest)
      · simp [hrest] at hu
    · intro d hd hdb
      have hrest : d ∈ rest.detections := hbd.subset hdb
      simp [hrest] at hd
  | case3 detections t tracks _ ih => exact ih (List.nodup_cons.mp h).2

theorem exists_mem_componentsOf {tracks detections : List ℕ} {u d : ℕ} (hu : u ∈ tracks)
    (hd : d ∈ detections) (hgated : c.isGated gate u d = true) :
    ∃ b ∈ componentsOf c gate tracks detections, u ∈ b.tracks ∧ d ∈ b.detections := by
  fun_induction componentsOf c gate tracks detections with
  | case1 detections => exact absurd hu List.not_mem_nil
  | case2 detections t tracks _ rest ih =>
    by_cases hreached : Reached c gate [t] ⟨tracks, detections⟩ u
    · have hmiss : d ∉ rest.detections := by
        intro hmem
        rw [not_isGated_of_reached hreached hmem] at hgated
        cases hgated
      refine ⟨_, List.mem_cons_self, ?_, ?_⟩
      · rcases hreached with hmem | hmem
        · rw [List.mem_singleton.mp hmem]
          exact List.mem_cons_self
        · refine List.mem_cons_of_mem t (List.mem_filter.mpr ⟨hmem.1, ?_⟩)
          simpa using hmem.2
      · refine List.mem_filter.mpr ⟨hd, ?_⟩
        simpa using hmiss
    · have hmem : u ∈ rest.tracks := by
        rw [Reached, List.mem_singleton, not_or, not_and, not_not] at hreached
        exact hreached.2 ((List.mem_cons.mp hu).resolve_left hreached.1)
      have hdmem : d ∈ rest.detections := by
        by_contra hmiss
        rw [not_isGated_of_unreached hmem hd hmiss] at hgated
        cases hgated
      obtain ⟨b, hb, hub, hdb⟩ := ih hmem hdmem
      exact ⟨b, List.mem_cons_of_mem _ hb, hub, hdb⟩
  | case3 detections t tracks hjoins ih =>
    rcases List.mem_cons.mp hu with heq | hu
    · rw [heq] at hgated
      exact absurd (joins_iff.mpr ⟨d, hd, hgated⟩) hjoins
    · exact ih hu hd

/-- The only pair of a block with one track and one detection is gated. -/
theorem isGated_of_singleton_mem {tracks detections : List ℕ} {u d : ℕ}
    (h : ⟨[u], [d]⟩ ∈ componentsOf c gate tracks detections) : c.isGated gate u d = true := by
  fun_induction componentsOf c gate tracks detections with
  | case1 detections => exact absurd h List.not_mem_nil
  | case2 detections t tracks _ rest ih =>
    rcases List.mem_cons.mp h with heq | h
    · rw [Block.mk.injEq, List.cons.injEq] at heq
      obtain ⟨⟨rfl, hnone⟩, hdetections⟩ := heq
      have hd : d ∈ detections.filter fun e => !rest.detections.contains e := by
        rw [← hdetections]
        exact List.mem_singleton_self d
      obtain ⟨hd, hmiss⟩ := List.mem_filter.mp hd
      have hover : ∃ s, Reached c gate [u] ⟨tracks, detections⟩ s ∧ c.isGated gate s d = true :=
        exists_isGated_of_reached hd (by simpa using hmiss)
      obtain ⟨s, hs, hgated⟩ := hover
      rcases hs with hs | hs
      · rw [← List.mem_singleton.mp hs]
        exact hgated
      · have hmem : s ∈ tracks.filter fun k => !rest.tracks.contains k :=
          List.mem_filter.mpr ⟨hs.1, by simpa using hs.2⟩
        rw [← hnone] at hmem
        exact absurd hmem List.not_mem_nil
    · exact ih h
  | case3 detections t tracks _ ih => exact ih h

end Block

end ObstacleTracking
