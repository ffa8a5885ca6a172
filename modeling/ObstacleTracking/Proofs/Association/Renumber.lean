import ObstacleTracking.Proofs.Association.Blockwise

/-!
# Renumbered tracks and detections

An assignment sees of tracks and detections only their costs and their order. So under new numbers
in the same order the same pairs are matched.
-/

namespace ObstacleTracking

/-- New numbers for tracks and detections. -/
structure Renumbering where
  track : ℕ → ℕ
  detection : ℕ → ℕ
  track_inj : Function.Injective track
  detection_inj : Function.Injective detection

namespace Renumbering

def block (r : Renumbering) (b : Block) : Block :=
  ⟨b.tracks.map r.track, b.detections.map r.detection⟩

def pair (r : Renumbering) (p : ℕ × ℕ) : ℕ × ℕ := (r.track p.1, r.detection p.2)

variable {α : Type} [Scalar α]

/-- Under the new numbers the costs of a block are those under the old ones. -/
def Agrees (r : Renumbering) (c c' : CostMatrix α) (b : Block) : Prop :=
  ∀ t ∈ b.tracks, ∀ d ∈ b.detections, c'.entry (r.track t) (r.detection d) = c.entry t d

/-- Under the new numbers the same pairs of a block pass the gate, at the same costs. -/
structure AgreesOnGated (r : Renumbering) (gate : α) (c c' : CostMatrix α) (b : Block) : Prop where
  isGated : ∀ t ∈ b.tracks, ∀ d ∈ b.detections,
    c'.isGated gate (r.track t) (r.detection d) = c.isGated gate t d
  entry : ∀ t ∈ b.tracks, ∀ d ∈ b.detections, c.isGated gate t d = true →
    c'.entry (r.track t) (r.detection d) = c.entry t d

variable {r : Renumbering} {c c' : CostMatrix α} {gate : α} {b b' : Block}

theorem Agrees.isGated (h : r.Agrees c c' b) {t d : ℕ} (ht : t ∈ b.tracks)
    (hd : d ∈ b.detections) :
    c'.isGated gate (r.track t) (r.detection d) = c.isGated gate t d := by
  unfold CostMatrix.isGated
  rw [h t ht d hd]

theorem Agrees.onGated (h : r.Agrees c c' b) (gate : α) : r.AgreesOnGated gate c c' b where
  isGated _ ht _ hd := h.isGated ht hd
  entry t ht d hd _ := h t ht d hd

theorem AgreesOnGated.subset (h : r.AgreesOnGated gate c c' b) (htracks : b'.tracks ⊆ b.tracks)
    (hdetections : b'.detections ⊆ b.detections) : r.AgreesOnGated gate c c' b' where
  isGated t ht d hd := h.isGated t (htracks ht) d (hdetections hd)
  entry t ht d hd := h.entry t (htracks ht) d (hdetections hd)

/-! ### Connected blocks -/

open Block

theorem filter_isGated {t : ℕ} {detections : List ℕ}
    (h : r.AgreesOnGated gate c c' ⟨[t], detections⟩) :
    (detections.map r.detection).filter (c'.isGated gate (r.track t)) =
      (detections.filter (c.isGated gate t)).map r.detection := by
  rw [List.filter_map]
  refine congrArg (List.map r.detection) (List.filter_congr ?_)
  intro d hd
  exact h.isGated t (List.mem_singleton_self t) d hd

theorem joins_map {t : ℕ} {detections : List ℕ} (h : r.AgreesOnGated gate c c' ⟨[t], detections⟩) :
    joins c' gate (detections.map r.detection) (r.track t) = joins c gate detections t := by
  unfold joins
  rw [List.any_map, Bool.eq_iff_iff, List.any_eq_true, List.any_eq_true]
  refine exists_congr fun d => and_congr_right fun hd => ?_
  rw [Function.comp_apply, h.isGated t (List.mem_singleton_self t) d hd]

section Reach

variable {t : ℕ} (h : r.AgreesOnGated gate c c' ⟨t :: b.tracks, b.detections⟩)

include h

theorem filter_isGated_block :
    (r.block b).detections.filter (c'.isGated gate (r.track t)) =
      (b.detections.filter (c.isGated gate t)).map r.detection :=
  filter_isGated (h.subset (List.cons_subset_cons t (List.nil_subset _)) (List.Subset.refl _))

theorem joins_block {u : ℕ} (hu : u ∈ b.tracks) :
    joins c' gate ((r.block b).detections.filter (c'.isGated gate (r.track t))) (r.track u) =
      joins c gate (b.detections.filter (c.isGated gate t)) u := by
  rw [filter_isGated_block h]
  refine joins_map (h.subset ?_ List.filter_sublist.subset)
  exact List.cons_subset.mpr ⟨List.mem_cons_of_mem t hu, List.nil_subset _⟩

theorem neighbours_block :
    neighbours c' gate (r.track t) (r.block b) = (neighbours c gate t b).map r.track := by
  unfold neighbours
  rw [show (r.block b).tracks = b.tracks.map r.track from rfl, List.filter_map]
  exact congrArg (List.map r.track) (List.filter_congr fun u hu => joins_block h hu)

theorem without_block :
    without c' gate (r.track t) (r.block b) = r.block (without c gate t b) := by
  have htracks : (without c' gate (r.track t) (r.block b)).tracks =
      (without c gate t b).tracks.map r.track := by
    show (b.tracks.map r.track).filter _ = _
    rw [List.filter_map]
    refine congrArg (List.map r.track) (List.filter_congr ?_)
    intro u hu
    exact congrArg not (joins_block h hu)
  have hdetections : (without c' gate (r.track t) (r.block b)).detections =
      (without c gate t b).detections.map r.detection := by
    show (b.detections.map r.detection).filter _ = _
    rw [List.filter_map]
    refine congrArg (List.map r.detection) (List.filter_congr ?_)
    intro d hd
    exact congrArg not (h.isGated t List.mem_cons_self d hd)
  exact congrArg₂ Block.mk htracks hdetections

end Reach

theorem unreached_block (frontier : List ℕ) (rest : Block)
    (h : r.AgreesOnGated gate c c' ⟨frontier ++ rest.tracks, rest.detections⟩) :
    unreached c' gate (frontier.map r.track) (r.block rest) =
      r.block (unreached c gate frontier rest) := by
  induction frontier, rest using unreached.induct c gate with
  | case1 rest => rw [List.map_nil, unreached, unreached]
  | case2 rest t frontier ih =>
    have hhead : r.AgreesOnGated gate c c' ⟨t :: rest.tracks, rest.detections⟩ := by
      refine h.subset (List.cons_subset.mpr ⟨List.mem_cons_self, ?_⟩) (List.Subset.refl _)
      exact fun u hu => List.mem_append_right _ hu
    have hlater : r.AgreesOnGated gate c c' ⟨(neighbours c gate t rest ++ frontier) ++
        (without c gate t rest).tracks, (without c gate t rest).detections⟩ := by
      refine h.subset ?_ List.filter_sublist.subset
      intro u hu
      simp only [List.mem_append] at hu ⊢
      rcases hu with (hu | hu) | hu
      · exact Or.inr (mem_neighbours.mp hu).1
      · exact Or.inl (List.mem_cons_of_mem t hu)
      · exact Or.inr (mem_tracks_without.mp hu).1
    rw [List.map_cons, unreached, unreached, neighbours_block hhead, without_block hhead,
      ← List.map_append]
    exact ih hlater

theorem map_filter_not_contains {f : ℕ → ℕ} (hf : Function.Injective f) (l rest : List ℕ) :
    ((l.map f).filter fun k => !(rest.map f).contains k) =
      (l.filter fun k => !rest.contains k).map f := by
  rw [List.filter_map]
  refine congrArg (List.map f) (List.filter_congr ?_)
  intro k _
  simp [hf.eq_iff]

/-- The connected blocks under the new numbers are those under the old ones. -/
theorem componentsOf_block {tracks detections : List ℕ}
    (h : r.AgreesOnGated gate c c' ⟨tracks, detections⟩) :
    componentsOf c' gate (tracks.map r.track) (detections.map r.detection) =
      (componentsOf c gate tracks detections).map r.block := by
  fun_induction componentsOf c gate tracks detections with
  | case1 detections => rw [List.map_nil, componentsOf, List.map_nil]
  | case2 detections t tracks hjoins rest ih =>
    have hrest : unreached c' gate [r.track t] ⟨tracks.map r.track, detections.map r.detection⟩ =
        r.block rest :=
      unreached_block [t] ⟨tracks, detections⟩ h
    have hjoins' : joins c' gate (detections.map r.detection) (r.track t) = true := by
      rw [joins_map (h.subset (List.cons_subset_cons t (List.nil_subset _)) (List.Subset.refl _))]
      exact hjoins
    have hlater : r.AgreesOnGated gate c c' rest :=
      h.subset ((tracks_unreached_sublist c gate [t] ⟨tracks, detections⟩).cons t).subset
        (detections_unreached_sublist c gate [t] ⟨tracks, detections⟩).subset
    rw [List.map_cons, componentsOf, if_pos hjoins']
    dsimp only
    rw [hrest, List.map_cons]
    refine congrArg₂ List.cons ?_ (ih hlater)
    exact congrArg₂ Block.mk
      (congrArg (List.cons (r.track t)) (map_filter_not_contains r.track_inj tracks rest.tracks))
      (map_filter_not_contains r.detection_inj detections rest.detections)
  | case3 detections t tracks hjoins ih =>
    have hjoins' : ¬ joins c' gate (detections.map r.detection) (r.track t) = true := by
      rw [joins_map (h.subset (List.cons_subset_cons t (List.nil_subset _)) (List.Subset.refl _))]
      exact hjoins
    rw [List.map_cons, componentsOf, if_neg hjoins']
    exact ih (h.subset (List.subset_cons_self t tracks) (List.Subset.refl _))

/-! ### The solver's answer -/

open Assignment

theorem getElem?_tracks_block (r : Renumbering) (b : Block) (i : ℕ) :
    (r.block b).tracks[i]? = b.tracks[i]?.map r.track :=
  List.getElem?_map

theorem getElem?_detections_block (r : Renumbering) (b : Block) (j : ℕ) :
    (r.block b).detections[j]? = b.detections[j]?.map r.detection :=
  List.getElem?_map

theorem paddedMatrix_block (h : r.AgreesOnGated gate c c' b) (size : ℕ) :
    paddedMatrix c' gate (r.block b) size = paddedMatrix c gate b size := by
  unfold paddedMatrix
  congr 1
  funext i j
  simp only [Fin.getElem?_fin, getElem?_tracks_block, getElem?_detections_block]
  cases ht : b.tracks[i.val]? with
  | none => rfl
  | some t =>
    cases hd : b.detections[j.val]? with
    | none => rfl
    | some d =>
      have ht := List.mem_of_getElem? ht
      have hd := List.mem_of_getElem? hd
      simp only [Option.map_some, h.isGated t ht d hd]
      -- the cost of a pair that does not pass is not looked at
      split
      case isTrue hgated => exact h.entry t ht d hd hgated
      case isFalse => rfl

/-- What a permutation picks under the old numbers it picks under the new ones. -/
theorem picked_block (h : r.AgreesOnGated gate c c' b) {n : ℕ} (p : Permutation n) :
    ((r.block b).tracks.mapIdx fun i t =>
      ((p.column? i).bind fun j => (r.block b).detections[j]?).filter (c'.isGated gate t)) =
    (b.tracks.mapIdx fun i t => ((p.column? i).bind fun j => b.detections[j]?).filter
      (c.isGated gate t)).map (Option.map r.detection) := by
  refine List.ext_getElem? ?_
  intro i
  rw [List.getElem?_mapIdx, List.getElem?_map, List.getElem?_mapIdx, getElem?_tracks_block]
  cases ht : b.tracks[i]? with
  | none => rfl
  | some t =>
    simp only [Option.map_some, getElem?_detections_block]
    cases p.column? i with
    | none => rfl
    | some j =>
      cases hd : b.detections[j]? with
      | none => simp [hd]
      | some d =>
        have hgated : c'.isGated gate (r.track t) (r.detection d) = c.isGated gate t d :=
          h.isGated t (List.mem_of_getElem? ht) d (List.mem_of_getElem? hd)
        cases hold : c.isGated gate t d with
        | true => simp [hd, Option.filter, hgated, hold]
        | false => simp [hd, Option.filter, hgated, hold]

theorem ne_nil_of_map {f : ℕ → ℕ} {l : List ℕ} (h : l = [] → False) : l.map f = [] → False :=
  fun hnil => h (List.map_eq_nil_iff.mp hnil)

theorem single_of_map {f g : ℕ → ℕ} {l l' : List ℕ} (h : ∀ t d, l = [t] → l' = [d] → False) :
    ∀ t d, l.map f = [t] → l'.map g = [d] → False := by
  intro t d ht hd
  obtain ⟨t', rfl, -⟩ := List.map_eq_singleton_iff.mp ht
  obtain ⟨d', rfl, -⟩ := List.map_eq_singleton_iff.mp hd
  exact h t' d' rfl rfl

section Shapes

variable {solver : Solver α} {tracks detections : List ℕ}
  (hsingle : ∀ t d, tracks = [t] → detections = [d] → False) (hleft : tracks = [] → False)
  (hright : detections = [] → False)

include hsingle hleft hright

theorem solved_of_none (size : ℕ) (hsize : size = max tracks.length detections.length)
    (h : solver size (paddedMatrix c gate ⟨tracks, detections⟩ size) = none) :
    solved solver c gate ⟨tracks, detections⟩ = tracks.map fun _ => none := by
  rw [solved.eq_4 solver c gate tracks detections hsingle hleft hright, ← hsize, h]

theorem solved_of_some (size : ℕ) (hsize : size = max tracks.length detections.length)
    {p : Permutation size}
    (h : solver size (paddedMatrix c gate ⟨tracks, detections⟩ size) = some p) :
    solved solver c gate ⟨tracks, detections⟩ = tracks.mapIdx fun i t =>
      ((p.column? i).bind fun j => detections[j]?).filter (c.isGated gate t) := by
  rw [solved.eq_4 solver c gate tracks detections hsingle hleft hright, ← hsize, h]

end Shapes

theorem solved_block (solver : Solver α) (h : r.AgreesOnGated gate c c' b) :
    solved solver c' gate (r.block b) = (solved solver c gate b).map (Option.map r.detection) := by
  fun_cases solved solver c gate b with
  | case1 t d =>
    have hgated : c'.isGated gate (r.track t) (r.detection d) = c.isGated gate t d :=
      h.isGated t (List.mem_singleton_self t) d (List.mem_singleton_self d)
    show [if c'.isGated gate (r.track t) (r.detection d) then some (r.detection d) else none] = _
    rw [hgated]
    cases c.isGated gate t d <;> rfl
  | case2 => rfl
  | case3 tracks hleft =>
    show solved solver c' gate ⟨tracks.map r.track, []⟩ = _
    rw [solved.eq_3 solver c' gate _ (ne_nil_of_map hleft), List.map_map, List.map_map]
    rfl
  | case4 tracks detections hsingle hleft hright size hnone =>
    rw [hnone]
    show solved solver c' gate ⟨tracks.map r.track, detections.map r.detection⟩ = _
    rw [solved_of_none (single_of_map hsingle) (ne_nil_of_map hleft) (ne_nil_of_map hright) size
      (by rw [List.length_map, List.length_map])
      ((congrArg (solver size) (paddedMatrix_block h size)).trans hnone), List.map_map,
      List.map_map]
    rfl
  | case5 tracks detections hsingle hleft hright size p hsome =>
    rw [hsome]
    show solved solver c' gate ⟨tracks.map r.track, detections.map r.detection⟩ = _
    rw [solved_of_some (single_of_map hsingle) (ne_nil_of_map hleft) (ne_nil_of_map hright) size
      (by rw [List.length_map, List.length_map])
      ((congrArg (solver size) (paddedMatrix_block h size)).trans hsome)]
    exact picked_block h p

/-! ### The choices of the tracks -/

theorem pairs_map (r : Renumbering) (tracks : List ℕ) (choices : List (Option ℕ)) :
    pairs (tracks.map r.track) (choices.map (Option.map r.detection)) =
      (pairs tracks choices).map r.pair := by
  unfold pairs
  rw [List.zip_map, List.filterMap_map, List.map_filterMap]
  refine List.filterMap_congr ?_
  intro p _
  cases hp : p.2 <;> simp [hp, pair]

/-- What the solver picks are gated pairs of the block. -/
theorem mem_of_mem_pairs_solved {solver : Solver α} {t d : ℕ}
    (h : (t, d) ∈ pairs b.tracks (solved solver c gate b)) :
    t ∈ b.tracks ∧ d ∈ b.detections ∧ c.isGated gate t d = true := by
  fun_cases solved solver c gate b with
  | case1 s e =>
    rw [solved.eq_1] at h
    cases hgated : c.isGated gate s e <;> simp [pairs, hgated] at h
    obtain ⟨rfl, rfl⟩ := h
    exact ⟨List.mem_singleton_self t, List.mem_singleton_self d, hgated⟩
  | case2 => cases h
  | case3 tracks hleft =>
    rw [solved.eq_3 solver c gate tracks hleft, pairs_map_none] at h
    cases h
  | case4 tracks detections hsingle hleft hright size hnone =>
    rw [solved_of_none hsingle hleft hright _ rfl hnone, pairs_map_none] at h
    cases h
  | case5 tracks detections hsingle hleft hright size p hsome =>
    rw [solved_of_some hsingle hleft hright _ rfl hsome] at h
    obtain ⟨i, j, ht, -, hd, hgated⟩ := mem_picks_iff.mp h
    exact ⟨List.mem_of_getElem? ht, List.mem_of_getElem? hd, hgated⟩

theorem add_pair (h : r.AgreesOnGated gate c c' b) (total : Total α) {t d : ℕ} (ht : t ∈ b.tracks)
    (hd : d ∈ b.detections) (hgated : c.isGated gate t d = true) :
    total.add c' (r.track t, r.detection d) = total.add c (t, d) := by
  unfold Total.add
  rw [h.entry t ht d hd hgated]

theorem ofPairs_map (h : r.AgreesOnGated gate c c' b) {pairs : List (ℕ × ℕ)}
    (hpairs : ∀ p ∈ pairs, p.1 ∈ b.tracks ∧ p.2 ∈ b.detections ∧ c.isGated gate p.1 p.2 = true) :
    Total.ofPairs c' (pairs.map r.pair) = Total.ofPairs c pairs := by
  unfold Total.ofPairs
  generalize (Total.zero : Total α) = total
  induction pairs generalizing total with
  | nil => rfl
  | cons p pairs ih =>
    obtain ⟨ht, hd, hgated⟩ := hpairs p List.mem_cons_self
    rw [List.map_cons, List.foldl_cons, List.foldl_cons]
    unfold pair at ih ⊢
    rw [add_pair h total ht hd hgated]
    exact ih (fun q hq => hpairs q (List.mem_cons_of_mem p hq)) _

theorem ofPairs_solved (solver : Solver α) (h : r.AgreesOnGated gate c c' b) :
    Total.ofPairs c' ((pairs b.tracks (solved solver c gate b)).map r.pair) =
      Total.ofPairs c (pairs b.tracks (solved solver c gate b)) :=
  ofPairs_map h fun _ hp => mem_of_mem_pairs_solved hp

theorem reaches_block (solver : Solver α) (target sofar : Total α)
    (h : r.AgreesOnGated gate c c' b) :
    reaches solver c' gate target sofar (r.block b) = reaches solver c gate target sofar b := by
  unfold reaches
  rw [solved_block solver h, show (r.block b).tracks = b.tracks.map r.track from rfl, pairs_map,
    ofPairs_solved solver h]

theorem leave_map (r : Renumbering) (detections : List ℕ) (d : Option ℕ) :
    leave (detections.map r.detection) (d.map r.detection) =
      (leave detections d).map r.detection := by
  cases d with
  | none => rfl
  | some d =>
    show (detections.map r.detection).filter (· != r.detection d) = _
    rw [List.filter_map]
    refine congrArg (List.map r.detection) (List.filter_congr ?_)
    intro e _
    simp [r.detection_inj.eq_iff, bne]

theorem choose_map {t : ℕ} {detections : List ℕ} (h : r.AgreesOnGated gate c c' ⟨[t], detections⟩)
    (sofar : Total α) {d : Option ℕ} (hd : d ∈ candidates c gate t detections) :
    sofar.choose c' (r.track t) (d.map r.detection) = sofar.choose c t d := by
  cases d with
  | none => rfl
  | some d =>
    obtain ⟨hmem, hgated⟩ := some_mem_candidates_iff.mp hd
    exact add_pair h sofar (List.mem_singleton_self t) hmem hgated

theorem AgreesOnGated.leave {t : ℕ} {later detections : List ℕ}
    (h : r.AgreesOnGated gate c c' ⟨t :: later, detections⟩) (d : Option ℕ) :
    r.AgreesOnGated gate c c' ⟨later, leave detections d⟩ :=
  h.subset (List.subset_cons_self t later) (leave_sublist detections d).subset

theorem choice?_map (solver : Solver α) (target sofar : Total α) {t : ℕ}
    {later detections : List ℕ} (h : r.AgreesOnGated gate c c' ⟨t :: later, detections⟩) :
    choice? solver c' gate target sofar (r.track t) (later.map r.track)
        (detections.map r.detection) =
      (choice? solver c gate target sofar t later detections).map (Option.map r.detection) := by
  have hhead : r.AgreesOnGated gate c c' ⟨[t], detections⟩ :=
    h.subset (List.cons_subset_cons t (List.nil_subset _)) (List.Subset.refl _)
  have hoptions : ((detections.map r.detection).filter (c'.isGated gate (r.track t))).map some ++
      [none] = ((detections.filter (c.isGated gate t)).map some ++ [none]).map
        (Option.map r.detection) := by
    rw [filter_isGated hhead, List.map_append, List.map_map, List.map_map]
    rfl
  unfold choice?
  rw [hoptions, List.find?_map]
  refine congrArg (Option.map (Option.map r.detection)) ?_
  rw [← List.head?_filter, ← List.head?_filter]
  refine congrArg List.head? (List.filter_congr ?_)
  intro d hd
  rw [Function.comp_apply, choose_map hhead sofar hd, leave_map]
  exact reaches_block solver target _ (h.leave d)

theorem choices?_map (solver : Solver α) (target sofar : Total α) {tracks detections : List ℕ}
    (h : r.AgreesOnGated gate c c' ⟨tracks, detections⟩) :
    choices? solver c' gate target sofar (tracks.map r.track) (detections.map r.detection) =
      (choices? solver c gate target sofar tracks detections).map
        (List.map (Option.map r.detection)) := by
  induction tracks generalizing sofar detections with
  | nil => rfl
  | cons t later ih =>
    rw [List.map_cons, choices?, choices?, choice?_map solver target sofar h]
    cases hchoice : choice? solver c gate target sofar t later detections with
    | none => rfl
    | some d =>
      have hhead : r.AgreesOnGated gate c c' ⟨[t], detections⟩ :=
        h.subset (List.cons_subset_cons t (List.nil_subset _)) (List.Subset.refl _)
      simp only [Option.map_some, Option.bind_eq_bind, Option.bind_some]
      rw [choose_map hhead sofar (choice?_mem hchoice), leave_map, ih _ (h.leave d)]
      cases choices? solver c gate target (sofar.choose c t d) later (leave detections d) <;> rfl

theorem pairsOf_block (solver : Solver α) (h : r.AgreesOnGated gate c c' b) :
    pairsOf solver c' gate (r.block b) = (pairsOf solver c gate b).map r.pair := by
  unfold pairsOf
  dsimp only
  rw [solved_block solver h, show (r.block b).tracks = b.tracks.map r.track from rfl,
    show (r.block b).detections = b.detections.map r.detection from rfl, pairs_map,
    ofPairs_solved solver h, choices?_map solver _ _ h, ← pairs_map]
  cases choices? solver c gate (Total.ofPairs c (pairs b.tracks (solved solver c gate b))) .zero
    b.tracks b.detections <;> rfl

theorem pairsOfComponent_block (solver : Solver α) (h : r.AgreesOnGated gate c c' b) :
    pairsOfComponent solver c' gate (r.block b) =
      (pairsOfComponent solver c gate b).map r.pair := by
  by_cases hsingle : ∃ t d, b = ⟨[t], [d]⟩
  · obtain ⟨t, d, rfl⟩ := hsingle
    rfl
  · have hold : ∀ t d, b = ⟨[t], [d]⟩ → False := fun t d heq => hsingle ⟨t, d, heq⟩
    have hnew : ∀ t d, r.block b = ⟨[t], [d]⟩ → False := by
      intro t d heq
      have hparts : ∀ t' d', b.tracks = [t'] → b.detections = [d'] → False :=
        fun t' d' ht' hd' => hold t' d' (congrArg₂ Block.mk ht' hd')
      rw [block, Block.mk.injEq] at heq
      exact single_of_map hparts t d heq.1 heq.2
    rw [pairsOfComponent.eq_2 solver c gate b hold,
      pairsOfComponent.eq_2 solver c' gate (r.block b) hnew]
    exact pairsOf_block solver h

end Renumbering

end ObstacleTracking
