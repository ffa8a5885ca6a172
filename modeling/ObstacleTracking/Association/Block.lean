import ObstacleTracking.Association.CostMatrix

/-!
# Blocks

Tracks and detections that belong together. The pairs that pass the gate join tracks and
detections into connected blocks, and no pair of an assignment leads from one block to another.
-/

namespace ObstacleTracking

/-- Some tracks and some detections, each in ascending order. -/
structure Block where
  tracks : List Nat
  detections : List Nat
  deriving DecidableEq

namespace Block

variable {α : Type} [Scalar α]

def whole (c : CostMatrix α) : Block := ⟨List.range c.rows, List.range c.cols⟩

/-- A track has a gated pair with one of some detections. -/
def joins (c : CostMatrix α) (gate : α) (detections : List Nat) (track : Nat) : Bool :=
  detections.any (c.isGated gate track)

/-- The tracks of a block that share a gated detection of the block with the track `t`. -/
def neighbours (c : CostMatrix α) (gate : α) (t : Nat) (b : Block) : List Nat :=
  b.tracks.filter (joins c gate (b.detections.filter (c.isGated gate t)))

/-- The block without the gated detections of the track `t` and without its neighbours. -/
def without (c : CostMatrix α) (gate : α) (t : Nat) (b : Block) : Block :=
  { tracks := b.tracks.filter fun k => !joins c gate (b.detections.filter (c.isGated gate t)) k
    detections := b.detections.filter fun d => !c.isGated gate t d }

theorem length_neighbours_add (c : CostMatrix α) (gate : α) (t : Nat) (b : Block) :
    (neighbours c gate t b).length + (without c gate t b).tracks.length = b.tracks.length := by
  simp [neighbours, without, ← List.countP_eq_length_filter,
    List.length_eq_countP_add_countP (joins c gate (b.detections.filter (c.isGated gate t)))
      (l := b.tracks)]

/-! ### Reach -/

/-- What is left of the unreached tracks and detections when all that a gated path joins to the
tracks in the frontier is taken away. -/
def unreached (c : CostMatrix α) (gate : α) (frontier : List Nat) (rest : Block) : Block :=
  match frontier with
  | [] => rest
  | t :: frontier =>
    unreached c gate (neighbours c gate t rest ++ frontier) (without c gate t rest)
termination_by frontier.length + rest.tracks.length
decreasing_by
  have := length_neighbours_add c gate t rest
  simp only [List.length_append, List.length_cons]
  omega

/-! ### What is unreached is what was there -/

theorem tracks_unreached_sublist (c : CostMatrix α) (gate : α) (frontier : List Nat)
    (rest : Block) : (unreached c gate frontier rest).tracks.Sublist rest.tracks := by
  fun_induction unreached c gate frontier rest with
  | case1 rest => exact List.Sublist.refl _
  | case2 rest t frontier ih => exact ih.trans List.filter_sublist

theorem detections_unreached_sublist (c : CostMatrix α) (gate : α) (frontier : List Nat)
    (rest : Block) : (unreached c gate frontier rest).detections.Sublist rest.detections := by
  fun_induction unreached c gate frontier rest with
  | case1 rest => exact List.Sublist.refl _
  | case2 rest t frontier ih => exact ih.trans List.filter_sublist

/-! ### Components -/

/-- The connected blocks among the tracks and detections that were not reached before, ordered by
their lowest track. Whoever has no gated pair is in no block. -/
def componentsOf (c : CostMatrix α) (gate : α) (tracks detections : List Nat) : List Block :=
  match tracks with
  | [] => []
  | t :: tracks =>
    if joins c gate detections t then
      let rest := unreached c gate [t] ⟨tracks, detections⟩
      ⟨t :: tracks.filter fun k => !rest.tracks.contains k,
        detections.filter fun d => !rest.detections.contains d⟩ ::
        componentsOf c gate rest.tracks rest.detections
    else componentsOf c gate tracks detections
termination_by tracks.length
decreasing_by
  · exact Nat.lt_succ_of_le (tracks_unreached_sublist c gate [t] ⟨tracks, detections⟩).length_le
  · simp

theorem sublist_of_mem_componentsOf {c : CostMatrix α} {gate : α} {tracks detections : List Nat}
    {b : Block} (h : b ∈ componentsOf c gate tracks detections) :
    b.tracks.Sublist tracks ∧ b.detections.Sublist detections := by
  fun_induction componentsOf c gate tracks detections with
  | case1 detections => simp at h
  | case2 detections t tracks _ rest ih =>
    rcases List.mem_cons.mp h with h | h
    · subst h
      exact ⟨List.filter_sublist.cons_cons t, List.filter_sublist⟩
    · obtain ⟨ht, hd⟩ := ih h
      exact ⟨(ht.trans (tracks_unreached_sublist ..)).cons t,
        hd.trans (detections_unreached_sublist ..)⟩
  | case3 detections t tracks _ ih =>
    obtain ⟨ht, hd⟩ := ih h
    exact ⟨ht.cons t, hd⟩

def components (c : CostMatrix α) (gate : α) : List Block :=
  componentsOf c gate (List.range c.rows) (List.range c.cols)

end Block

end ObstacleTracking
