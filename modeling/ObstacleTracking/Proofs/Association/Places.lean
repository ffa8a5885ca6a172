import Mathlib.Data.List.Basic
import Mathlib.Data.List.Nodup
import Mathlib.Logic.Equiv.Basic
import Mathlib.Order.Monotone.Basic

/-!
# Places of members

Which members of a list are chosen is a mask of truth values. Their places in the list, in order,
renumber the list of the chosen ones. The places of all members but one renumber the list without
it, and in another order every member has a place of its own.
-/

namespace ObstacleTracking

/-! ### Chosen members -/

/-- Where the chosen members of a list are in it. -/
def chosenPlace : List Bool → ℕ → ℕ
  | [], k => k
  | true :: _, 0 => 0
  | true :: mask, k + 1 => chosenPlace mask k + 1
  | false :: mask, k => chosenPlace mask k + 1

theorem chosenPlace_strictMono (mask : List Bool) : StrictMono (chosenPlace mask) := by
  refine strictMono_nat_of_lt_succ ?_
  intro k
  induction mask generalizing k with
  | nil => exact Nat.lt_succ_self k
  | cons chosen mask ih =>
    cases chosen with
    | false => exact Nat.succ_lt_succ (ih k)
    | true =>
      cases k with
      | zero => exact Nat.succ_pos _
      | succ k => exact Nat.succ_lt_succ (ih k)

variable {β γ : Type}

theorem getElem?_filter (p : β → Bool) (l : List β) (k : ℕ) :
    (l.filter p)[k]? = l[chosenPlace (l.map p) k]? := by
  induction l generalizing k with
  | nil => rfl
  | cons b l ih =>
    cases hp : p b with
    | false =>
      rw [List.filter_cons_of_neg (by simp [hp]), ih, List.map_cons, hp]
      rfl
    | true =>
      rw [List.filter_cons_of_pos hp, List.map_cons, hp]
      cases k with
      | zero => rfl
      | succ k => exact ih k

theorem filter_range (mask : List Bool) :
    (List.range mask.length).filter (fun i => mask.getD i false) =
      (List.range (mask.countP id)).map (chosenPlace mask) := by
  induction mask with
  | nil => rfl
  | cons chosen mask ih =>
    have hlater : ((List.range mask.length).map Nat.succ).filter
        (fun i => (chosen :: mask).getD i false) =
        (List.range (mask.countP id)).map fun k => chosenPlace mask k + 1 := by
      rw [List.filter_map]
      have hcomp : ((fun i => (chosen :: mask).getD i false) ∘ Nat.succ) =
          fun i => mask.getD i false := rfl
      rw [hcomp, ih, List.map_map]
      rfl
    rw [List.length_cons, List.range_succ_eq_map]
    cases chosen with
    | false =>
      rw [List.filter_cons_of_neg (by simp), hlater, List.countP_cons_of_neg (by simp)]
      rfl
    | true =>
      rw [List.filter_cons_of_pos rfl, hlater, List.countP_cons_of_pos rfl,
        List.range_succ_eq_map, List.map_cons, List.map_map]
      rfl

theorem countP_map_id (p : β → Bool) (l : List β) :
    (l.map p).countP id = (l.filter p).length := by
  rw [List.countP_map, ← List.countP_eq_length_filter]
  rfl

/-- A test that does not see what was made of the members chooses the same ones. -/
theorem filter_mapIdx {p : β → Bool} {q : γ → Bool} {F : ℕ → β → γ} {l : List β}
    (h : ∀ i b, l[i]? = some b → q (F i b) = p b) :
    (l.mapIdx F).filter q = (l.filter p).mapIdx fun k b => F (chosenPlace (l.map p) k) b := by
  have hmask : (l.mapIdx F).map q = l.map p := by
    refine List.ext_getElem? ?_
    intro i
    rw [List.getElem?_map, List.getElem?_mapIdx, List.getElem?_map]
    cases hb : l[i]? with
    | none => rfl
    | some b => exact congrArg some (h i b hb)
  refine List.ext_getElem? ?_
  intro k
  rw [getElem?_filter, hmask, List.getElem?_mapIdx, List.getElem?_mapIdx, getElem?_filter]

theorem map_filter_mapIdx {δ : Type} {p : β → Bool} {q : γ → Bool} {F : ℕ → β → γ} {h : γ → δ}
    {h' : β → δ} {l : List β} (hq : ∀ i b, l[i]? = some b → q (F i b) = p b)
    (hh : ∀ i b, h (F i b) = h' b) : ((l.mapIdx F).filter q).map h = (l.filter p).map h' := by
  rw [filter_mapIdx hq]
  refine List.ext_getElem? ?_
  intro k
  rw [List.getElem?_map, List.getElem?_mapIdx, List.getElem?_map, Option.map_map]
  exact congrArg (fun f => Option.map f _) (funext fun b => hh _ b)

/-! ### All members but one -/

/-- Where the members of a list without its `j`th are in the list. -/
def skip (j k : ℕ) : ℕ := if k < j then k else k + 1

theorem skip_strictMono (j : ℕ) : StrictMono (skip j) := by
  refine strictMono_nat_of_lt_succ ?_
  intro k
  unfold skip
  split_ifs <;> omega

theorem skip_ne (j k : ℕ) : skip j k ≠ j := by
  unfold skip
  split <;> omega

theorem exists_skip_eq {j k : ℕ} (h : k ≠ j) : ∃ i, skip j i = k := by
  rcases Nat.lt_or_gt_of_ne h with hlt | hgt
  · exact ⟨k, if_pos hlt⟩
  · have hnot : ¬ k - 1 < j := by omega
    refine ⟨k - 1, (if_neg hnot).trans ?_⟩
    omega

theorem getElem?_eraseIdx_skip (l : List β) (j k : ℕ) : (l.eraseIdx j)[k]? = l[skip j k]? := by
  rw [List.getElem?_eraseIdx]
  unfold skip
  split <;> rfl

theorem filter_ne_eq_eraseIdx {l : List ℕ} (hl : l.Nodup) {j k : ℕ} (hk : l[k]? = some j) :
    l.filter (· != j) = l.eraseIdx k := by
  obtain ⟨hlt, rfl⟩ := List.getElem?_eq_some_iff.mp hk
  rw [← hl.erase_eq_filter, hl.erase_getElem k hlt]

theorem getElem?_filterMap {f : β → Option γ} {l : List β} (hf : ∀ b ∈ l, (f b).isSome = true)
    (k : ℕ) : (l.filterMap f)[k]? = l[k]?.bind f := by
  induction l generalizing k with
  | nil => rfl
  | cons b l ih =>
    obtain ⟨x, hx⟩ := Option.isSome_iff_exists.mp (hf b List.mem_cons_self)
    rw [List.filterMap_cons_some hx]
    cases k with
    | zero => exact hx.symm
    | succ k => exact ih (fun b' hb' => hf b' (List.mem_cons_of_mem b hb')) k

theorem filterMap_eraseIdx {f : β → Option γ} {l : List β} (hf : ∀ b ∈ l, (f b).isSome = true)
    (k : ℕ) : (l.eraseIdx k).filterMap f = (l.filterMap f).eraseIdx k := by
  refine List.ext_getElem? ?_
  intro i
  rw [getElem?_filterMap fun b hb => hf b (List.mem_of_mem_eraseIdx hb), getElem?_eraseIdx_skip,
    getElem?_eraseIdx_skip, getElem?_filterMap hf]

/-! ### Members in another order -/

/-- Places after the first are moved, the first is not. -/
def keepFirst (place : ℕ → ℕ) : ℕ → ℕ
  | 0 => 0
  | k + 1 => place k + 1

theorem keepFirst_bijective {place : ℕ → ℕ} (h : Function.Bijective place) :
    Function.Bijective (keepFirst place) := by
  constructor
  · intro i k heq
    cases i with
    | zero =>
      cases k with
      | zero => rfl
      | succ k => cases heq
    | succ i =>
      cases k with
      | zero => cases heq
      | succ k => rw [h.injective (Nat.succ.inj heq)]
  · intro k
    cases k with
    | zero => exact ⟨0, rfl⟩
    | succ k =>
      obtain ⟨i, rfl⟩ := h.surjective k
      exact ⟨i + 1, rfl⟩

/-- Each member of a list has its place in the list in another order. -/
theorem exists_place_of_perm {l l' : List β} (h : l.Perm l') :
    ∃ place : ℕ → ℕ, Function.Bijective place ∧ ∀ k, l[k]? = l'[place k]? := by
  induction h with
  | nil => exact ⟨id, Function.bijective_id, fun _ => rfl⟩
  | cons b _ ih =>
    obtain ⟨place, hplace, heq⟩ := ih
    refine ⟨keepFirst place, keepFirst_bijective hplace, ?_⟩
    intro k
    cases k with
    | zero => rfl
    | succ k => exact heq k
  | swap b b' l =>
    refine ⟨Equiv.swap 0 1, (Equiv.swap 0 1).bijective, ?_⟩
    intro k
    match k with
    | 0 => rfl
    | 1 => rfl
    | k + 2 =>
      rw [Equiv.swap_apply_of_ne_of_ne (Nat.succ_ne_zero _) (by omega)]
      rfl
  | trans _ _ ih ih' =>
    obtain ⟨place, hplace, heq⟩ := ih
    obtain ⟨place', hplace', heq'⟩ := ih'
    exact ⟨place' ∘ place, hplace'.comp hplace, fun k => (heq k).trans (heq' (place k))⟩

end ObstacleTracking
