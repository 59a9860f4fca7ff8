import Mathlib.Data.List.InsertIdx
import Mathlib.Data.List.Nodup
import Mathlib.Data.List.Perm.Basic

/-!
# Placing elements of a list

Some elements of a list are moved one after the other, each to a position that
is given for it.  When the positions increase, the elements that are moved end
up in the order of their positions, and the others stay in their order.
Elements are identified by a key.
-/

namespace Dbn
namespace Lib
namespace Placement

variable {α κ : Type} [DecidableEq κ]

/-- Move an element to a position, or to the end of a shorter list. -/
def place (key : α -> κ) (l : List α) (move : Nat × α) : List α :=
  let rest := l.eraseP (fun y => key y = key move.2)
  if move.1 ≥ rest.length then rest ++ [move.2]
  else rest.insertIdx move.1 move.2

/-- Move the elements one after the other. -/
def placeAll (key : α -> κ) (l : List α) (moves : List (Nat × α)) : List α :=
  moves.foldl (place key) l

theorem insertIdx_eq_take_append {l : List α} {n : Nat} (h : n ≤ l.length)
    (x : α) : l.insertIdx n x = l.take n ++ x :: l.drop n := by
  induction l generalizing n with
  | nil =>
      rw [Nat.le_zero.mp h]
      rfl
  | cons y rest ih =>
      cases n with
      | zero => rfl
      | succ n =>
          rw [List.insertIdx_succ_cons, ih (Nat.le_of_succ_le_succ h)]
          rfl

/-!
## One move
-/

/-- The parts of a list around the element that is moved. -/
structure Around (key : α -> κ) (l : List α) (x : α) (a b : List α) : Prop where
  split : l = a ++ x :: b
  other : forall y, y ∈ a ++ b -> key y ≠ key x

section Move

variable {key : α -> κ} {l a b : List α} {x : α} {n : Nat}

omit [DecidableEq κ] in
theorem exists_around (hkeys : (l.map key).Nodup) (hmem : x ∈ l) :
    exists a b, Around key l x a b := by
  rcases List.append_of_mem hmem with ⟨a, b, hsplit⟩
  refine ⟨a, b, hsplit, ?_⟩
  intro y hy heq
  rw [hsplit, (List.perm_middle.map key).nodup_iff, List.map_cons,
    List.nodup_cons] at hkeys
  apply hkeys.1
  rw [← heq]
  exact List.mem_map_of_mem hy

theorem Around.eraseP (h : Around key l x a b) :
    l.eraseP (fun y => key y = key x) = a ++ b := by
  rw [h.split, List.eraseP_append_right, List.eraseP_cons_of_pos]
  · exact decide_eq_true rfl
  · intro y hy hsame
    exact h.other y (List.mem_append_left b hy) (of_decide_eq_true hsame)

/-- The position at which the element is placed. -/
theorem Around.place_eq (h : Around key l x a b) (n : Nat) :
    place key l (n, x) = (a ++ b).take (min n (a ++ b).length) ++
      x :: (a ++ b).drop (min n (a ++ b).length) := by
  unfold place
  dsimp only
  rw [h.eraseP]
  by_cases hlong : n ≥ (a ++ b).length
  · rw [if_pos hlong, Nat.min_eq_right hlong, List.take_length,
      List.drop_length]
  · rw [if_neg hlong, Nat.min_eq_left (Nat.le_of_not_le hlong),
      insertIdx_eq_take_append (Nat.le_of_not_le hlong)]

theorem place_perm (hkeys : (l.map key).Nodup) (hmem : x ∈ l) :
    (place key l (n, x)).Perm l := by
  rcases exists_around hkeys hmem with ⟨a, b, h⟩
  rw [h.place_eq, h.split]
  refine List.perm_middle.trans ?_
  rw [List.take_append_drop]
  exact List.perm_middle.symm

/-- The order of the others does not change. -/
theorem filter_place (hkeys : (l.map key).Nodup) (hmem : x ∈ l)
    {p : α -> Bool} (hp : p x = false) :
    (place key l (n, x)).filter p = l.filter p := by
  rcases exists_around hkeys hmem with ⟨a, b, h⟩
  have hnot : ¬ p x = true := by
    rw [hp]
    exact Bool.false_ne_true
  rw [h.place_eq, List.filter_append, List.filter_cons_of_neg hnot,
    ← List.filter_append, List.take_append_drop, h.split, List.filter_append,
    List.filter_append, List.filter_cons_of_neg hnot]

end Move

/-!
## Images of lists
-/

section Images

variable {β : Type} (f : β -> α) (key : α -> κ)

theorem map_place (l : List β) (move : Nat × β) :
    (place (fun y => key (f y)) l move).map f =
      place key (l.map f) (move.1, f move.2) := by
  have herase : (l.map f).eraseP (fun y => key y = key (f move.2)) =
      (l.eraseP (fun y => key (f y) = key (f move.2))).map f :=
    List.eraseP_map
  unfold place
  dsimp only
  rw [herase, List.length_map]
  split
  · rw [List.map_append, List.map_singleton]
  · rw [List.map_insertIdx]

theorem map_placeAll (l : List β) (moves : List (Nat × β)) :
    (placeAll (fun y => key (f y)) l moves).map f =
      placeAll key (l.map f) (moves.map (fun move => (move.1, f move.2))) := by
  induction moves generalizing l with
  | nil => rfl
  | cons move rest ih =>
      change (placeAll (fun y => key (f y))
        (place (fun y => key (f y)) l move) rest).map f = _
      rw [ih, map_place]
      rfl

end Images

/-!
## Moves to increasing positions
-/

/-- The elements that have been moved, in the order of their positions. -/
structure Placed (key : α -> κ) (moves : List (Nat × α)) (l : List α) :
    Prop where
  inFront : forall move, move ∈ moves -> move.2 ∈ l.take (move.1 + 1)
  inOrder : l.filter (fun y => key y ∈ moves.map (fun move => key move.2)) =
    moves.map Prod.snd

section Moves

variable {key : α -> κ} {l : List α} {moves : List (Nat × α)} {x : α} {n : Nat}

omit [DecidableEq κ] in
theorem Around.mem_take {a b : List α} {y : α} {m : Nat}
    (h : Around key l x a b) (hne : y ≠ x) (hy : y ∈ l.take m) :
    y ∈ (a ++ b).take m := by
  rw [h.split, List.take_append] at hy
  rw [List.take_append]
  rcases List.mem_append.mp hy with hfront | hback
  · exact List.mem_append_left _ hfront
  · apply List.mem_append_right
    cases hrest : m - a.length with
    | zero =>
        rw [hrest] at hback
        cases hback
    | succ k =>
        rw [hrest, List.take_succ_cons] at hback
        rcases List.mem_cons.mp hback with heq | hin
        · exact absurd heq hne
        · exact (List.take_subset_take_left b (Nat.le_succ k)) hin

theorem take_take_min {m : Nat} (h : m ≤ n) (l : List α) :
    (l.take (min n l.length)).take m = l.take m := by
  rw [List.take_take, List.take_eq_take_iff]
  omega

/-- A later move leaves the elements in front of it where they are. -/
theorem Placed.place (h : Placed key moves l) (hkeys : (l.map key).Nodup)
    (hmem : x ∈ l) (hnew : key x ∉ moves.map (fun move => key move.2))
    (hbefore : forall move, move ∈ moves -> move.1 < n) :
    Placed key (moves ++ [(n, x)]) (place key l (n, x)) := by
  rcases exists_around hkeys hmem with ⟨a, b, haround⟩
  have hmoved : forall move, move ∈ moves ->
      move.2 ∈ (a ++ b).take (move.1 + 1) := by
    intro move hmove
    apply haround.mem_take _ (h.inFront move hmove)
    intro heq
    apply hnew
    rw [← heq]
    exact List.mem_map_of_mem hmove
  constructor
  · intro move hmove
    rw [haround.place_eq, List.take_append]
    rcases List.mem_append.mp hmove with hold | hlast
    · apply List.mem_append_left
      rw [take_take_min (hbefore move hold)]
      exact hmoved move hold
    · rw [List.mem_singleton.mp hlast]
      apply List.mem_append_right
      have hlen : ((a ++ b).take (min n (a ++ b).length)).length ≤ n := by
        rw [List.length_take]
        omega
      dsimp only
      rw [Nat.succ_sub hlen, List.take_succ_cons]
      exact List.mem_cons_self
  · -- what has been moved is before the position, so nothing is behind it
    have hsame : forall y, y ∈ a ++ b ->
        decide (key y ∈ (moves ++ [(n, x)]).map (fun move => key move.2)) =
          decide (key y ∈ moves.map (fun move => key move.2)) := by
      intro y hy
      rw [decide_eq_decide, List.map_append, List.mem_append]
      constructor
      · intro hor
        rcases hor with hold | hlast
        · exact hold
        · exact absurd (List.mem_singleton.mp hlast) (haround.other y hy)
      · exact Or.inl
    have hsplit := h.inOrder
    rw [haround.split, List.filter_append, List.filter_cons_of_neg
      (by simpa using hnew), ← List.filter_append] at hsplit
    have hnodup : (a ++ b).Nodup := by
      rw [haround.split, (List.perm_middle.map key).nodup_iff, List.map_cons,
        List.nodup_cons] at hkeys
      exact List.Nodup.of_map key hkeys.2
    have hbehind : ((a ++ b).drop (min n (a ++ b).length)).filter
        (fun y => key y ∈ moves.map (fun move => key move.2)) = [] := by
      rw [List.filter_eq_nil_iff]
      intro y hy hkey
      have hlisted : y ∈ moves.map Prod.snd := by
        rw [← hsplit]
        exact List.mem_filter.mpr ⟨List.mem_of_mem_drop hy, hkey⟩
      rcases List.mem_map.mp hlisted with ⟨move, hmove, rfl⟩
      have hfront := hmoved move hmove
      rw [← take_take_min (hbefore move hmove)] at hfront
      rw [← List.take_append_drop (min n (a ++ b).length) (a ++ b),
        List.nodup_append] at hnodup
      exact hnodup.2.2 _ (List.mem_of_mem_take hfront) _ hy rfl
    have hfront := hsplit
    rw [← List.take_append_drop (min n (a ++ b).length) (a ++ b),
      List.filter_append, hbehind, List.append_nil] at hfront
    rw [haround.place_eq, List.filter_append, List.filter_cons_of_pos
      (by simp),
      List.filter_congr (fun y hy => hsame y (List.mem_of_mem_take hy)),
      List.filter_congr (fun y hy => hsame y (List.mem_of_mem_drop hy)),
      hbehind, hfront, List.map_append]
    rfl

theorem placeAll_perm (hkeys : (l.map key).Nodup)
    (hmem : forall move, move ∈ moves -> move.2 ∈ l) :
    (placeAll key l moves).Perm l := by
  induction moves generalizing l with
  | nil => exact List.Perm.refl l
  | cons move rest ih =>
      have hmove : (Placement.place key l move).Perm l :=
        place_perm hkeys (hmem move List.mem_cons_self)
      apply List.Perm.trans _ hmove
      apply ih
      · exact (hmove.map key).nodup_iff.mpr hkeys
      · intro other hin
        exact hmove.mem_iff.mpr (hmem other (List.mem_cons_of_mem move hin))

theorem filter_placeAll (hkeys : (l.map key).Nodup)
    (hmem : forall move, move ∈ moves -> move.2 ∈ l) {p : α -> Bool}
    (hp : forall move, move ∈ moves -> p move.2 = false) :
    (placeAll key l moves).filter p = l.filter p := by
  induction moves generalizing l with
  | nil => rfl
  | cons move rest ih =>
      have hmove : (Placement.place key l move).Perm l :=
        place_perm hkeys (hmem move List.mem_cons_self)
      have hrest := ih ((hmove.map key).nodup_iff.mpr hkeys)
        (fun other hin =>
          hmove.mem_iff.mpr (hmem other (List.mem_cons_of_mem move hin)))
        (fun other hin => hp other (List.mem_cons_of_mem move hin))
      change (placeAll key (Placement.place key l move) rest).filter p = _
      rw [hrest]
      exact filter_place hkeys (hmem move List.mem_cons_self)
        (hp move List.mem_cons_self)

/-- Moves to increasing positions come after those that were made before. -/
theorem Placed.placeAll {todo : List (Nat × α)} (h : Placed key moves l)
    (hkeys : (l.map key).Nodup) (hmem : forall move, move ∈ todo -> move.2 ∈ l)
    (hsorted : (moves ++ todo).Pairwise (fun a b => a.1 < b.1))
    (hdistinct : ((moves ++ todo).map (fun move => key move.2)).Nodup) :
    Placed key (moves ++ todo) (placeAll key l todo) := by
  induction todo generalizing l moves with
  | nil =>
      rw [List.append_nil]
      exact h
  | cons move rest ih =>
      have hfirst := hmem move List.mem_cons_self
      have hmove : (Placement.place key l move).Perm l :=
        place_perm hkeys hfirst
      have hplaced : Placed key (moves ++ [move])
          (Placement.place key l move) := by
        apply h.place hkeys hfirst
        · rw [List.map_append, List.nodup_append] at hdistinct
          intro hin
          exact hdistinct.2.2 _ hin _ List.mem_cons_self rfl
        · intro other hin
          exact (List.pairwise_append.mp hsorted).2.2 other hin move
            List.mem_cons_self
      rw [List.append_cons] at hsorted hdistinct ⊢
      apply ih hplaced ((hmove.map key).nodup_iff.mpr hkeys) _ hsorted
        hdistinct
      intro other hin
      exact hmove.mem_iff.mpr (hmem other (List.mem_cons_of_mem move hin))

/-- The elements that are moved end up in the order of their positions. -/
theorem filter_placeAll_moved (hkeys : (l.map key).Nodup)
    (hmem : forall move, move ∈ moves -> move.2 ∈ l)
    (hsorted : moves.Pairwise (fun a b => a.1 < b.1))
    (hdistinct : (moves.map (fun move => key move.2)).Nodup) :
    (placeAll key l moves).filter
        (fun y => key y ∈ moves.map (fun move => key move.2)) =
      moves.map Prod.snd := by
  have hnone : Placed key [] l := by
    constructor
    · intro move hin
      cases hin
    · change _ = []
      rw [List.filter_eq_nil_iff]
      intro y _ hin
      cases of_decide_eq_true hin
  exact (hnone.placeAll hkeys hmem hsorted hdistinct).inOrder

end Moves

end Placement
end Lib
end Dbn
