import Mathlib.Data.List.Sort
import Mathlib.Tactic.Common

/-!
# Priority queues

A queue that hands out a least element first.  `PriorityQueue` lists the
operations and `LawfulPriorityQueue` the documented behaviour of
`BinaryHeap<Reverse<T>>`: which of several least elements comes first is left
open.  `SortedQueue` is a queue on which definitions can be evaluated.
-/

namespace Dbn
namespace Lib

/-- The operations of a priority queue. -/
class PriorityQueue (Q : Type) (α : outParam Type) where
  empty : Q
  push : Q -> α -> Q
  peek : Q -> Option α
  pop : Q -> Option (α × Q)
  /-- The elements in an arbitrary order. -/
  toList : Q -> List α

open PriorityQueue

/-- The documented behaviour of a priority queue. -/
class LawfulPriorityQueue (Q : Type) (α : outParam Type) [LE α]
    [PriorityQueue Q α] : Prop where
  toList_empty : toList (empty : Q) = []
  toList_push (q : Q) (x : α) : (toList (push q x)).Perm (x :: toList q)
  peek_eq (q : Q) : peek q = (pop q).map Prod.fst
  pop_eq_none (q : Q) : pop q = none <-> toList q = []
  pop_perm {q q' : Q} {x : α} :
    pop q = some (x, q') -> (toList q).Perm (x :: toList q')
  pop_le {q q' : Q} {x y : α} :
    pop q = some (x, q') -> y ∈ toList q -> x ≤ y

namespace PriorityQueue

/-- Take out an element without looking at it. -/
def dropMin {Q α : Type} [PriorityQueue Q α] (q : Q) : Q :=
  match pop q with
  | none => q
  | some (_, rest) => rest

variable {Q α : Type} [LE α] [PriorityQueue Q α] [LawfulPriorityQueue Q α]
  {q q' : Q} {x y : α}

/-- Collecting a list of elements. -/
theorem toList_foldl_push (xs : List α) (q : Q) :
    (toList (xs.foldl push q)).Perm (xs ++ toList q) := by
  induction xs generalizing q with
  | nil => exact List.Perm.refl _
  | cons x xs ih =>
      have hpush := LawfulPriorityQueue.toList_push q x
      exact (ih (push q x)).trans
        ((hpush.append_left xs).trans List.perm_middle)

theorem mem_push : y ∈ toList (push q x) <-> y = x ∨ y ∈ toList q := by
  rw [(LawfulPriorityQueue.toList_push q x).mem_iff]
  exact List.mem_cons

/-- What is seen first is what is taken out first. -/
theorem pop_of_peek (h : peek q = some x) : exists q', pop q = some (x, q') := by
  rw [LawfulPriorityQueue.peek_eq] at h
  rcases Option.map_eq_some_iff.mp h with ⟨⟨x', q'⟩, hpop, hx⟩
  cases hx
  exact ⟨q', hpop⟩

theorem peek_of_pop (h : pop q = some (x, q')) : peek q = some x := by
  rw [LawfulPriorityQueue.peek_eq, h]
  rfl

omit [LE α] [LawfulPriorityQueue Q α] in
theorem dropMin_of_pop (h : pop q = some (x, q')) : dropMin q = q' := by
  unfold dropMin
  rw [h]

theorem peek_eq_none : peek q = none <-> toList q = [] := by
  rw [LawfulPriorityQueue.peek_eq, Option.map_eq_none_iff]
  exact LawfulPriorityQueue.pop_eq_none q

theorem mem_of_peek (h : peek q = some x) : x ∈ toList q := by
  rcases pop_of_peek h with ⟨q', hpop⟩
  rw [(LawfulPriorityQueue.pop_perm hpop).mem_iff]
  exact List.mem_cons_self

theorem peek_le (h : peek q = some x) (hy : y ∈ toList q) : x ≤ y := by
  rcases pop_of_peek h with ⟨q', hpop⟩
  exact LawfulPriorityQueue.pop_le hpop hy

/-!
## Elements with distinct keys
-/

/-- Taking an element out removes all that has its key. -/
theorem mem_pop {κ : Type} {key : α -> κ}
    (hnodup : ((toList q).map key).Nodup) (h : pop q = some (x, q')) :
    y ∈ toList q' <-> y ∈ toList q ∧ key y ≠ key x := by
  have hperm := LawfulPriorityQueue.pop_perm h
  have hkeys := (hperm.map key).nodup_iff.mp hnodup
  rw [List.map_cons, List.nodup_cons] at hkeys
  rw [hperm.mem_iff, List.mem_cons]
  constructor
  · intro hy
    refine ⟨Or.inr hy, ?_⟩
    intro heq
    exact hkeys.1 (heq ▸ List.mem_map_of_mem hy)
  · intro hy
    rcases hy.1 with heq | hmem
    · exact absurd (congrArg key heq) hy.2
    · exact hmem

theorem nodup_pop {κ : Type} {key : α -> κ}
    (hnodup : ((toList q).map key).Nodup) (h : pop q = some (x, q')) :
    ((toList q').map key).Nodup := by
  have hkeys := ((LawfulPriorityQueue.pop_perm h).map key).nodup_iff.mp hnodup
  rw [List.map_cons, List.nodup_cons] at hkeys
  exact hkeys.2

theorem nodup_push {κ : Type} {key : α -> κ}
    (hnodup : ((toList q).map key).Nodup)
    (hfresh : forall y, y ∈ toList q -> key y ≠ key x) :
    ((toList (push q x)).map key).Nodup := by
  rw [((LawfulPriorityQueue.toList_push q x).map key).nodup_iff,
    List.map_cons, List.nodup_cons]
  refine ⟨?_, hnodup⟩
  intro hmem
  rcases List.mem_map.mp hmem with ⟨y, hy, heq⟩
  exact hfresh y hy heq

end PriorityQueue

/-!
## A concrete queue
-/

/-- A queue that keeps its elements sorted. -/
structure SortedQueue (α : Type) [LE α] where
  elems : List α
  sorted : elems.Pairwise (fun a b => a ≤ b)

namespace SortedQueue

variable {α : Type} [LE α] [DecidableLE α]
  [Std.Total (fun a b : α => a ≤ b)] [IsTrans α (fun a b => a ≤ b)]

instance : PriorityQueue (SortedQueue α) α where
  empty := ⟨[], List.Pairwise.nil⟩
  push q x := ⟨q.elems.orderedInsert (fun a b => a ≤ b) x,
    q.sorted.orderedInsert x _⟩
  peek q := q.elems.head?
  pop q :=
    match q with
    | ⟨[], _⟩ => none
    | ⟨x :: rest, h⟩ => some (x, ⟨rest, (List.pairwise_cons.mp h).2⟩)
  toList := elems

instance : LawfulPriorityQueue (SortedQueue α) α where
  toList_empty := rfl
  toList_push q x := List.perm_orderedInsert _ x q.elems
  peek_eq q := by
    rcases q with ⟨elems, h⟩
    cases elems <;> rfl
  pop_eq_none q := by
    rcases q with ⟨elems, h⟩
    cases elems with
    | nil => exact ⟨fun _ => rfl, fun _ => rfl⟩
    | cons x rest =>
        constructor
        · intro hpop
          cases hpop
        · intro hnil
          cases hnil
  pop_perm {q q' x} hpop := by
    rcases q with ⟨elems, h⟩
    cases elems with
    | nil => cases hpop
    | cons y rest =>
        cases hpop
        exact List.Perm.refl _
  pop_le {q q' x y} hpop hy := by
    rcases q with ⟨elems, h⟩
    cases elems with
    | nil => cases hpop
    | cons z rest =>
        cases hpop
        rcases List.mem_cons.mp hy with heq | hmem
        · rw [heq]
          exact (Std.Total.total (r := fun a b : α => a ≤ b) x x).elim id id
        · exact (List.pairwise_cons.mp h).1 y hmem

end SortedQueue

end Lib
end Dbn
