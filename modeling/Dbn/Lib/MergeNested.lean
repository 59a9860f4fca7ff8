import Dbn.Lib.Merge
import Mathlib.Order.Monotone.Basic

/-!
# Merges of merges

Streams may be merged in groups, and the results then merged with each other.
As ties go to the first stream, and the streams of a group are next to each
other, this is the merge of all the streams.
-/

namespace Dbn
namespace Lib

variable {ι ι' κ α β : Type} [LinearOrder ι] [LinearOrder ι'] [LinearOrder κ]

namespace Merges

variable {key : α -> κ}

theorem eq_nil {streams : ι -> List α} {out : List (ι × α)}
    (h : Merges key streams out) (empty : forall i, streams i = []) :
    out = [] := by
  cases h with
  | done _ => rfl
  | pick head _ _ =>
      rw [empty] at head
      cases head

/-- The elements may be seen as others with the same keys. -/
theorem map {streams : ι -> List β} {out : List (ι × β)} {f : β -> α}
    (h : Merges (fun b => key (f b)) streams out) :
    Merges key (fun i => (streams i).map f)
      (out.map (fun e => (e.1, f e.2))) := by
  induction h with
  | done empty =>
      apply Merges.done
      intro i
      rw [empty i]
      rfl
  | @pick streams i x rest out head leads _ ih =>
      have hhead : (streams i).map f = f x :: rest.map f := by
        rw [head, List.map_cons]
      rw [List.map_cons]
      refine Merges.pick hhead ?_ ?_
      · intro j y tail hj
        rcases List.map_eq_cons_iff.mp hj with ⟨z, zs, hz, rfl, _⟩
        exact leads j z zs hz
      · have hupdate : Function.update (fun i => (streams i).map f) i
            (rest.map f) =
            fun j => (Function.update streams i rest j).map f := by
          funext j
          by_cases hij : j = i
          · rw [hij, Function.update_self, Function.update_self]
          · rw [Function.update_of_ne hij, Function.update_of_ne hij]
        rw [hupdate]
        exact ih

/-- The streams may be named otherwise, if their order is kept. -/
theorem relabel {S : Set ι} {f : ι -> ι'} (hf : StrictMonoOn f S)
    {streams : ι -> List α} {streams' : ι' -> List α} {out : List (ι × α)}
    (h : Merges key streams out)
    (hsame : forall i, i ∈ S -> streams' (f i) = streams i)
    (hin : forall i, streams i ≠ [] -> i ∈ S)
    (hin' : forall k, streams' k ≠ [] -> exists i, i ∈ S ∧ f i = k) :
    Merges key streams' (out.map (fun e => (f e.1, e.2))) := by
  induction h generalizing streams' with
  | done empty =>
      apply Merges.done
      intro k
      by_contra hk
      rcases hin' k hk with ⟨i, hi, rfl⟩
      rw [hsame i hi] at hk
      exact hk (empty i)
  | @pick streams i x rest out head leads _ ih =>
      have hi : i ∈ S := by
        apply hin
        rw [head]
        exact List.cons_ne_nil _ _
      rw [List.map_cons]
      refine Merges.pick ((hsame i hi).trans head) ?_ ?_
      · intro k y tail hk
        have hne : streams' k ≠ [] := by
          rw [hk]
          exact List.cons_ne_nil _ _
        rcases hin' k hne with ⟨j, hj, rfl⟩
        rw [hsame j hj] at hk
        have hrank := leads j y tail hk
        unfold rank at hrank ⊢
        rw [Prod.Lex.toLex_le_toLex'] at hrank ⊢
        exact ⟨hrank.1, fun hkey => hf.monotoneOn hi hj (hrank.2 hkey)⟩
      · apply ih
        · intro j hj
          by_cases hij : j = i
          · rw [hij, Function.update_self, Function.update_self]
          · have hne : f j ≠ f i := fun heq => hij (hf.injOn hj hi heq)
            rw [Function.update_of_ne hij, Function.update_of_ne hne]
            exact hsame j hj
        · intro j hj
          by_cases hij : j = i
          · rwa [hij]
          · rw [Function.update_of_ne hij] at hj
            exact hin j hj
        · intro k hk
          by_cases hik : k = f i
          · exact ⟨i, hi, hik.symm⟩
          · rw [Function.update_of_ne hik] at hk
            exact hin' k hk

/-!
## Groups
-/

/-- The streams of all groups. -/
def ungroup (streams : ι -> ι' -> List α) (p : Lex (ι × ι')) : List α :=
  streams (ofLex p).1 (ofLex p).2

theorem ungroup_update (streams : ι -> ι' -> List α) (i : ι) (j : ι')
    (rest : List α) :
    ungroup (Function.update streams i
        (Function.update (streams i) j rest)) =
      Function.update (ungroup streams) (toLex (i, j)) rest := by
  funext p
  unfold ungroup
  by_cases hi : (ofLex p).1 = i
  · rw [hi, Function.update_self]
    by_cases hj : (ofLex p).2 = j
    · have hp : p = toLex (i, j) := by
        rw [← hi, ← hj]
        rfl
      rw [hj, Function.update_self, hp, Function.update_self]
    · have hp : p ≠ toLex (i, j) := by
        intro heq
        apply hj
        rw [heq]
        rfl
      rw [Function.update_of_ne hj, Function.update_of_ne hp, hi]
  · have hp : p ≠ toLex (i, j) := by
      intro heq
      apply hi
      rw [heq]
      rfl
    rw [Function.update_of_ne hi, Function.update_of_ne hp]

/-- The first element of a merge leads its streams. -/
theorem leads_head {streams : ι -> List α} {out : List (ι × α)}
    (h : Merges key streams out) {i : ι} {x : α} {rest : List α}
    (hi : streams i = x :: rest) : exists j y tail, out = (j, y) :: tail ∧
      rank key j y ≤ rank key i x := by
  cases h with
  | done empty =>
      rw [empty] at hi
      cases hi
  | pick head leads tail => exact ⟨_, _, _, rfl, leads _ _ _ hi⟩

/-- An element that leads the groups and its group leads all streams. -/
theorem leads_ungroup {streams : ι -> ι' -> List α}
    {merged : ι -> List (ι' × α)}
    (hmerged : forall i, Merges key (streams i) (merged i)) {i : ι} {j : ι'}
    {x : α} {rest : List (ι' × α)} (head : merged i = (j, x) :: rest)
    (leads : Leads (fun e => key e.2) merged i (j, x)) :
    Leads key (ungroup streams) (toLex (i, j)) x := by
  intro p y tail hp
  rcases (hmerged (ofLex p).1).leads_head hp with ⟨j', z, tail', hz, hrank⟩
  have hleads := leads _ _ _ hz
  unfold rank at hrank hleads ⊢
  rw [Prod.Lex.toLex_le_toLex'] at hrank hleads ⊢
  dsimp only at hrank hleads ⊢
  refine ⟨le_trans hleads.1 hrank.1, ?_⟩
  intro hkey
  have hxz : key x = key z :=
    le_antisymm hleads.1 (hkey ▸ hrank.1)
  have hzy : key z = key y := hxz.symm.trans hkey
  have hp' : p = toLex ((ofLex p).1, (ofLex p).2) := rfl
  rw [hp', Prod.Lex.toLex_le_toLex']
  refine ⟨hleads.2 hxz, ?_⟩
  intro hi
  dsimp only at hi
  rw [← hi, head] at hz
  cases hz
  exact hrank.2 hzy

/-- A merge of the merges of groups is the merge of all streams. -/
theorem ungroup_merges {streams : ι -> ι' -> List α}
    {merged : ι -> List (ι' × α)} {out : List (ι × ι' × α)}
    (hmerged : forall i, Merges key (streams i) (merged i))
    (h : Merges (fun e => key e.2) merged out) :
    Merges key (ungroup streams)
      (out.map (fun e => (toLex (e.1, e.2.1), e.2.2))) := by
  induction h generalizing streams with
  | done empty =>
      apply Merges.done
      intro p
      have hp := hmerged (ofLex p).1
      rw [empty] at hp
      cases hp with
      | done empty' => exact empty' _
  | @pick merged i x rest out head leads _ ih =>
      rcases x with ⟨j, x⟩
      have hi := hmerged i
      rw [head] at hi
      cases hi with
      | @pick _ _ _ rest' _ head' _ tail' =>
          have hhead : ungroup streams (toLex (i, j)) = x :: rest' := head'
          rw [List.map_cons]
          refine Merges.pick hhead (leads_ungroup hmerged head leads) ?_
          rw [← ungroup_update]
          apply ih
          intro i'
          by_cases hi' : i' = i
          · rw [hi', Function.update_self, Function.update_self]
            exact tail'
          · rw [Function.update_of_ne hi', Function.update_of_ne hi']
            exact hmerged i'

end Merges

/-!
## Lists of groups
-/

section Lists

variable {as : List (List α)}

/-- Where the elements of a group begin. -/
def offsetOf (as : List (List α)) (i : Nat) : Nat :=
  (as.take i).flatten.length

theorem offsetOf_succ {i : Nat} (hi : i < as.length) :
    offsetOf as (i + 1) = offsetOf as i + as[i].length := by
  unfold offsetOf
  rw [List.take_succ_eq_append_getElem hi, List.flatten_append,
    List.flatten_singleton, List.length_append]

theorem offsetOf_mono (as : List (List α)) {i j : Nat} (h : i ≤ j) :
    offsetOf as i ≤ offsetOf as j := by
  unfold offsetOf
  rw [← Nat.min_eq_left h, ← List.take_take]
  exact ((List.take_prefix _ _).flatten).length_le

theorem getElem?_flatten {i j : Nat} {a : List α} (hi : as[i]? = some a)
    (hj : j < a.length) : as.flatten[offsetOf as i + j]? = a[j]? := by
  rcases List.getElem?_eq_some_iff.mp hi with ⟨hlt, rfl⟩
  have hsplit : as.flatten =
      (as.take i).flatten ++ (as[i] ++ (as.drop (i + 1)).flatten) := by
    rw [← List.flatten_cons, List.getElem_cons_drop, ← List.flatten_append,
      List.take_append_drop]
  rw [hsplit]
  unfold offsetOf
  rw [List.getElem?_append_right (Nat.le_add_right _ _),
    Nat.add_sub_cancel_left, List.getElem?_append_left hj]

/-- Every element of a list of groups is in one of them. -/
theorem exists_offsetOf {k : Nat} (hk : k < as.flatten.length) :
    exists i j a, as[i]? = some a ∧ j < a.length ∧ offsetOf as i + j = k := by
  induction as generalizing k with
  | nil => cases hk
  | cons a as ih =>
      by_cases hlt : k < a.length
      · exact ⟨0, k, a, rfl, hlt, Nat.zero_add k⟩
      · rw [List.flatten_cons, List.length_append] at hk
        rcases ih (k := k - a.length) (by omega) with ⟨i, j, b, hi, hj, heq⟩
        refine ⟨i + 1, j, b, hi, hj, ?_⟩
        unfold offsetOf at heq ⊢
        rw [List.take_succ_cons, List.flatten_cons, List.length_append]
        omega

end Lists

end Lib
end Dbn
