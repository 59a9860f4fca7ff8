import Mathlib.Algebra.Order.BigOperators.Group.Finset
import Mathlib.Data.Finset.Max
import Mathlib.Data.Prod.Lex
import Mathlib.Logic.Function.Basic
import Mathlib.Tactic.Common

/-!
# Merging streams

The merge of a family of finite streams always takes the first element of a
stream whose key is least, and of the first such stream.  Elements keep the
index of the stream they come from.
-/

namespace Dbn
namespace Lib

variable {ι κ α : Type} [LinearOrder ι] [LinearOrder κ]

/-- The position of an element in the order of a merge. -/
def rank (key : α -> κ) (i : ι) (x : α) : Lex (κ × ι) :=
  toLex (key x, i)

/-- The first elements of the other streams do not come before this one. -/
def Leads (key : α -> κ) (streams : ι -> List α) (i : ι) (x : α) : Prop :=
  forall j y rest, streams j = y :: rest -> rank key i x ≤ rank key j y

/-- The merge of a family of streams. -/
inductive Merges (key : α -> κ) :
    (ι -> List α) -> List (ι × α) -> Prop where
  | done {streams : ι -> List α} (empty : forall i, streams i = []) :
      Merges key streams []
  | pick {streams : ι -> List α} {i : ι} {x : α} {rest : List α}
      {out : List (ι × α)} (head : streams i = x :: rest)
      (leads : Leads key streams i x)
      (tail : Merges key (Function.update streams i rest) out) :
      Merges key streams ((i, x) :: out)

namespace Merges

variable {key : α -> κ} {streams : ι -> List α} {out out' : List (ι × α)}

/-- Every stream is returned in its own order. -/
theorem filter_eq (h : Merges key streams out) (i : ι) :
    (out.filter (fun e => e.1 = i)).map Prod.snd = streams i := by
  induction h with
  | done empty =>
      rw [empty]
      rfl
  | @pick streams j x rest out head _ _ ih =>
      by_cases hij : j = i
      · cases hij
        rw [Function.update_self] at ih
        rw [List.filter_cons_of_pos (by simp), List.map_cons, ih, head]
      · rw [Function.update_of_ne (Ne.symm hij)] at ih
        rw [List.filter_cons_of_neg (by simpa using hij), ih]

/-- Only elements of the streams are returned. -/
theorem mem_stream (h : Merges key streams out) {e : ι × α} (he : e ∈ out) :
    e.2 ∈ streams e.1 := by
  rw [← h.filter_eq e.1, List.mem_map]
  exact ⟨e, List.mem_filter.mpr ⟨he, by simp⟩, rfl⟩

/-- A stream that has not ended is met again. -/
theorem exists_mem_iff (h : Merges key streams out) {i : ι} :
    (exists e, e ∈ out ∧ e.1 = i) <-> streams i ≠ [] := by
  rw [← h.filter_eq i, ne_eq, List.map_eq_nil_iff, List.filter_eq_nil_iff]
  push Not
  simp only [decide_eq_true_eq]

/-- A leading element comes before all elements of sorted streams. -/
theorem rank_le_of_leads
    (hsorted : forall i, (streams i).Pairwise (fun a b => key a ≤ key b))
    {i : ι} {x : α} (hleads : Leads key streams i x) {j : ι} {y : α}
    (hy : y ∈ streams j) : rank key i x ≤ rank key j y := by
  cases hstream : streams j with
  | nil =>
      rw [hstream] at hy
      cases hy
  | cons z rest =>
      have hz := hleads j z rest hstream
      have hsort := hsorted j
      rw [hstream] at hy hsort
      rcases List.mem_cons.mp hy with heq | hmem
      · rw [heq]
        exact hz
      · have hkey : rank key j z ≤ rank key j y := by
          unfold rank
          rw [Prod.Lex.toLex_le_toLex']
          exact ⟨(List.pairwise_cons.mp hsort).1 y hmem, fun _ => le_refl j⟩
        exact le_trans hz hkey

theorem sorted_update
    (hsorted : forall i, (streams i).Pairwise (fun a b => key a ≤ key b))
    {i : ι} {x : α} {rest : List α} (head : streams i = x :: rest) (j : ι) :
    (Function.update streams i rest j).Pairwise
      (fun a b => key a ≤ key b) := by
  by_cases hij : j = i
  · have hsort := hsorted i
    rw [head] at hsort
    rw [hij, Function.update_self]
    exact (List.pairwise_cons.mp hsort).2
  · rw [Function.update_of_ne hij]
    exact hsorted j

/-- The merge of sorted streams is sorted, by the key and then the index. -/
theorem pairwise (h : Merges key streams out)
    (hsorted : forall i, (streams i).Pairwise (fun a b => key a ≤ key b)) :
    out.Pairwise (fun a b => rank key a.1 a.2 ≤ rank key b.1 b.2) := by
  induction h with
  | done _ => exact List.Pairwise.nil
  | @pick streams i x rest out head leads tail ih =>
      refine List.pairwise_cons.mpr ⟨?_, ih (sorted_update hsorted head)⟩
      intro e he
      have hmem := tail.mem_stream he
      apply rank_le_of_leads hsorted leads
      by_cases hij : e.1 = i
      · rw [hij, Function.update_self] at hmem
        rw [hij, head]
        exact List.mem_cons_of_mem x hmem
      · rwa [Function.update_of_ne hij] at hmem

/-- Two leading elements are the same. -/
theorem leads_unique {i j : ι} {x y : α} {rest rest' : List α}
    (hi : streams i = x :: rest) (hx : Leads key streams i x)
    (hj : streams j = y :: rest') (hy : Leads key streams j y) :
    i = j ∧ x = y ∧ rest = rest' := by
  have hrank := le_antisymm (hx j y rest' hj) (hy i x rest hi)
  have hij : i = j := congrArg (fun r => (ofLex r).2) hrank
  rw [← hij, hi] at hj
  cases hj
  exact ⟨hij, rfl, rfl⟩

/-- Some stream of a finite family leads, unless all have ended. -/
theorem exists_leads (key : α -> κ) (s : Finset ι)
    (hs : forall i, i ∉ s -> streams i = [])
    (hne : exists i, streams i ≠ []) :
    exists i x rest, streams i = x :: rest ∧ Leads key streams i x := by
  classical
  -- the streams that have not ended, by the ranks of their first elements
  let live := s.filter (fun i => streams i ≠ [])
  have hmem : forall i, i ∈ live <-> streams i ≠ [] := by
    intro i
    rw [Finset.mem_filter]
    constructor
    · exact And.right
    · intro hi
      refine ⟨?_, hi⟩
      by_contra hnot
      exact hi (hs i hnot)
  have hlive : live.attach.Nonempty := by
    rcases hne with ⟨i, hi⟩
    exact ⟨⟨i, (hmem i).mpr hi⟩, Finset.mem_attach _ _⟩
  rcases Finset.exists_min_image live.attach
    (fun i => rank key i.1 ((streams i.1).head ((hmem i.1).mp i.2)))
    hlive with ⟨⟨i, hi⟩, _, hmin⟩
  have hi' := (hmem i).mp hi
  refine ⟨i, (streams i).head hi', (streams i).tail,
    (List.cons_head_tail hi').symm, ?_⟩
  intro j y rest hj
  have hj' : streams j ≠ [] := by
    rw [hj]
    exact List.cons_ne_nil y rest
  have hle := hmin ⟨j, (hmem j).mpr hj'⟩ (Finset.mem_attach _ _)
  simp only [hj, List.head_cons] at hle
  exact hle

/-- The number of elements of a finite family. -/
def size (s : Finset ι) (streams : ι -> List α) : Nat :=
  s.sum (fun i => (streams i).length)

theorem size_update {s : Finset ι} {i : ι} {x : α} {rest : List α}
    (hi : i ∈ s) (head : streams i = x :: rest) :
    size s (Function.update streams i rest) < size s streams := by
  refine Finset.sum_lt_sum ?_ ⟨i, hi, ?_⟩
  · intro j _
    by_cases hij : j = i
    · rw [hij, Function.update_self, head]
      exact Nat.le_succ _
    · rw [Function.update_of_ne hij]
  · rw [Function.update_self, head]
    exact Nat.lt_succ_self _

/-- Every finite family of streams has a merge. -/
theorem exists_merge (key : α -> κ) (s : Finset ι)
    (hs : forall i, i ∉ s -> streams i = []) :
    exists out, Merges key streams out := by
  induction hn : size s streams using Nat.strong_induction_on
    generalizing streams with
  | _ n ih =>
      by_cases hne : exists i, streams i ≠ []
      · rcases exists_leads key s hs hne with
          ⟨i, x, rest, head, leads⟩
        have hi : i ∈ s := by
          by_contra hnot
          rw [hs i hnot] at head
          cases head
        have hs' : forall j, j ∉ s ->
            Function.update streams i rest j = [] := by
          intro j hj
          have hij : j ≠ i := by
            intro heq
            exact hj (heq ▸ hi)
          rw [Function.update_of_ne hij]
          exact hs j hj
        rcases ih _ (hn ▸ size_update hi head) hs' rfl with ⟨out, hout⟩
        exact ⟨_, Merges.pick head leads hout⟩
      · refine ⟨[], Merges.done ?_⟩
        intro i
        by_contra hi
        exact hne ⟨i, hi⟩

end Merges

end Lib
end Dbn
