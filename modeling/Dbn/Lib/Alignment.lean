import Dbn.Lib.HalfOpen

/-!
# Alignments

Two lists of elements that each take an interval, side by side.  The element
that comes before the other one stands alone, and two that overlap stand
together, also when one of them goes on.
-/

namespace Dbn
namespace Lib

/-- An element of one of two lists, or one of each. -/
inductive Aligned (α : Type) where
  | left (a : α)
  | right (b : α)
  | both (a b : α)
deriving DecidableEq, Repr

variable {α D : Type} [LinearOrder D]

/-- The elements of two lists side by side. -/
def align (span : α -> HalfOpen D) : List α -> List α -> List (Aligned α)
  | a :: as, b :: bs =>
      if (span a).Before (span b) then .left a :: align span as (b :: bs)
      else if (span b).Before (span a) then .right b :: align span (a :: as) bs
      else .both a b :: align span as bs
  | as, [] => as.map .left
  | [], bs => bs.map .right
termination_by as bs => as.length + bs.length

namespace Alignment

variable {span : α -> HalfOpen D} {a b x y : α} {as bs : List α}

@[simp] theorem nil_right (as : List α) :
    align span as [] = as.map Aligned.left := by
  cases as <;> rw [align]

@[simp] theorem nil_left (bs : List α) :
    align span [] bs = bs.map Aligned.right := by
  cases bs with
  | nil => rw [align, List.map_nil, List.map_nil]
  | cons b bs =>
      rw [align]
      simp

theorem cons_before (h : (span a).Before (span b)) :
    align span (a :: as) (b :: bs) =
      Aligned.left a :: align span as (b :: bs) := by
  rw [align, if_pos h]

theorem cons_after (ha : (span a).Proper) (hb : (span b).Proper)
    (h : (span b).Before (span a)) :
    align span (a :: as) (b :: bs) =
      Aligned.right b :: align span (a :: as) bs := by
  rw [align, if_neg (h.asymm hb ha), if_pos h]

theorem cons_overlaps (h : (span a).Overlaps (span b)) :
    align span (a :: as) (b :: bs) = Aligned.both a b :: align span as bs := by
  rw [align, if_neg (fun hbefore => hbefore.not_overlaps h),
    if_neg (fun hbefore => hbefore.not_overlaps_symm h)]

/-- Elements that stand together overlap. -/
theorem overlaps_of_both (h : Aligned.both x y ∈ align span as bs) :
    x ∈ as ∧ y ∈ bs ∧ (span x).Overlaps (span y) := by
  induction as, bs using align.induct span with
  | case1 a as b bs hbefore ih =>
      rw [cons_before hbefore] at h
      rcases List.mem_cons.mp h with heq | hmem
      · cases heq
      · obtain ⟨hx, hrest⟩ := ih hmem
        exact ⟨List.mem_cons_of_mem _ hx, hrest⟩
  | case2 a as b bs hnot hbefore ih =>
      rw [align, if_neg hnot, if_pos hbefore] at h
      rcases List.mem_cons.mp h with heq | hmem
      · cases heq
      · obtain ⟨hx, hy, hrest⟩ := ih hmem
        exact ⟨hx, List.mem_cons_of_mem _ hy, hrest⟩
  | case3 a as b bs hnot hnot' ih =>
      have hoverlaps := HalfOpen.overlaps_of_not_before hnot hnot'
      rw [cons_overlaps hoverlaps] at h
      rcases List.mem_cons.mp h with heq | hmem
      · cases heq
        exact ⟨List.mem_cons_self, List.mem_cons_self, hoverlaps⟩
      · obtain ⟨hx, hy, hrest⟩ := ih hmem
        exact ⟨List.mem_cons_of_mem _ hx, List.mem_cons_of_mem _ hy, hrest⟩
  | case4 as =>
      rw [nil_right] at h
      simp at h
  | case5 bs =>
      rw [nil_left] at h
      simp at h

end Alignment

end Lib
end Dbn
