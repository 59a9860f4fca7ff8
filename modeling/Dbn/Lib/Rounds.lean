import Mathlib.Tactic.Common

/-!
# Loops by rounds

A loop without a counter: a round either leads to the next round or ends the
loop with a result.  Its meaning is a relation between the state in front of
the loop and the result; `upTo` is the loop for a number of rounds.  A measure
that every round decreases bounds that number.
-/

namespace Dbn
namespace Lib
namespace Rounds

variable {S R : Type}

/-- One round leads from `s` to `s'`. -/
def Follows (round : S -> Sum S R) (s' s : S) : Prop :=
  round s = Sum.inl s'

/-- The rounds of the loop that starts in a state come to an end. -/
def Terminates (round : S -> Sum S R) (s : S) : Prop :=
  Acc (Follows round) s

/-- The loop ends with a result, however many rounds it takes. -/
inductive Ends (round : S -> Sum S R) : S -> R -> Prop where
  | last {s : S} {r : R} (ended : round s = Sum.inr r) : Ends round s r
  | next {s s' : S} {r : R} (follows : round s = Sum.inl s')
      (rest : Ends round s' r) : Ends round s r

/-- The states in front of the rounds of a loop. -/
inductive Passes (round : S -> Sum S R) (s : S) : S -> Prop where
  | first : Passes round s s
  | next {s' s'' : S} (before : Passes round s s')
      (follows : round s' = Sum.inl s'') : Passes round s s''

/-- The loop for a number of rounds. -/
def upTo (round : S -> Sum S R) : Nat -> S -> Option R
  | 0, _ => none
  | fuel + 1, s =>
      match round s with
      | Sum.inl s' => upTo round fuel s'
      | Sum.inr r => some r

variable {round : S -> Sum S R}

/-- What every round keeps holds in front of each of them. -/
theorem Passes.invariant {I : S -> Prop} {s s' : S}
    (passes : Passes round s s') (start : I s)
    (keep : forall s s', I s -> round s = Sum.inl s' -> I s') : I s' := by
  induction passes with
  | first => exact start
  | next _ follows ih => exact keep _ _ ih follows

theorem Ends.terminates {s : S} {r : R} (ends : Ends round s r) :
    Terminates round s := by
  induction ends with
  | last ended =>
      apply Acc.intro
      intro s' hfollows
      cases ended.symm.trans hfollows
  | next follows _ ih =>
      apply Acc.intro
      intro s' hfollows
      cases follows.symm.trans hfollows
      exact ih

theorem ends_of_upTo {fuel : Nat} {s : S} {r : R}
    (h : upTo round fuel s = some r) : Ends round s r := by
  induction fuel generalizing s with
  | zero => cases h
  | succ fuel ih =>
      unfold upTo at h
      cases hround : round s with
      | inl s' =>
          rw [hround] at h
          exact Ends.next hround (ih h)
      | inr result =>
          rw [hround] at h
          cases h
          exact Ends.last hround

/-- More rounds do not change the result. -/
theorem upTo_mono {fuel more : Nat} (hle : fuel ≤ more) {s : S} {r : R}
    (h : upTo round fuel s = some r) : upTo round more s = some r := by
  induction fuel generalizing s more with
  | zero => cases h
  | succ fuel ih =>
      cases more with
      | zero => cases hle
      | succ more =>
          unfold upTo at h ⊢
          cases hround : round s with
          | inl s' =>
              rw [hround] at h
              exact ih (Nat.le_of_succ_le_succ hle) h
          | inr result =>
              rw [hround] at h
              exact h

/-- A measure that every round decreases is a number of rounds that is
enough. -/
theorem exists_upTo {measure : S -> Nat}
    (decreases : forall s s', round s = Sum.inl s' -> measure s' < measure s)
    {fuel : Nat} {s : S} (h : measure s < fuel) :
    exists r, upTo round fuel s = some r := by
  induction fuel generalizing s with
  | zero => cases h
  | succ fuel ih =>
      unfold upTo
      cases hround : round s with
      | inl s' =>
          exact ih (Nat.lt_of_lt_of_le (decreases s s' hround)
            (Nat.le_of_lt_succ h))
      | inr r => exact ⟨r, rfl⟩

end Rounds
end Lib
end Dbn
