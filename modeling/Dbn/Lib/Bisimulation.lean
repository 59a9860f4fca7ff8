import Dbn.Lib.Outcome

/-!
# Machines that answer alike

A machine takes calls and answers each of them, or it panics.  Two machines in
related states answer alike when every call gives the same answer and leads to
related states again.
-/

namespace Dbn
namespace Lib

variable {A O S T : Type}

/-- Two calls give the same answer and leave related states. -/
inductive AnswersAlike (R : S -> T -> Prop) :
    Outcome (O × S) -> Outcome (O × T) -> Prop where
  | ret {o : O} {s : S} {t : T} (related : R s t) :
      AnswersAlike R (.ret (o, s)) (.ret (o, t))
  | panic (p : Panic) : AnswersAlike R (.panic p) (.panic p)
  | timeout : AnswersAlike R .timeout .timeout

/-- The answers to a list of calls, up to the first one without a value. -/
def answers (call : A -> S -> Outcome (O × S)) :
    List A -> S -> List (Outcome O)
  | [], _ => []
  | a :: calls, s =>
      match call a s with
      | .ret (o, s') => .ret o :: answers call calls s'
      | .panic p => [.panic p]
      | .timeout => [.timeout]

/-- Every call is answered alike in related states. -/
def Bisimulation (left : A -> S -> Outcome (O × S))
    (right : A -> T -> Outcome (O × T)) (R : S -> T -> Prop) : Prop :=
  forall a s t, R s t -> AnswersAlike R (left a s) (right a t)

theorem Bisimulation.answers_eq {left : A -> S -> Outcome (O × S)}
    {right : A -> T -> Outcome (O × T)} {R : S -> T -> Prop}
    (h : Bisimulation left right R) (calls : List A) {s : S} {t : T}
    (hrelated : R s t) : answers left calls s = answers right calls t := by
  induction calls generalizing s t with
  | nil => rfl
  | cons a calls ih =>
      have hcall := h a s t hrelated
      rw [answers, answers]
      generalize left a s = x at hcall
      generalize right a t = y at hcall
      cases hcall with
      | ret related =>
          dsimp only
          rw [ih related]
      | panic p => rfl
      | timeout => rfl

end Lib
end Dbn
