import Mathlib.Data.List.Infix

/-!
# Runs of a machine

A run of a transition system with the events that it has seen.  The newest
event comes first, with the state in which it happened, so that the history of
an earlier state is a suffix of the history.
-/

namespace Dbn
namespace Lib

variable {S E : Type}

/-- The runs from an initial state: the history and the state it leads to. -/
inductive Run (init : S -> Prop) (step : S -> E -> S -> Prop) :
    List (S × E) -> S -> Prop where
  | start {s : S} (first : init s) : Run init step [] s
  | step {history : List (S × E)} {s s' : S} {e : E}
      (before : Run init step history s) (next : step s e s') :
      Run init step ((s, e) :: history) s'

namespace Run

/-- A property of a state and its history, in all states of a run. -/
def Always (I : List (S × E) -> S -> Prop) (history : List (S × E)) (s : S) :
    Prop :=
  I history s ∧ forall p before, p :: before <:+ history -> I before p.1

theorem always_cons {I : List (S × E) -> S -> Prop}
    {history : List (S × E)} {s s' : S} {e : E} :
    Always I ((s, e) :: history) s' <->
      I ((s, e) :: history) s' ∧ Always I history s := by
  unfold Always
  constructor
  · intro h
    constructor
    · exact h.1
    · constructor
      · exact h.2 (s, e) history List.suffix_rfl
      · intro p before hsuffix
        exact h.2 p before (hsuffix.trans (List.suffix_cons _ _))
  · intro h
    constructor
    · exact h.1
    · intro p before hsuffix
      rcases List.suffix_cons_iff.mp hsuffix with heq | hsuffix
      · cases heq
        exact h.2.1
      · exact h.2.2 p before hsuffix

variable {init : S -> Prop} {step : S -> E -> S -> Prop}
  {I : List (S × E) -> S -> Prop} {C : S -> E -> Prop}

/--
Where a step keeps the property exactly under a condition, a run keeps it
exactly when all of its steps meet the condition.
-/
theorem always_iff (hinit : forall s, init s -> I [] s)
    (hstep : forall history s e s', Run init step history s -> I history s ->
      step s e s' -> (I ((s, e) :: history) s' <-> C s e))
    {history : List (S × E)} {s : S} (run : Run init step history s) :
    Always I history s <-> forall p, p ∈ history -> C p.1 p.2 := by
  induction run with
  | start first =>
      constructor
      · intro _ p hp
        cases hp
      · intro _
        constructor
        · exact hinit _ first
        · intro p before hsuffix
          exact absurd (List.suffix_nil.mp hsuffix) (List.cons_ne_nil _ _)
  | step before next ih =>
      rw [always_cons, List.forall_mem_cons, ih]
      constructor
      · intro h
        have hbefore := (ih.mpr h.2).1
        exact ⟨(hstep _ _ _ _ before hbefore next).mp h.1, h.2⟩
      · intro h
        have hbefore := (ih.mpr h.2).1
        exact ⟨(hstep _ _ _ _ before hbefore next).mpr h.1, h.2⟩

/-- A run in which all events meet a condition. -/
theorem restrict (G : S -> E -> Prop) {history : List (S × E)} {s : S}
    (run : Run init step history s)
    (guard : forall p, p ∈ history -> G p.1 p.2) :
    Run init (fun s e s' => step s e s' ∧ G s e) history s := by
  induction run with
  | start first => exact Run.start first
  | step before next ih =>
      rw [List.forall_mem_cons] at guard
      exact Run.step (ih guard.2) ⟨next, guard.1⟩

/-- A property that every step keeps holds at the end of a run. -/
theorem invariant {J : S -> Prop} (hinit : forall s, init s -> J s)
    (hstep : forall s e s', J s -> step s e s' -> J s')
    {history : List (S × E)} {s : S} (run : Run init step history s) :
    J s := by
  induction run with
  | start first => exact hinit _ first
  | step _ next ih => exact hstep _ _ _ ih next

end Run

end Lib
end Dbn
