import Dbn.Lib.Outcome
import Mathlib.Logic.Relation

/-!
# Futures

An asynchronous function runs until it awaits something and goes on when that
is there.  Its future can be dropped while it waits; what it has done to the
state by then stays.
-/

namespace Dbn
namespace Lib

variable {F S A : Type}

/-- The result of running a future up to its next await point. -/
inductive Poll (F S A : Type) where
  | ready (a : A) (s : S)
  | pending (f : F) (s : S)
deriving Repr

/-- A call of the function, and the future going on from an await point. -/
structure AsyncFn (F S A : Type) where
  start : S -> Outcome (Poll F S A)
  resume : F -> S -> Outcome (Poll F S A)

namespace AsyncFn

variable {fn : AsyncFn F S A}

/-- The future goes on from one await point to the next. -/
def Step (fn : AsyncFn F S A) (x y : F × S) : Prop :=
  fn.resume x.1 x.2 = .ret (.pending y.1 y.2)

/-- A call waits at an await point. -/
def Awaits (fn : AsyncFn F S A) (s : S) (x : F × S) : Prop :=
  exists x₀ : F × S, fn.start s = .ret (.pending x₀.1 x₀.2) ∧
    Relation.ReflTransGen fn.Step x₀ x

/-- A call that is not dropped returns. -/
def Returns (fn : AsyncFn F S A) (s : S) (a : A) (s' : S) : Prop :=
  fn.start s = .ret (.ready a s') ∨
    exists x, fn.Awaits s x ∧ fn.resume x.1 x.2 = .ret (.ready a s')

/-- What is reached without dropping the future. -/
def Leads (fn : AsyncFn F S A) (o : Outcome (Poll F S A)) (a : A) (s' : S) :
    Prop :=
  o = .ret (.ready a s') ∨
    exists x y : F × S, o = .ret (.pending x.1 x.2) ∧
      Relation.ReflTransGen fn.Step x y ∧
      fn.resume y.1 y.2 = .ret (.ready a s')

theorem returns_of_leads {s s' : S} {a : A}
    (h : fn.Leads (fn.start s) a s') : fn.Returns s a s' := by
  rcases h with hready | ⟨x, y, hpending, hsteps, hready⟩
  · exact Or.inl hready
  · exact Or.inr ⟨y, ⟨x, hpending, hsteps⟩, hready⟩

/-- A future that waits goes on with its `resume`. -/
theorem Leads.pending {f : F} {s s' : S} {a : A}
    (h : fn.Leads (fn.resume f s) a s') :
    fn.Leads (.ret (.pending f s)) a s' := by
  rcases h with hready | ⟨x, y, hpending, hsteps, hready⟩
  · exact Or.inr ⟨(f, s), (f, s), rfl, Relation.ReflTransGen.refl, hready⟩
  · have hstep : fn.Step (f, s) x := hpending
    exact Or.inr ⟨(f, s), y, rfl, Relation.ReflTransGen.head hstep hsteps,
      hready⟩

/--
What a call does in some states: it returns, the result and the state satisfy
`post`, and its await points satisfy `wait`.
-/
structure Meets (fn : AsyncFn F S A) (s : S) (wait : F -> S -> Prop)
    (post : A -> S -> Prop) : Prop where
  returns : exists a s', fn.Returns s a s'
  post_of_returns : forall {a s'}, fn.Returns s a s' -> post a s'
  wait_of_awaits : forall {x}, fn.Awaits s x -> wait x.1 x.2

/-- Going on from an await point of the invariant ends or gets closer. -/
def Progresses (fn : AsyncFn F S A) (wait : F -> S -> Prop)
    (post : A -> S -> Prop) (left : F -> S -> Nat) : Prop :=
  forall f s, wait f s ->
    (exists a s', fn.resume f s = .ret (.ready a s') ∧ post a s') ∨
    (exists f' s', fn.resume f s = .ret (.pending f' s') ∧ wait f' s' ∧
      left f' s' < left f s)

section Rule

variable {wait : F -> S -> Prop} {post : A -> S -> Prop} {left : F -> S -> Nat}

theorem Progresses.wait_of_steps (h : fn.Progresses wait post left)
    {x y : F × S} (hx : wait x.1 x.2)
    (hsteps : Relation.ReflTransGen fn.Step x y) : wait y.1 y.2 := by
  induction hsteps with
  | refl => exact hx
  | tail _ hstep ih =>
      rcases h _ _ ih with ⟨a, s', hready, _⟩ | ⟨f', s', hpending, hwait, _⟩
      · rw [Step, hready] at hstep
        cases hstep
      · rw [Step, hpending] at hstep
        cases hstep
        exact hwait

theorem Progresses.exists_ready (h : fn.Progresses wait post left)
    {x : F × S} (hx : wait x.1 x.2) :
    exists y a s', Relation.ReflTransGen fn.Step x y ∧
      fn.resume y.1 y.2 = .ret (.ready a s') := by
  induction hn : left x.1 x.2 using Nat.strongRecOn
    generalizing x with
  | _ n ih =>
      rcases h _ _ hx with ⟨a, s', hready, _⟩ | ⟨f', s', hpending, hwait, hlt⟩
      · exact ⟨x, a, s', Relation.ReflTransGen.refl, hready⟩
      · rw [hn] at hlt
        rcases ih _ hlt (x := (f', s')) hwait rfl with
          ⟨y, a, t, hsteps, hready⟩
        have hstep : fn.Step x (f', s') := hpending
        exact ⟨y, a, t, Relation.ReflTransGen.head hstep hsteps, hready⟩

/-- The invariant rule for a call. -/
theorem Progresses.meets (h : fn.Progresses wait post left) {s : S}
    (hstart : (exists a s', fn.start s = .ret (.ready a s') ∧ post a s') ∨
      exists f s', fn.start s = .ret (.pending f s') ∧ wait f s') :
    fn.Meets s wait post := by
  have hwait : forall {x}, fn.Awaits s x -> wait x.1 x.2 := by
    rintro x ⟨x₀, hx₀, hsteps⟩
    rcases hstart with ⟨a, s', hready, _⟩ | ⟨f, s', hpending, hwait⟩
    · rw [hready] at hx₀
      cases hx₀
    · rw [hpending] at hx₀
      cases hx₀
      exact h.wait_of_steps hwait hsteps
  constructor
  · rcases hstart with ⟨a, s', hready, _⟩ | ⟨f, s', hpending, hwait⟩
    · exact ⟨a, s', Or.inl hready⟩
    · rcases h.exists_ready (x := (f, s')) hwait with
        ⟨y, a, t, hsteps, hready⟩
      exact ⟨a, t, Or.inr ⟨y, ⟨(f, s'), hpending, hsteps⟩, hready⟩⟩
  · rintro a s' (hready | ⟨x, hawaits, hready⟩)
    · rcases hstart with ⟨a₁, s₁, hready', hpost⟩ | ⟨f, s₁, hpending, _⟩
      · rw [hready'] at hready
        cases hready
        exact hpost
      · rw [hpending] at hready
        cases hready
    · rcases h _ _ (hwait hawaits) with
        ⟨a₁, s₁, hready', hpost⟩ | ⟨f', s₁, hpending, _⟩
      · rw [hready'] at hready
        cases hready
        exact hpost
      · rw [hpending] at hready
        cases hready
  · exact hwait

end Rule

end AsyncFn
end Lib
end Dbn
