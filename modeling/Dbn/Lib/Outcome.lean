import Mathlib.Algebra.Group.Nat.Defs
import Mathlib.Tactic.Common

/-!
# Outcomes of Rust calls

A call of a Rust function ends in one of three ways: it returns, it returns an
error through `Result`, or it panics.  The decoders modelled here are
required not to panic, so the panic outcome is part of every result type
instead of being left to the totality of the host language.
-/

namespace Dbn
namespace Lib

/-- The panics the model distinguishes. -/
inductive Panic where
  /-- A slice or index expression is out of bounds. -/
  | outOfBounds
  /-- `usize` arithmetic overflows. -/
  | overflow
  /-- `Option::unwrap` on `None`. -/
  | unwrapNone
  /-- A failed `assert!`. -/
  | assertion
  /-- A reached `unreachable!`. -/
  | unreachable
  /-- A reached `panic!`. -/
  | explicit
deriving DecidableEq, Repr

/-!
## Fallible calls
-/

/-- `Result<T, E>` extended by the panic outcome. -/
inductive Res (ε : Type) (α : Type) where
  | ok (a : α)
  | err (e : ε)
  | panic (p : Panic)
deriving DecidableEq, Repr

namespace Res

variable {ε ε' α β : Type}

/-- The `?` operator: go on with the value, or leave with the error. -/
def bind (x : Res ε α) (f : α -> Res ε β) : Res ε β :=
  match x with
  | ok a => f a
  | err e => err e
  | panic p => panic p

instance : Monad (Res ε) where
  pure := Res.ok
  bind := Res.bind

/-- `Result::map_err`. -/
def mapErr (f : ε -> ε') : Res ε α -> Res ε' α
  | ok a => ok a
  | err e => err (f e)
  | panic p => panic p

/-- The call returned `Err`. -/
def IsErr (x : Res ε α) : Prop :=
  exists e, x = err e

/-- The call panicked. -/
def IsPanic (x : Res ε α) : Prop :=
  exists p, x = panic p

/-- Two calls return the same value, or both return an error. -/
def Agree (x y : Res ε α) : Prop :=
  (exists a, x = ok a ∧ y = ok a) ∨ (x.IsErr ∧ y.IsErr)

@[simp] theorem pure_eq (a : α) : (pure a : Res ε α) = ok a := rfl

@[simp] theorem ok_bind (a : α) (f : α -> Res ε β) :
    (ok a >>= f) = f a := rfl

@[simp] theorem err_bind (e : ε) (f : α -> Res ε β) :
    (err e >>= f) = err e := rfl

@[simp] theorem panic_bind (p : Panic) (f : α -> Res ε β) :
    (panic p >>= f) = panic p := rfl

@[simp] theorem mapErr_ok (f : ε -> ε') (a : α) :
    mapErr f (ok a) = ok a := rfl

@[simp] theorem mapErr_err (f : ε -> ε') (e : ε) :
    mapErr f (err e : Res ε α) = err (f e) := rfl

@[simp] theorem mapErr_panic (f : ε -> ε') (p : Panic) :
    mapErr f (panic p : Res ε α) = panic p := rfl

theorem bind_assoc {γ : Type} (x : Res ε α) (f : α -> Res ε β)
    (g : β -> Res ε γ) : (x >>= f >>= g) = (x >>= fun a => f a >>= g) := by
  cases x <;> rfl

/-- A sequenced call returns only if both parts return. -/
theorem bind_eq_ok {x : Res ε α} {f : α -> Res ε β} {b : β} :
    (x >>= f) = ok b <-> exists a, x = ok a ∧ f a = ok b := by
  cases x with
  | ok a => simp
  | err e => simp
  | panic p => simp

/-- A sequenced call panics in its first or in its second part. -/
theorem bind_isPanic {x : Res ε α} {f : α -> Res ε β} :
    (x >>= f).IsPanic <-> x.IsPanic ∨ exists a, x = ok a ∧ (f a).IsPanic := by
  cases x with
  | ok a => simp [IsPanic]
  | err e => simp [IsPanic]
  | panic p => simp [IsPanic]

/-- Only the first of two parts can fail when the second returns. -/
theorem isErr_of_bind_ok {x : Res ε α} {f : α -> β} {e : ε}
    (h : (x >>= fun a => ok (f a)) = err e) : x.IsErr := by
  cases x with
  | ok a => cases h
  | err e' => exact ⟨e', rfl⟩
  | panic p => cases h

theorem mapErr_eq_ok {f : ε -> ε'} {x : Res ε α} {a : α} :
    mapErr f x = ok a <-> x = ok a := by
  cases x <;> simp

theorem mapErr_isPanic {f : ε -> ε'} {x : Res ε α} :
    (mapErr f x).IsPanic <-> x.IsPanic := by
  cases x <;> simp [IsPanic]

@[simp] theorem ok_not_isPanic (a : α) : ¬ (ok a : Res ε α).IsPanic := by
  simp [IsPanic]

@[simp] theorem err_not_isPanic (e : ε) : ¬ (err e : Res ε α).IsPanic := by
  simp [IsPanic]

@[simp] theorem panic_isPanic (p : Panic) : (panic p : Res ε α).IsPanic :=
  ⟨p, rfl⟩

@[simp] theorem err_isErr (e : ε) : (err e : Res ε α).IsErr :=
  ⟨e, rfl⟩

@[simp] theorem ok_not_isErr (a : α) : ¬ (ok a : Res ε α).IsErr := by
  simp [IsErr]

@[simp] theorem panic_not_isErr (p : Panic) :
    ¬ (panic p : Res ε α).IsErr := by
  simp [IsErr]

instance [DecidableEq α] (x y : Res ε α) : Decidable (Agree x y) :=
  match x, y with
  | ok a, ok b => decidable_of_iff (b = a) (by simp [Agree])
  | err _, err _ => isTrue (Or.inr ⟨err_isErr _, err_isErr _⟩)
  | ok _, err _ => isFalse (by simp [Agree])
  | ok _, panic _ => isFalse (by simp [Agree])
  | err _, ok _ => isFalse (by simp [Agree])
  | err _, panic _ => isFalse (by simp [Agree])
  | panic _, _ => isFalse (by simp [Agree])

/-- The outcome without what the error says. -/
def forget (x : Res ε α) : Res Unit α :=
  x.mapErr (fun _ => ())

@[simp] theorem forget_ok (a : α) : (ok a : Res ε α).forget = ok a := rfl

@[simp] theorem forget_err (e : ε) : (err e : Res ε α).forget = err () := rfl

@[simp] theorem forget_panic (p : Panic) :
    (panic p : Res ε α).forget = panic p := rfl

@[simp] theorem forget_mapErr (f : ε -> ε') (x : Res ε α) :
    (x.mapErr f).forget = x.forget := by
  cases x <;> rfl

theorem forget_bind (x : Res ε α) (f : α -> Res ε β) :
    (x >>= f).forget = x.forget >>= fun a => (f a).forget := by
  cases x <;> rfl

theorem forget_eq_ok {x : Res ε α} {a : α} : x.forget = ok a <-> x = ok a :=
  mapErr_eq_ok

theorem forget_isPanic {x : Res ε α} : x.forget.IsPanic <-> x.IsPanic :=
  mapErr_isPanic

/-- `Ok`, `Err` and panic exhaust the outcomes. -/
theorem cases_outcome (x : Res ε α) :
    (exists a, x = ok a) ∨ x.IsErr ∨ x.IsPanic := by
  cases x <;> simp

end Res

/-!
## Calls with a loop

A loop of the source is modelled with a bound on its rounds.  Running out of
rounds is an outcome of its own, so that a statement about what a call returns
also says that it returns.
-/

/-- The outcome of a call whose body contains an unbounded loop. -/
inductive Outcome (α : Type) where
  | ret (a : α)
  | panic (p : Panic)
  | timeout
deriving DecidableEq, Repr

namespace Outcome

variable {α β : Type}

instance : Monad Outcome where
  pure := ret
  bind x f :=
    match x with
    | ret a => f a
    | panic p => panic p
    | timeout => timeout

@[simp] theorem ret_bind (a : α) (f : α -> Outcome β) :
    (ret a >>= f) = f a := rfl

/-- A sequenced call returns only if both parts return. -/
theorem bind_eq_ret {x : Outcome α} {f : α -> Outcome β} {b : β} :
    (x >>= f) = ret b <-> exists a, x = ret a ∧ f a = ret b := by
  constructor
  · intro h
    cases x with
    | ret a => exact ⟨a, rfl, h⟩
    | panic p => cases h
    | timeout => cases h
  · intro h
    rcases h with ⟨a, hx, hf⟩
    rw [hx]
    exact hf

end Outcome

/-!
## Machine arithmetic
-/

/-- `usize::MAX + 1` on the 64-bit targets. -/
def usizeBound : Nat := 2 ^ 64

/-- `isize::MAX`, the largest size of a Rust slice or vector in bytes. -/
def isizeMax : Nat := 2 ^ 63 - 1

/-- `usize` addition with the overflow check of the language. -/
def addUsize {ε : Type} (a b : Nat) : Res ε Nat :=
  if a + b < usizeBound then Res.ok (a + b) else Res.panic Panic.overflow

/-- `usize` multiplication with the overflow check of the language. -/
def mulUsize {ε : Type} (a b : Nat) : Res ε Nat :=
  if a * b < usizeBound then Res.ok (a * b) else Res.panic Panic.overflow

theorem addUsize_of_lt {ε : Type} {a b : Nat} (h : a + b < usizeBound) :
    addUsize (ε := ε) a b = Res.ok (a + b) := if_pos h

theorem mulUsize_of_lt {ε : Type} {a b : Nat} (h : a * b < usizeBound) :
    mulUsize (ε := ε) a b = Res.ok (a * b) := if_pos h

end Lib
end Dbn
