import Dbn.Lib.Writer

/-!
# Programs that ask for capacities

A program that reads an input and sizes its lists with numbers that it has
read.  It writes down each capacity that it asks for, with what is left of the
input then.
-/

namespace Dbn
namespace Lib

/-- A call of `Vec::with_capacity`, and the bytes that are left at it. -/
structure Capacity where
  count : Nat
  remaining : Nat
deriving DecidableEq, Repr

def Capacity.Fits (c : Capacity) : Prop :=
  c.count ≤ c.remaining

/-- A program with the capacities that it has asked for. -/
abbrev Sizing (ε α : Type) := WriteM (List Capacity) ε α

namespace Sizing

variable {ε α β : Type}

/-- A program that asks for nothing. -/
def plain (x : Res ε α) : Sizing ε α :=
  fun log => (x, log)

def withCapacity (count remaining : Nat) : Sizing ε Unit :=
  fun log => (Res.ok (), log ++ [⟨count, remaining⟩])

theorem plain_ok_bind (a : α) (f : α -> Sizing ε β) :
    plain (Res.ok a) >>= f = f a := rfl

/--
The program ends with the result, and all capacities that it asks for fit
exactly if the condition holds.
-/
def Sizes (x : Sizing ε α) (res : Res ε α) (Q : Prop) : Prop :=
  forall log, (x log).1 = res ∧ exists asked, (x log).2 = log ++ asked ∧
    ((forall c, c ∈ asked -> Capacity.Fits c) <-> Q)

namespace Sizes

variable {x : Sizing ε α} {f : α -> Sizing ε β} {res : Res ε α}
  {g : α -> Res ε β} {Q Q' : Prop}

theorem plain (res : Res ε α) : Sizes (plain res) res True := by
  intro log
  refine ⟨rfl, [], (List.append_nil log).symm, ?_⟩
  constructor
  · intro _
    exact True.intro
  · intro _ c hc
    cases hc

theorem fail (e : ε) :
    Sizes (WriteM.fail e : Sizing ε α) (Res.err e) True :=
  plain (Res.err e)

theorem withCapacity (count remaining : Nat) :
    Sizes (withCapacity count remaining : Sizing ε Unit) (Res.ok ())
      (count ≤ remaining) := by
  intro log
  refine ⟨rfl, [⟨count, remaining⟩], rfl, ?_⟩
  exact List.forall_mem_singleton

theorem congr (h : Sizes x res Q) (hQ : Q <-> Q') : Sizes x res Q' := by
  intro log
  rcases h log with ⟨hres, asked, hlog, hfits⟩
  exact ⟨hres, asked, hlog, hfits.trans hQ⟩

theorem bind {Q' : α -> Prop} (hx : Sizes x res Q)
    (hf : forall a, res = Res.ok a -> Sizes (f a) (g a) (Q' a)) :
    Sizes (x >>= f) (res >>= g)
      (Q ∧ forall a, res = Res.ok a -> Q' a) := by
  intro log
  rcases hx log with ⟨hres, asked, hlog, hfits⟩
  show (WriteM.bind x f log).1 = _ ∧ exists asked,
    (WriteM.bind x f log).2 = _ ∧ _
  unfold WriteM.bind
  rcases hcall : x log with ⟨res', log'⟩
  rw [hcall] at hres hlog
  dsimp only at hres hlog
  cases res with
  | ok a =>
      rw [hres]
      dsimp only
      rcases hf a rfl log' with ⟨hres', asked', hlog'', hfits'⟩
      refine ⟨hres', asked ++ asked', ?_, ?_⟩
      · rw [hlog'', hlog, List.append_assoc]
      · rw [List.forall_mem_append, hfits, hfits']
        constructor
        · intro h
          refine ⟨h.1, ?_⟩
          intro b hb
          cases hb
          exact h.2
        · intro h
          exact ⟨h.1, h.2 a rfl⟩
  | err e =>
      rw [hres]
      refine ⟨rfl, asked, hlog, ?_⟩
      rw [hfits]
      constructor
      · intro h
        refine ⟨h, ?_⟩
        intro b hb
        cases hb
      · intro h
        exact h.1
  | panic p =>
      rw [hres]
      refine ⟨rfl, asked, hlog, ?_⟩
      rw [hfits]
      constructor
      · intro h
        refine ⟨h, ?_⟩
        intro b hb
        cases hb
      · intro h
        exact h.1

theorem withCapacity_bind {count remaining : Nat}
    {f : Unit -> Sizing ε β} {res : Res ε β}
    (hf : Sizes (f ()) res True) :
    Sizes (Sizing.withCapacity count remaining >>= f) res
      (count ≤ remaining) := by
  have h : Sizes (Sizing.withCapacity count remaining >>= f) res
      (count ≤ remaining ∧ forall u, Res.ok (ε := ε) () = Res.ok u -> True) :=
    (withCapacity count remaining).bind (fun _ _ => hf)
  apply h.congr
  constructor
  · intro hQ
    exact hQ.1
  · intro hQ
    exact ⟨hQ, fun _ _ => True.intro⟩

/-- A program all of whose capacities fit. -/
theorem bind_fits (hx : Sizes x res True)
    (hf : forall a, res = Res.ok a -> Sizes (f a) (g a) True) :
    Sizes (x >>= f) (res >>= g) True :=
  (hx.bind hf).congr (by simp)

theorem ite {c : Prop} [Decidable c] {x y : Sizing ε α} {a b : Res ε α}
    (ht : c -> Sizes x a Q) (hf : ¬ c -> Sizes y b Q) :
    Sizes (if c then x else y) (if c then a else b) Q := by
  split
  · next h => exact ht h
  · next h => exact hf h

end Sizes
end Sizing
end Lib
end Dbn
