import Dbn.Lib.Session
import Dbn.Lib.Writer

/-!
# Loops that write

A loop asks an input for items and hands each of them to a program that
writes.  A loop that counts its rounds ends on its own, so it is a program over
the items that the input gives.
-/

namespace Dbn
namespace Lib

variable {ε D R S T : Type}

/-- What a call with a loop leaves: its result and the state. -/
abbrev LoopM (S ε : Type) := S -> Outcome (Res ε Unit × S)

namespace LoopM

/-- A call after a loop that returned. -/
def andThen (run : LoopM S ε) (next : WriteM S ε Unit) : LoopM S ε :=
  fun self => do
    let (res, self) ← run self
    match res with
    | Res.ok () => .ret (next self)
    | res => .ret (res, self)

/-- `while let Some(item) = input.next()? { .. }`. -/
def whileSome (decode : Pull ε D R) (body : R -> WriteM S ε Unit) :
    Nat -> D -> LoopM S ε
  | 0, _, _ => .timeout
  | rounds + 1, d, self =>
      match decode d with
      | .timeout => .timeout
      | .panic p => .ret (Res.panic p, self)
      | .ret (Except.error e, _) => .ret (Res.err e, self)
      | .ret (Except.ok none, _) => .ret (Res.ok (), self)
      | .ret (Except.ok (some r), d) =>
          match body r self with
          | (Res.ok (), self) => whileSome decode body rounds d self
          | (res, self) => .ret (res, self)

/-- The same loop with a count of the items, left at the limit. -/
def whileSomeUpTo (decode : Pull ε D R) (limit : Nat)
    (body : R -> WriteM S ε Unit) : Nat -> Nat -> D -> LoopM S ε
  | 0, _, _, _ => .timeout
  | rounds + 1, i, d, self =>
      match decode d with
      | .timeout => .timeout
      | .panic p => .ret (Res.panic p, self)
      | .ret (Except.error e, _) => .ret (Res.err e, self)
      | .ret (Except.ok none, _) => .ret (Res.ok (), self)
      | .ret (Except.ok (some r), d) =>
          match body r self with
          | (Res.ok (), self) =>
              let i := i + 1
              if i = limit then .ret (Res.ok (), self)
              else whileSomeUpTo decode limit body rounds i d self
          | (res, self) => .ret (res, self)

end LoopM

/-!
## The items of an input
-/

/-- The items that an input gives when it is asked for so many. -/
def taken (decode : Pull ε D R) : Nat -> D -> List R
  | 0, _ => []
  | n + 1, d =>
      match decode d with
      | .ret (Except.ok (some r), d) => r :: taken decode n d
      | _ => []

/-- How the reading ends when the input is asked for so many items. -/
def ending (decode : Pull ε D R) : Nat -> D -> Res ε Unit
  | 0, _ => Res.ok ()
  | n + 1, d =>
      match decode d with
      | .ret (Except.ok (some _), d) => ending decode n d
      | .ret (Except.error e, _) => Res.err e
      | .panic p => Res.panic p
      | _ => Res.ok ()

/-- The same result, up to the error or the panic. -/
inductive SameResult : Res ε Unit -> Res ε Unit -> Prop where
  | ok : SameResult (Res.ok ()) (Res.ok ())
  | err (e e' : ε) : SameResult (Res.err e) (Res.err e')
  | panic (p p' : Panic) : SameResult (Res.panic p) (Res.panic p')

theorem SameResult.refl (res : Res ε Unit) : SameResult res res := by
  cases res with
  | ok a => exact SameResult.ok
  | err e => exact SameResult.err e e
  | panic p => exact SameResult.panic p p

theorem SameResult.symm {res res' : Res ε Unit} (h : SameResult res res') :
    SameResult res' res := by
  cases h with
  | ok => exact SameResult.ok
  | err e e' => exact SameResult.err e' e
  | panic p p' => exact SameResult.panic p' p

/-- A program that only has a result. -/
def WriteM.ofRes (res : Res ε Unit) : WriteM S ε Unit :=
  fun self => (res, self)

namespace LoopM

variable {decode : Pull ε D R} {body : R -> WriteM S ε Unit}

theorem forEach_cons_bind (r : R) (rs : List R) (next : WriteM S ε Unit)
    (self : S) :
    (WriteM.forEach body (r :: rs) >>= fun _ => next) self =
      WriteM.bind (body r) (fun _ => WriteM.forEach body rs >>= fun _ => next)
        self := by
  show WriteM.bind (WriteM.bind (body r)
    (fun _ => WriteM.forEach body rs)) (fun _ => next) self = _
  unfold WriteM.bind
  generalize body r self = out
  rcases out with ⟨res, self'⟩
  cases res <;> rfl

/-- A counting loop is a program over the items that it takes. -/
theorem whileSomeUpTo_eq (body : R -> WriteM S ε Unit)
    (hdecode : forall d, decode d ≠ .timeout) {k : Nat} (hk : 0 < k)
    {rounds : Nat} (hrounds : k ≤ rounds) (i : Nat) (d : D) (self : S) :
    whileSomeUpTo decode (i + k) body rounds i d self =
      .ret ((WriteM.forEach body (taken decode k d) >>= fun _ =>
        WriteM.ofRes (ending decode k d)) self) := by
  induction rounds generalizing i k d self with
  | zero => exact absurd (Nat.lt_of_lt_of_le hk hrounds) (Nat.lt_irrefl 0)
  | succ rounds ih =>
      rcases Nat.exists_eq_succ_of_ne_zero (Nat.ne_of_gt hk) with ⟨k, rfl⟩
      unfold whileSomeUpTo taken ending
      cases hcall : decode d with
      | timeout => exact absurd hcall (hdecode d)
      | panic p => rfl
      | ret answer =>
          rcases answer with ⟨answer, d'⟩
          cases answer with
          | error e => rfl
          | ok item =>
              cases item with
              | none => rfl
              | some r =>
                  dsimp only
                  rw [forEach_cons_bind]
                  unfold WriteM.bind
                  generalize body r self = out
                  rcases out with ⟨res, self'⟩
                  cases res with
                  | err e => rfl
                  | panic p => rfl
                  | ok a =>
                      dsimp only
                      cases k with
                      | zero =>
                          rw [if_pos rfl]
                          rfl
                      | succ k =>
                          have hnot : i + 1 ≠ i + (k + 1).succ := by
                            intro h
                            cases Nat.add_left_cancel h
                          have hnext := ih (Nat.succ_pos k)
                            (Nat.le_of_succ_le_succ hrounds) (i + 1) d' self'
                          rw [if_neg hnot, ← hnext]
                          congr 1
                          exact Nat.add_right_comm i (k + 1) 1

/-!
## States with a wrapper
-/

section Wrapped

variable {body' : R -> WriteM T ε Unit} {next : WriteM S ε Unit}
  {next' : WriteM T ε Unit} {wrap : S -> T}

/-- What a call leaves, with the state wrapped. -/
def within (wrap : S -> T) (out : Res ε Unit × S) : Res ε Unit × T :=
  (out.1, wrap out.2)

/-- A call of the wrapper is the one of the state that it wraps. -/
def Forwards (wrap : S -> T) (x : WriteM S ε Unit) (y : WriteM T ε Unit) :
    Prop :=
  forall self, y (wrap self) = within wrap (x self)

/-- What a loop leaves, with the state wrapped. -/
def wrapped (wrap : S -> T) (out : Outcome (Res ε Unit × S)) :
    Outcome (Res ε Unit × T) := do
  let (res, self) ← out
  .ret (res, wrap self)

theorem exists_of_wrapped {x : Outcome (Res ε Unit × S)}
    {out : Res ε Unit × T} (h : wrapped wrap x = .ret out) :
    exists first, x = .ret first ∧ out = within wrap first := by
  cases x with
  | timeout => cases h
  | panic p => cases h
  | ret first =>
      cases h
      exact ⟨first, rfl, rfl⟩

theorem whileSomeUpTo_wrap
    (hbody : forall r, Forwards wrap (body r) (body' r)) (limit rounds i : Nat)
    (d : D) (self : S) :
    whileSomeUpTo decode limit body' rounds i d (wrap self) =
      wrapped wrap (whileSomeUpTo decode limit body rounds i d self) := by
  induction rounds generalizing i d self with
  | zero => rfl
  | succ rounds ih =>
      unfold whileSomeUpTo
      cases decode d with
      | timeout => rfl
      | panic p => rfl
      | ret answer =>
          rcases answer with ⟨answer, d'⟩
          cases answer with
          | error e => rfl
          | ok item =>
              cases item with
              | none => rfl
              | some r =>
                  dsimp only
                  rw [hbody r self]
                  unfold within
                  generalize body r self = out
                  rcases out with ⟨res, self'⟩
                  cases res with
                  | err e => rfl
                  | panic p => rfl
                  | ok a =>
                      dsimp only
                      by_cases hlast : i + 1 = limit
                      · rw [if_pos hlast, if_pos hlast]
                        rfl
                      · rw [if_neg hlast, if_neg hlast]
                        exact ih (i + 1) d' self'

theorem andThen_wrap {run : LoopM S ε} {run' : LoopM T ε} {self : S}
    (hrun : run' (wrap self) = wrapped wrap (run self))
    (hnext : Forwards wrap next next') :
    andThen run' next' (wrap self) =
      wrapped wrap (andThen run next self) := by
  unfold andThen
  rw [hrun]
  cases run self with
  | timeout => rfl
  | panic p => rfl
  | ret out =>
      rcases out with ⟨res, self'⟩
      cases res with
      | err e => rfl
      | panic p => rfl
      | ok a =>
          show Outcome.ret (next' (wrap self')) = _
          rw [hnext self']
          rfl

end Wrapped

/-- A call after a loop that is a program. -/
theorem andThen_of_ret {run : LoopM S ε} {x next : WriteM S ε Unit} {self : S}
    (h : run self = .ret (x self)) :
    andThen run next self = .ret ((x >>= fun _ => next) self) := by
  unfold andThen
  rw [h]
  show _ = Outcome.ret (WriteM.bind x (fun _ => next) self)
  unfold WriteM.bind
  generalize x self = out
  rcases out with ⟨res, self'⟩
  cases res <;> rfl

theorem bind_assoc (x y z : WriteM S ε Unit) (self : S) :
    ((x >>= fun _ => y) >>= fun _ => z) self =
      (x >>= fun _ => (y >>= fun _ => z)) self := by
  show WriteM.bind (WriteM.bind x (fun _ => y)) (fun _ => z) self =
    WriteM.bind x (fun _ => WriteM.bind y (fun _ => z)) self
  unfold WriteM.bind
  generalize x self = out
  rcases out with ⟨res, self'⟩
  cases res <;> rfl

/-- A counting loop with the call after it. -/
theorem andThen_whileSomeUpTo (body : R -> WriteM S ε Unit)
    (hdecode : forall d, decode d ≠ .timeout) {k : Nat} (hk : 0 < k)
    {rounds : Nat} (hrounds : k ≤ rounds) (next : WriteM S ε Unit) (d : D)
    (self : S) :
    andThen (whileSomeUpTo decode k body rounds 0 d) next self =
      .ret ((WriteM.forEach body (taken decode k d) >>= fun _ =>
        (WriteM.ofRes (ending decode k d) >>= fun _ => next)) self) := by
  have hloop := whileSomeUpTo_eq body hdecode hk hrounds 0 d self
  rw [Nat.zero_add] at hloop
  rw [andThen_of_ret hloop, bind_assoc]

/-!
## What calls keep
-/

/-- A call keeps a property of the state, also when it fails. -/
def Keeps (P : S -> Prop) (x : WriteM S ε Unit) : Prop :=
  forall self, P self -> P (x self).2

/-- A loop that returns keeps a property of the state. -/
def LoopKeeps (P : S -> Prop) (run : LoopM S ε) : Prop :=
  forall self out, P self -> run self = .ret out -> P out.2

section Keeps

variable {P : S -> Prop} {x y : WriteM S ε Unit} {run : LoopM S ε}

theorem Keeps.fail (P : S -> Prop) (e : ε) :
    Keeps P (WriteM.fail e : WriteM S ε Unit) :=
  fun _ h => h

theorem Keeps.panic (P : S -> Prop) (p : Panic) :
    Keeps P (WriteM.panic p : WriteM S ε Unit) :=
  fun _ h => h

theorem Keeps.bind (hx : Keeps P x) (hy : Keeps P y) :
    Keeps P (x >>= fun _ => y) := by
  intro self h
  have hfirst := hx self h
  show P (WriteM.bind x (fun _ => y) self).2
  unfold WriteM.bind
  generalize x self = out at hfirst
  rcases out with ⟨res, self'⟩
  cases res with
  | ok a => exact hy self' hfirst
  | err e => exact hfirst
  | panic p => exact hfirst

theorem Keeps.forEach (hbody : forall r, Keeps P (body r)) (rs : List R) :
    Keeps P (WriteM.forEach body rs) := by
  induction rs with
  | nil => exact fun _ h => h
  | cons r rest ih => exact (hbody r).bind ih

theorem Keeps.whileSome (hbody : forall r, Keeps P (body r)) (rounds : Nat)
    (d : D) : LoopKeeps P (whileSome decode body rounds d) := by
  induction rounds generalizing d with
  | zero =>
      intro self out h hret
      cases hret
  | succ rounds ih =>
      intro self out h hret
      unfold LoopM.whileSome at hret
      split at hret
      · cases hret
      · cases hret
        exact h
      · cases hret
        exact h
      · cases hret
        exact h
      · next r d' _ =>
          have hfirst := hbody r self h
          split at hret
          · next self' heq =>
              rw [heq] at hfirst
              exact ih d' self' out hfirst hret
          · next heq =>
              rw [heq] at hfirst
              cases hret
              exact hfirst

theorem Keeps.whileSomeUpTo (hbody : forall r, Keeps P (body r))
    (limit rounds i : Nat) (d : D) :
    LoopKeeps P (whileSomeUpTo decode limit body rounds i d) := by
  induction rounds generalizing i d with
  | zero =>
      intro self out h hret
      cases hret
  | succ rounds ih =>
      intro self out h hret
      unfold LoopM.whileSomeUpTo at hret
      split at hret
      · cases hret
      · cases hret
        exact h
      · cases hret
        exact h
      · cases hret
        exact h
      · next r d' _ =>
          have hfirst := hbody r self h
          split at hret
          · next self' heq =>
              rw [heq] at hfirst
              dsimp only at hret
              split at hret
              · cases hret
                exact hfirst
              · exact ih (i + 1) d' self' out hfirst hret
          · next heq =>
              rw [heq] at hfirst
              cases hret
              exact hfirst

theorem LoopKeeps.andThen (hrun : LoopKeeps P run) (hnext : Keeps P x) :
    LoopKeeps P (andThen run x) := by
  intro self out h hret
  unfold LoopM.andThen at hret
  cases hfirst : run self with
  | timeout =>
      rw [hfirst] at hret
      cases hret
  | panic p =>
      rw [hfirst] at hret
      cases hret
  | ret first =>
      have hkept := hrun self first h hfirst
      rw [hfirst] at hret
      rcases first with ⟨res, self'⟩
      cases res with
      | ok a =>
          cases hret
          exact hnext self' hkept
      | err e =>
          cases hret
          exact hkept
      | panic p =>
          cases hret
          exact hkept

end Keeps

end LoopM
end Lib
end Dbn
