import Dbn.Lib.Io
import Dbn.Lib.Outcome

/-!
# Programs that write

A program over a writer keeps what it has written when it fails, so the writer
is part of every outcome.  `Writes` says what a program appends to a vector;
its rules follow the shape of the program.
-/

namespace Dbn
namespace Lib

/-- A fallible program over a writer. -/
def WriteM (W ε α : Type) := W -> Res ε α × W

namespace WriteM

variable {W ε α β : Type}

/-- Go on with the value, or leave with what has been written so far. -/
def bind (x : WriteM W ε α) (f : α -> WriteM W ε β) : WriteM W ε β :=
  fun w =>
    match x w with
    | (Res.ok a, w') => f a w'
    | (Res.err e, w') => (Res.err e, w')
    | (Res.panic p, w') => (Res.panic p, w')

instance : Monad (WriteM W ε) where
  pure a := fun w => (Res.ok a, w)
  bind := bind

theorem bind_of_ok {x : WriteM W ε α} {f : α -> WriteM W ε β} {w w' : W} {a : α}
    (h : x w = (Res.ok a, w')) : (x >>= f) w = f a w' := by
  show bind x f w = f a w'
  unfold bind
  rw [h]

/-- Two programs, of which the second is run if the first succeeds. -/
theorem bind_cases {x : WriteM W ε α} {f : α -> WriteM W ε β} {w w' : W}
    {res : Res ε β} (h : (x >>= f) w = (res, w')) :
    (exists a w1, x w = (Res.ok a, w1) ∧ f a w1 = (res, w')) ∨
    (exists e, x w = (Res.err e, w') ∧ res = Res.err e) ∨
    exists p, x w = (Res.panic p, w') ∧ res = Res.panic p := by
  have hbind : bind x f w = (res, w') := h
  unfold bind at hbind
  cases hx : x w with
  | mk res' w1 =>
      rw [hx] at hbind
      cases res' with
      | ok a => exact Or.inl ⟨a, w1, rfl, hbind⟩
      | err e =>
          cases hbind
          exact Or.inr (Or.inl ⟨e, rfl, rfl⟩)
      | panic p =>
          cases hbind
          exact Or.inr (Or.inr ⟨p, rfl, rfl⟩)

/-- Leave with an error. -/
def fail (e : ε) : WriteM W ε α :=
  fun w => (Res.err e, w)

/-- Panic. -/
def panic (p : Panic) : WriteM W ε α :=
  fun w => (Res.panic p, w)

/-- `write_all`, with the error mapped. -/
def writeAll [Write W] (mapErr : IoErrorKind -> ε) (bytes : List UInt8) :
    WriteM W ε Unit :=
  fun w =>
    match Write.writeAll w bytes with
    | (Except.ok (), w') => (Res.ok (), w')
    | (Except.error e, w') => (Res.err (mapErr e), w')

/-- A loop over the elements of a list. -/
def forEach (f : α -> WriteM W ε Unit) : List α -> WriteM W ε Unit
  | [] => pure ()
  | a :: rest => do
      f a
      forEach f rest

/-!
## What a program does not change
-/

/-- However the program ends, `view` sees the same of the writer. -/
def Keeps {V : Type} (view : W -> V) (x : WriteM W ε α) : Prop :=
  forall w, view (x w).2 = view w

theorem Keeps.bind {V : Type} {view : W -> V} {x : WriteM W ε α}
    {f : α -> WriteM W ε β} (hx : Keeps view x)
    (hf : forall a, Keeps view (f a)) : Keeps view (x >>= f) := by
  intro w
  have hfirst := hx w
  show view (WriteM.bind x f w).2 = view w
  unfold WriteM.bind
  cases hcall : x w with
  | mk res w' =>
      rw [hcall] at hfirst
      cases res with
      | ok a => exact (hf a w').trans hfirst
      | err e => exact hfirst
      | panic p => exact hfirst

theorem keeps_forEach {V : Type} {view : W -> V} {f : α -> WriteM W ε Unit}
    (h : forall a, Keeps view (f a)) (as : List α) :
    Keeps view (forEach f as) := by
  induction as with
  | nil => exact fun _ => rfl
  | cons a rest ih => exact (h a).bind (fun _ => ih)

/-!
## What a program appends
-/

/-- The program succeeds and appends exactly the given bytes. -/
def Writes (x : WriteM (List UInt8) ε Unit) (bytes : List UInt8) : Prop :=
  forall out, x out = (Res.ok (), out ++ bytes)

theorem writes_writeAll (mapErr : IoErrorKind -> ε) (bytes : List UInt8) :
    Writes (writeAll mapErr bytes) bytes := by
  intro out
  rfl

theorem Writes.bind {x y : WriteM (List UInt8) ε Unit} {a b : List UInt8}
    (hx : Writes x a) (hy : Writes y b) :
    Writes (x >>= fun _ => y) (a ++ b) := by
  intro out
  rw [bind_of_ok (hx out), hy (out ++ a), List.append_assoc]

theorem writes_pure : Writes (pure () : WriteM (List UInt8) ε Unit) [] := by
  intro out
  show (Res.ok (), out) = _
  rw [List.append_nil]

/-- A step that is taken only when a condition holds. -/
theorem Writes.optional {cond : Prop} [Decidable cond]
    {x y : WriteM (List UInt8) ε Unit} {a b : List UInt8}
    (hx : Writes x a) (hy : Writes y b) :
    Writes (if cond then x >>= fun _ => y else y)
      ((if cond then a else []) ++ b) := by
  split
  · exact hx.bind hy
  · exact hy

theorem writes_forEach {f : α -> WriteM (List UInt8) ε Unit}
    {g : α -> List UInt8} {as : List α}
    (h : forall a, a ∈ as -> Writes (f a) (g a)) :
    Writes (forEach f as) (as.flatMap g) := by
  induction as with
  | nil => exact writes_pure
  | cons a rest ih =>
      rw [List.flatMap_cons]
      exact Writes.bind (h a List.mem_cons_self)
        (ih (fun b hb => h b (List.mem_cons_of_mem a hb)))

/-!
## What a program has appended when it succeeds
-/

section Emits

variable [LoggedWrite W]

/--
If the program succeeds, the condition holds and the writer has accepted the
given bytes.
-/
def Emits (x : WriteM W ε Unit) (P : Prop) (bytes : List UInt8) : Prop :=
  forall w w', x w = (Res.ok (), w') ->
    P ∧ LoggedWrite.written w' = LoggedWrite.written w ++ bytes

variable {x y : WriteM W ε Unit} {P Q : Prop} {a b : List UInt8}

theorem emits_writeAll (mapErr : IoErrorKind -> ε) (bytes : List UInt8) :
    Emits (writeAll mapErr bytes : WriteM W ε Unit) True bytes := by
  intro w w' h
  unfold writeAll at h
  split at h
  · next w1 hwrite =>
      cases h
      exact ⟨trivial, LoggedWrite.written_writeAll hwrite⟩
  · cases h

theorem emits_pure : Emits (pure () : WriteM W ε Unit) True [] := by
  intro w w' h
  cases h
  exact ⟨trivial, (List.append_nil _).symm⟩

theorem emits_fail (e : ε) :
    Emits (fail e : WriteM W ε Unit) False a := by
  intro w w' h
  cases h

theorem emits_panic (p : Panic) :
    Emits (panic p : WriteM W ε Unit) False a := by
  intro w w' h
  cases h

theorem Emits.mono (hx : Emits x P a) (h : P -> Q) : Emits x Q a := by
  intro w w' hw
  exact ⟨h (hx w w' hw).1, (hx w w' hw).2⟩

theorem Emits.bind (hx : Emits x P a) (hy : Emits y Q b) :
    Emits (x >>= fun _ => y) (P ∧ Q) (a ++ b) := by
  intro w w' h
  change WriteM.bind x (fun _ => y) w = (Res.ok (), w') at h
  unfold WriteM.bind at h
  split at h
  · next w1 hfirst =>
      rcases hx w w1 hfirst with ⟨hp, ha⟩
      rcases hy w1 w' h with ⟨hq, hb⟩
      refine ⟨⟨hp, hq⟩, ?_⟩
      rw [hb, ha, List.append_assoc]
  · cases h
  · cases h

/-- A step whose success says nothing. -/
theorem Emits.andThen (hx : Emits x True a) (hy : Emits y Q b) :
    Emits (x >>= fun _ => y) Q (a ++ b) :=
  (hx.bind hy).mono And.right

/-- A step that is taken only when a condition holds. -/
theorem Emits.optional {cond : Prop} [Decidable cond]
    (hx : Emits x True a) (hy : Emits y Q b) :
    Emits (if cond then x >>= fun _ => y else y) Q
      ((if cond then a else []) ++ b) := by
  split
  · exact hx.andThen hy
  · exact hy

theorem emits_forEach {f : α -> WriteM W ε Unit} {P : α -> Prop}
    {g : α -> List UInt8} {as : List α}
    (h : forall a, Emits (f a) (P a) (g a)) :
    Emits (forEach f as) (forall a, a ∈ as -> P a) (as.flatMap g) := by
  induction as with
  | nil =>
      apply emits_pure.mono
      intro _ a ha
      cases ha
  | cons a rest ih =>
      rw [List.flatMap_cons]
      apply ((h a).bind ih).mono
      intro hall
      rw [List.forall_mem_cons]
      exact hall

end Emits

end WriteM

end Lib
end Dbn
