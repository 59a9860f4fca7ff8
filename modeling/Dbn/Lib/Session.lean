import Dbn.Lib.Outcome
import Mathlib.Data.List.Basic

/-!
# Sessions with an output

A session may fail and changes the state of an output.  The items that it hands
to the output are logged, and `Hands` says which items these are.  An input is
a decoder that is asked for one item at a time.
-/

namespace Dbn
namespace Lib

variable {ε D E R A B : Type}

/-- One request to an input: its answer and what is left of the input. -/
abbrev Pull (ε D R : Type) := D -> Outcome (Except ε (Option R) × D)

/-- A call that may fail and changes the state of an output. -/
abbrev Session (ε E : Type) := ExceptT ε (StateT E Outcome)

/-!
## Reading an input
-/

/-- The items that an input gives until it ends or fails. -/
inductive Reads (decode : Pull ε D R) : D -> List R -> Option ε -> Prop where
  | done {d d' : D} (call : decode d = .ret (Except.ok none, d')) :
      Reads decode d [] none
  | fail {d d' : D} {e : ε} (call : decode d = .ret (Except.error e, d')) :
      Reads decode d [] (some e)
  | item {d d' : D} {r : R} {rs : List R} {stop : Option ε}
      (call : decode d = .ret (Except.ok (some r), d'))
      (rest : Reads decode d' rs stop) : Reads decode d (r :: rs) stop

namespace Reads

variable {decode : Pull ε D R} {d d' : D} {rs : List R} {stop : Option ε}

/-- The first answer says where the reading goes on. -/
theorem of_call_eq {D' : Type} {decode' : Pull ε D' R} {d₁ d₂ : D'}
    (h : Reads decode' d₁ rs stop) (heq : decode' d₂ = decode' d₁) :
    Reads decode' d₂ rs stop := by
  cases h with
  | done call => exact done (heq.trans call)
  | fail call => exact fail (heq.trans call)
  | item call rest => exact item (heq.trans call) rest

end Reads

/-!
## Loops over an input
-/

/-- `while let Some(item) = decoder.decode()? { .. }` with the variables that
the body changes. -/
def forEach (decode : Pull ε D R) (body : A -> R -> Session ε E A) :
    Nat -> A -> D -> Session ε E Unit
  | 0, _, _ => fun _ => .timeout
  | rounds + 1, a, d => fun s => do
      let (res, d) ← decode d
      match res with
      | Except.error e => .ret (Except.error e, s)
      | Except.ok none => .ret (Except.ok (), s)
      | Except.ok (some r) =>
          (body a r >>= fun a => forEach decode body rounds a d) s

/-!
## Logs
-/

/-- An output with the items that were handed to it. -/
structure Logged (E R : Type) where
  output : E
  handed : List R

namespace Session

/-- A call that hands nothing to the output. -/
def silent (call : E -> Except ε A × E) : Session ε (Logged E R) A :=
  fun s => .ret ((call s.output).1, { s with output := (call s.output).2 })

/-- A call that hands an item to the output. -/
def handing (r : R) (call : E -> Except ε A × E) :
    Session ε (Logged E R) A :=
  fun s =>
    .ret ((call s.output).1, ⟨(call s.output).2, s.handed ++ [r]⟩)

/-- The call hands the items in order, and all of them if it succeeds. -/
def Hands (call : Session ε (Logged E R) A) (items : List R) : Prop :=
  forall s, exists res s' done, call s = .ret (res, s') ∧
    s'.handed = s.handed ++ done ∧ done <+: items ∧
    forall a, res = Except.ok a -> done = items

namespace Hands

variable {items items' : List R} {call : Session ε (Logged E R) A}
  {next : A -> Session ε (Logged E R) B}

theorem pure (a : A) :
    Hands (Pure.pure a : Session ε (Logged E R) A) [] := by
  intro s
  exact ⟨_, s, [], rfl, (List.append_nil _).symm, List.prefix_refl _,
    fun _ _ => rfl⟩

theorem throw (e : ε) (items : List R) :
    Hands (throw e : Session ε (Logged E R) A) items := by
  intro s
  refine ⟨Except.error e, s, [], rfl, (List.append_nil _).symm,
    List.nil_prefix, ?_⟩
  intro a h
  cases h

theorem ofExcept (x : Except ε A) :
    Hands (MonadExcept.ofExcept x : Session ε (Logged E R) A) [] := by
  cases x with
  | error e => exact throw e []
  | ok a => exact pure a

theorem silent (call : E -> Except ε A × E) :
    Hands (silent call : Session ε (Logged E R) A) [] := by
  intro s
  exact ⟨_, _, [], rfl, (List.append_nil _).symm, List.prefix_refl _,
    fun _ _ => rfl⟩

theorem handing (r : R) (call : E -> Except ε A × E) :
    Hands (handing r call : Session ε (Logged E R) A) [r] := by
  intro s
  exact ⟨_, _, [r], rfl, rfl, List.prefix_refl _, fun _ _ => rfl⟩

theorem bind (hcall : Hands call items)
    (hnext : forall a, Hands (next a) items') :
    Hands (call >>= next) (items ++ items') := by
  intro s
  rcases hcall s with ⟨res, s₁, done, hret, hlog, hpiece, hall⟩
  cases res with
  | error e =>
      refine ⟨Except.error e, s₁, done, ?_, hlog,
        hpiece.trans (List.prefix_append _ _), ?_⟩
      · show (call s >>= fun x => ExceptT.bindCont next x.1 x.2) = _
        rw [hret]
        rfl
      · intro a h
        cases h
  | ok a =>
      rcases hnext a s₁ with ⟨res', s₂, done', hret', hlog', hpiece', hall'⟩
      have hdone := hall a rfl
      refine ⟨res', s₂, done ++ done', ?_, ?_, ?_, ?_⟩
      · show (call s >>= fun x => ExceptT.bindCont next x.1 x.2) = _
        rw [hret]
        exact hret'
      · rw [hlog', hlog, List.append_assoc]
      · rw [hdone]
        exact (List.prefix_append_right_inj _).mpr hpiece'
      · intro b h
        rw [hdone, hall' b h]

/-- A call before or after that hands nothing. -/
theorem silent_bind (hcall : Hands call [])
    (hnext : forall a, Hands (next a) items) :
    Hands (call >>= next) items := hcall.bind hnext

theorem bind_silent (hcall : Hands call items)
    (hnext : forall a, Hands (next a) []) :
    Hands (call >>= next) items := by
  rw [← List.append_nil items]
  exact hcall.bind hnext

theorem ite {c : Prop} [Decidable c] {call' : Session ε (Logged E R) A}
    (ht : c -> Hands call items) (hf : ¬ c -> Hands call' items) :
    Hands (if c then call else call') items := by
  split
  · next h => exact ht h
  · next h => exact hf h

/-- A loop hands what its input gives if each round hands its item. -/
theorem forEach {decode : Pull ε D R} {d : D} {rs : List R}
    {stop : Option ε} {body : A -> R -> Session ε (Logged E R) A}
    (hbody : forall a r, Hands (body a r) [r])
    (hreads : Reads decode d rs stop) {rounds : Nat}
    (hrounds : rs.length < rounds) (a : A) :
    Hands (forEach decode body rounds a d) rs := by
  induction hreads generalizing rounds a with
  | done call =>
      cases rounds with
      | zero => cases hrounds
      | succ rounds =>
          intro s
          refine ⟨Except.ok (), s, [], ?_, (List.append_nil _).symm,
            List.prefix_refl _, fun _ _ => rfl⟩
          show (_ >>= _) = _
          rw [call]
          rfl
  | @fail _ _ e call =>
      cases rounds with
      | zero => cases hrounds
      | succ rounds =>
          intro s
          refine ⟨Except.error e, s, [], ?_, (List.append_nil _).symm,
            List.prefix_refl _, fun _ _ => rfl⟩
          show (_ >>= _) = _
          rw [call]
          rfl
  | item call rest ih =>
      cases rounds with
      | zero => cases hrounds
      | succ rounds =>
          intro s
          have hnext := fun a => ih (Nat.lt_of_succ_lt_succ hrounds) a
          rcases (hbody a _).bind hnext s with ⟨res, s', done, hret, hrest⟩
          refine ⟨res, s', done, ?_, hrest⟩
          rw [← hret]
          show (_ >>= _) = _
          rw [call]
          rfl

end Hands

/-!
## Outputs that accept everything
-/

/-- The call succeeds and hands exactly the items. -/
def Completes (call : Session ε (Logged E R) A) (items : List R) : Prop :=
  forall s, exists a s', call s = .ret (Except.ok a, s') ∧
    s'.handed = s.handed ++ items

/-- The call hands exactly the items, also if it fails. -/
def HandsAll (call : Session ε (Logged E R) A) (items : List R) : Prop :=
  forall s, exists res s', call s = .ret (res, s') ∧
    s'.handed = s.handed ++ items

namespace Completes

variable {items items' : List R} {call : Session ε (Logged E R) A}
  {next : A -> Session ε (Logged E R) B}

theorem pure (a : A) :
    Completes (Pure.pure a : Session ε (Logged E R) A) [] := by
  intro s
  exact ⟨a, s, rfl, (List.append_nil _).symm⟩

theorem silent {call : E -> Except ε A × E}
    (hcall : forall e, exists a, (call e).1 = Except.ok a) :
    Completes (silent call : Session ε (Logged E R) A) [] := by
  intro s
  rcases hcall s.output with ⟨a, ha⟩
  refine ⟨a, { s with output := (call s.output).2 }, ?_,
    (List.append_nil _).symm⟩
  rw [← ha]
  rfl

theorem handing (r : R) {call : E -> Except ε A × E}
    (hcall : forall e, exists a, (call e).1 = Except.ok a) :
    Completes (handing r call : Session ε (Logged E R) A) [r] := by
  intro s
  rcases hcall s.output with ⟨a, ha⟩
  refine ⟨a, ⟨(call s.output).2, s.handed ++ [r]⟩, ?_, rfl⟩
  rw [← ha]
  rfl

theorem bind_all (hcall : Completes call items)
    (hnext : forall a, HandsAll (next a) items') :
    HandsAll (call >>= next) (items ++ items') := by
  intro s
  rcases hcall s with ⟨a, s₁, hret, hlog⟩
  rcases hnext a s₁ with ⟨res, s₂, hret', hlog'⟩
  refine ⟨res, s₂, ?_, ?_⟩
  · show (call s >>= fun x => ExceptT.bindCont next x.1 x.2) = _
    rw [hret]
    exact hret'
  · rw [hlog', hlog, List.append_assoc]

theorem bind (hcall : Completes call items)
    (hnext : forall a, Completes (next a) items') :
    Completes (call >>= next) (items ++ items') := by
  intro s
  rcases hcall s with ⟨a, s₁, hret, hlog⟩
  rcases hnext a s₁ with ⟨b, s₂, hret', hlog'⟩
  refine ⟨b, s₂, ?_, ?_⟩
  · show (call s >>= fun x => ExceptT.bindCont next x.1 x.2) = _
    rw [hret]
    exact hret'
  · rw [hlog', hlog, List.append_assoc]

theorem forEach {decode : Pull ε D R} {d : D} {rs : List R}
    {stop : Option ε} {body : A -> R -> Session ε (Logged E R) A}
    (hbody : forall a r, Completes (body a r) [r])
    (hreads : Reads decode d rs stop) {rounds : Nat}
    (hrounds : rs.length < rounds) (a : A) :
    HandsAll (forEach decode body rounds a d) rs := by
  induction hreads generalizing rounds a with
  | done call =>
      cases rounds with
      | zero => cases hrounds
      | succ rounds =>
          intro s
          refine ⟨Except.ok (), s, ?_, (List.append_nil _).symm⟩
          show (_ >>= _) = _
          rw [call]
          rfl
  | @fail _ _ e call =>
      cases rounds with
      | zero => cases hrounds
      | succ rounds =>
          intro s
          refine ⟨Except.error e, s, ?_, (List.append_nil _).symm⟩
          show (_ >>= _) = _
          rw [call]
          rfl
  | item call rest ih =>
      cases rounds with
      | zero => cases hrounds
      | succ rounds =>
          intro s
          have hnext := fun a => ih (Nat.lt_of_succ_lt_succ hrounds) a
          rcases (hbody a _).bind_all hnext s with ⟨res, s', hret, hlog⟩
          refine ⟨res, s', ?_, hlog⟩
          rw [← hret]
          show (_ >>= _) = _
          rw [call]
          rfl

end Completes

/-- Fewer items than a call hands are not what it hands. -/
theorem Hands.eq_of_handsAll {call : Session ε (Logged E R) A}
    {items items' : List R} (h : Hands call items)
    (hall : HandsAll call items') (hsub : items.Sublist items')
    (e : E) : items = items' := by
  rcases h ⟨e, []⟩ with ⟨res, s, done, hret, hlog, hpiece, _⟩
  rcases hall ⟨e, []⟩ with ⟨res', s', hret', hlog'⟩
  rw [hret] at hret'
  cases hret'
  have hdone : done = items' := List.append_cancel_left (hlog.symm.trans hlog')
  apply hsub.eq_of_length_le
  rw [← hdone]
  exact hpiece.length_le

end Session
end Lib
end Dbn
