import Dbn.Lib.InputLoop

/-!
# Items released by a stream

A stream is fed and releases each of its items as soon as the item is
complete.  A loop acts on the items that are complete, until none is left or an
action fails.  Whatever the actions do, each item is acted on once, in order.
-/

namespace Dbn
namespace Lib

variable {α ε H S : Type}

/-- The items of a stream, so many of which are complete after some bytes. -/
structure Release (α : Type) where
  items : List α
  complete : Nat -> Nat
  complete_le (n : Nat) : complete n ≤ items.length

namespace Release

/-- The items from the one at `k` up to the one at `k'`. -/
def slice (q : Release α) (k k' : Nat) : List α :=
  (q.items.take k').drop k

variable (q : Release α) {k k' : Nat}

theorem slice_self (k : Nat) : q.slice k k = [] :=
  List.drop_take_self

theorem slice_cons (hk : k < k') (h : k < q.items.length) :
    q.slice k k' = q.items[k] :: q.slice (k + 1) k' := by
  unfold slice
  rw [← List.getElem_cons_drop (by rw [List.length_take]; omega),
    List.getElem_take]

theorem slice_succ (hk : k ≤ k') (h : k' < q.items.length) :
    q.slice k (k' + 1) = q.slice k k' ++ [q.items[k']] := by
  unfold slice
  rw [List.take_succ_eq_append_getElem h, List.drop_append_of_le_length]
  rw [List.length_take, Nat.min_eq_left (Nat.le_of_lt h)]
  exact hk

theorem take_append_slice (h : k ≤ k') :
    q.items.take k ++ q.slice k k' = q.items.take k' := by
  unfold slice
  rw [← Nat.min_eq_left h, ← List.take_take, Nat.min_eq_left h,
    List.take_append_drop]

end Release

/-- What a round of a loop does. -/
inductive Turn (S ε : Type) where
  | again (s : S)
  | done (res : Res ε Unit) (s : S)

/-- After a call that may fail. -/
def Turn.after (out : Res ε Unit × S) : Turn S ε :=
  match out.1 with
  | Res.ok () => .again out.2
  | res => .done res out.2

/-- `loop { .. }`, for a number of rounds. -/
def pump (turn : S -> Outcome (Turn S ε)) : Nat -> LoopM S ε
  | 0, _ => .timeout
  | rounds + 1, s =>
      match turn s with
      | .timeout => .timeout
      | .panic p => .panic p
      | .ret (.again s) => pump turn rounds s
      | .ret (.done res s) => .ret (res, s)

/-- The error of a call that failed. -/
def Res.errors {α : Type} : Res ε α -> List ε
  | err e => [e]
  | _ => []

/-!
## Acting on items
-/

/-- Every item is acted on, one after the other; these are the errors. -/
inductive Tried (act : α -> WriteM H ε Unit) :
    List α -> H -> List ε -> H -> Prop where
  | nil {h : H} : Tried act [] h [] h
  | ok {a : α} {as : List α} {h h' h'' : H} {es : List ε}
      (call : act a h = (Res.ok (), h')) (rest : Tried act as h' es h'') :
      Tried act (a :: as) h es h''
  | err {a : α} {as : List α} {h h' h'' : H} {e : ε} {es : List ε}
      (call : act a h = (Res.err e, h')) (rest : Tried act as h' es h'') :
      Tried act (a :: as) h (e :: es) h''

namespace Tried

variable {act : α -> WriteM H ε Unit} {as as' : List α} {a : α}
  {h h' h'' : H} {es es' : List ε}

theorem append (first : Tried act as h es h')
    (next : Tried act as' h' es' h'') :
    Tried act (as ++ as') h (es ++ es') h'' := by
  induction first with
  | nil => exact next
  | ok call _ ih => exact Tried.ok call (ih next)
  | err call _ ih => exact Tried.err call (ih next)

/-- The items of a run in two parts. -/
theorem split (tried : Tried act (as ++ as') h es h'') : exists es₁ es₂ h',
    Tried act as h es₁ h' ∧ Tried act as' h' es₂ h'' ∧ es = es₁ ++ es₂ := by
  induction as generalizing h es with
  | nil => exact ⟨[], es, h, nil, tried, rfl⟩
  | cons a rest ih =>
      cases tried with
      | ok call tried =>
          rcases ih tried with ⟨es₁, es₂, h', first, next, heq⟩
          exact ⟨es₁, es₂, h', ok call first, next, heq⟩
      | err call tried =>
          rcases ih tried with ⟨es₁, es₂, h', first, next, rfl⟩
          exact ⟨_, es₂, h', err call first, next, rfl⟩

/-- One action that does not panic. -/
theorem single {res : Res ε Unit} (call : act a h = (res, h'))
    (hpanic : ¬ res.IsPanic) : Tried act [a] h res.errors h' := by
  cases res with
  | ok u => exact Tried.ok call Tried.nil
  | err e => exact Tried.err call Tried.nil
  | panic p => exact absurd (Res.panic_isPanic p) hpanic

/-- When every action succeeds, the last state is that of a fold. -/
theorem foldl {f : H -> α -> H}
    (hact : forall a, a ∈ as -> forall h, act a h = (Res.ok (), f h a))
    (tried : Tried act as h es h') : es = [] ∧ h' = as.foldl f h := by
  induction tried with
  | nil => exact ⟨rfl, rfl⟩
  | ok call _ ih =>
      rw [List.forall_mem_cons] at hact
      rw [hact.1] at call
      cases call
      exact ih hact.2
  | err call _ _ =>
      rw [hact _ List.mem_cons_self] at call
      cases call

/-- What is seen of the states follows from the items that were tried. -/
theorem foldl_view {V : Type} {P : H -> Prop} {view : H -> V}
    {step : V -> α -> V}
    (hstep : forall a, a ∈ as -> forall h res h', act a h = (res, h') ->
      ¬ res.IsPanic -> P h -> P h' ∧ view h' = step (view h) a)
    (tried : Tried act as h es h') (hP : P h) :
    P h' ∧ view h' = as.foldl step (view h) := by
  induction tried with
  | nil => exact ⟨hP, rfl⟩
  | ok call _ ih =>
      rw [List.forall_mem_cons] at hstep
      rcases hstep.1 _ _ _ call (Res.ok_not_isPanic _) hP with ⟨hP', hview⟩
      rw [List.foldl_cons, ← hview]
      exact ih hstep.2 hP'
  | err call _ ih =>
      rw [List.forall_mem_cons] at hstep
      rcases hstep.1 _ _ _ call (Res.err_not_isPanic _) hP with ⟨hP', hview⟩
      rw [List.foldl_cons, ← hview]
      exact ih hstep.2 hP'

/-- The same actions on items that are named otherwise. -/
theorem map {β : Type} {act' : β -> WriteM H ε Unit} {f : α -> β}
    (hact : forall a h, act' (f a) h = act a h)
    (tried : Tried act as h es h') :
    Tried act' (as.map f) h es h' := by
  induction tried with
  | nil => exact Tried.nil
  | ok call _ ih => exact Tried.ok ((hact _ _).trans call) ih
  | err call _ ih => exact Tried.err ((hact _ _).trans call) ih

end Tried

/-!
## The loop over a stream
-/

/--
A loop over states that hold a stream up to some byte and of which so many
items were taken; it acts on an output of theirs.
-/
structure Release.Serves (q : Release α) (turn : S -> Outcome (Turn S ε))
    (act : α -> WriteM H ε Unit) (out : S -> H)
    (holds : Nat -> Nat -> S -> Prop) : Prop where
  taken_le : forall n k s, holds n k s -> k ≤ q.complete n
  item : forall n k s a, holds n k s -> k < q.complete n ->
    q.items[k]? = some a -> exists s',
      turn s = .ret (.after ((act a (out s)).1, s')) ∧
      out s' = (act a (out s)).2 ∧ holds n (k + 1) s'
  more : forall n k s, holds n k s -> k = q.complete n -> exists s',
    turn s = .ret (.done (Res.ok ()) s') ∧ out s' = out s ∧ holds n k s'

namespace Release.Serves

variable {q : Release α} {turn : S -> Outcome (Turn S ε)}
  {act : α -> WriteM H ε Unit} {out : S -> H}
  {holds : Nat -> Nat -> S -> Prop}

/--
A run of the loop acts on the items from `k` on, up to the one that fails or
up to the last one that is complete.
-/
theorem pump (h : q.Serves turn act out holds) {n k : Nat} {s : S}
    (hs : holds n k s) {rounds : Nat} (hrounds : q.complete n < k + rounds) :
    exists res s' k', Lib.pump turn rounds s = .ret (res, s') ∧
      holds n k' s' ∧ k ≤ k' ∧
      (¬ res.IsPanic ->
        Tried act (q.slice k k') (out s) res.errors (out s')) ∧
      (res = Res.ok () -> k' = q.complete n) ∧
      (res ≠ Res.ok () -> exists j a h, k' = j + 1 ∧ k ≤ j ∧
        q.items[j]? = some a ∧ Tried act (q.slice k j) (out s) [] h ∧
        act a h = (res, out s')) := by
  induction rounds generalizing k s with
  | zero =>
      have hle := h.taken_le n k s hs
      omega
  | succ rounds ih =>
      unfold Lib.pump
      rcases Nat.lt_or_eq_of_le (h.taken_le n k s hs) with hlt | heq
      swap
      · rcases h.more n k s hs heq with ⟨s', hturn, hout, hs'⟩
        refine ⟨Res.ok (), s', k, by rw [hturn], hs', Nat.le_refl k, ?_,
          fun _ => heq, fun hne => absurd rfl hne⟩
        intro _
        rw [hout, q.slice_self]
        exact Tried.nil
      have hk : k < q.items.length := Nat.lt_of_lt_of_le hlt (q.complete_le n)
      rcases h.item n k s q.items[k] hs hlt (List.getElem?_eq_getElem hk) with
        ⟨s', hturn, hout, hs'⟩
      have hfirst : q.slice k (k + 1) = [q.items[k]] := by
        rw [q.slice_cons (Nat.lt_succ_self k) hk, q.slice_self]
      generalize hcall : act q.items[k] (out s) = call at hturn hout
      rcases call with ⟨res, h'⟩
      have hfailed : exists j a h, k + 1 = j + 1 ∧ k ≤ j ∧
          q.items[j]? = some a ∧ Tried act (q.slice k j) (out s) [] h ∧
          act a h = (res, out s') := by
        refine ⟨k, q.items[k], out s, rfl, Nat.le_refl k,
          List.getElem?_eq_getElem hk, ?_, ?_⟩
        · rw [q.slice_self]
          exact Tried.nil
        · rw [hcall, hout]
      cases res with
      | ok u =>
          rcases ih hs' (by omega) with
            ⟨res, s'', k', hpump, hs'', hle, htried, hok, hfail⟩
          refine ⟨res, s'', k', by rw [hturn]; exact hpump, hs'', by omega, ?_,
            hok, ?_⟩
          swap
          · intro hne
            rcases hfail hne with ⟨j, a, h'', hj, hle', ha, hbefore, hlast⟩
            refine ⟨j, a, h'', hj, Nat.le_of_succ_le hle', ha, ?_, hlast⟩
            rw [q.slice_cons hle' hk]
            rw [hout] at hbefore
            exact Tried.ok hcall hbefore
          intro hpanic
          have hlt' := Nat.lt_of_lt_of_le (Nat.lt_succ_self k) hle
          rw [q.slice_cons hlt' hk]
          rw [hout] at htried
          exact Tried.ok hcall (htried hpanic)
      | err e =>
          refine ⟨Res.err e, s', k + 1, by rw [hturn]; rfl, hs', by omega, ?_,
            (fun hok => by cases hok), fun _ => hfailed⟩
          intro hpanic
          rw [hfirst, hout]
          exact Tried.single hcall hpanic
      | panic p =>
          refine ⟨Res.panic p, s', k + 1, by rw [hturn]; rfl, hs', by omega,
            fun hpanic => absurd (Res.panic_isPanic p) hpanic,
            (fun hok => by cases hok), fun _ => hfailed⟩

end Release.Serves
end Lib
end Dbn
