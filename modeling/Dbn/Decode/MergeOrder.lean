import Dbn.Decode.MergeRuns

/-!
# The order of merged records

The calls of a merging decoder return the merge of the streams of its
decoders: sorted by timestamp, the lower decoder first on a tie, and every
stream in its own order.  Hints change which decoders have been read from and
not what is returned.
-/

namespace Dbn
namespace Merge
namespace RecordDecoder

open Lib

variable {D Q R : Type} [DecodeRecordRef D R] [Record R]
  [PriorityQueue Q StreamHead]

/--
A number of successive calls, each with its result and the decoder after it.
-/
def calls : Nat -> RecordDecoder D Q ->
    Outcome (List (Except Error (Option R) × RecordDecoder D Q))
  | 0, _ => .ret []
  | n + 1, m => do
      let (res, m) ← m.decodeRecordRef
      let rest ← calls n m
      .ret ((res, m) :: rest)

/-- A call returns a record of the merge, or nothing after the last one. -/
def ReturnsNext (next : Option (Nat × R))
    (call : Except Error (Option R) × RecordDecoder D Q) : Prop :=
  match next with
  | some (i, x) =>
      call.1 = Except.ok (some x) ∧ call.2.peekDecoderIdx = some i ∧
        call.2.lastRecord = .ret (some x)
  | none => call.1 = Except.ok none ∧ call.2.peekDecoderIdx = none

/-- Any number of calls return these records and then nothing. -/
def Returns (m : RecordDecoder D Q) (out : List (Nat × R)) : Prop :=
  forall n, exists cs, m.calls n = .ret cs ∧ cs.length = n ∧
    forall (k : Nat) (c : Except Error (Option R) × RecordDecoder D Q),
      cs[k]? = some c -> ReturnsNext out[k]? c

section Runs

variable [LawfulPriorityQueue Q StreamHead] {m m' : RecordDecoder D Q}
  {heads heads' : Nat -> Option IndexTs} {todo todo' : Nat -> List R}
  {stops : Nat -> Option Error}

omit [LawfulPriorityQueue Q StreamHead] in
/-- Hints stay lower bounds when a record is returned. -/
theorem HintsBelow.update (h : HintsBelow heads todo)
    (hresolves : Resolves heads heads') {i : Nat} {tail : List R}
    (hopened : forall ts, heads' i ≠ some (.hint ts)) :
    HintsBelow heads' (Function.update todo i tail) := by
  intro j ts x rest hhead hrest
  by_cases hij : j = i
  · rw [hij] at hhead
    exact absurd hhead (hopened ts)
  · rw [Function.update_of_ne hij] at hrest
    exact h j ts x rest ((hresolves j).2 ts hhead) hrest

omit [LawfulPriorityQueue Q StreamHead] in
/-- A call returns the next record of the merge. -/
theorem Answers.merges {res : Except Error (Option R)}
    {out : List (Nat × R)} (h : Answers heads todo stops m' heads' res todo')
    (hstops : forall i, stops i = Option.none) (hbelow : HintsBelow heads todo)
    (hresolves : Resolves heads heads')
    (hmerges : Merges Record.rawIndexTs todo out) :
    ReturnsNext out[0]? (res, m') ∧ HintsBelow heads' todo' ∧
      Merges Record.rawIndexTs todo' out.tail := by
  cases h with
  | none empty top =>
      cases hmerges with
      | done _ =>
          exact ⟨⟨rfl, top⟩, hbelow.resolves hresolves, Merges.done empty⟩
      | pick head _ _ =>
          rw [empty] at head
          cases head
  | record head leads opened top last =>
      cases hmerges with
      | done empty =>
          rw [empty] at head
          cases head
      | pick head' leads' tail =>
          rcases Merges.leads_unique head (leads hbelow) head' leads' with
            ⟨hi, hx, hrest⟩
          cases hi
          cases hx
          cases hrest
          exact ⟨⟨rfl, top, last⟩, hbelow.update hresolves opened, tail⟩
  | error _ stop _ _ _ =>
      rw [hstops] at stop
      cases stop

/-- The calls return the merge of the streams that are left. -/
theorem Remaining.returns {out : List (Nat × R)}
    (h : Remaining m heads todo stops) (hstops : forall i, stops i = none)
    (hbelow : HintsBelow heads todo)
    (hmerges : Merges Record.rawIndexTs todo out) : Returns m out := by
  intro n
  induction n generalizing m heads todo out with
  | zero =>
      refine ⟨[], rfl, rfl, ?_⟩
      intro k c hc
      cases hc
  | succ n ih =>
      rcases h.decodeRecordRef with
        ⟨res, m', heads', todo', hcall, hresolves, hremaining, hanswers⟩
      rcases hanswers.merges hstops hbelow hresolves hmerges with
        ⟨hnext, hbelow', hmerges'⟩
      rcases ih hremaining hbelow' hmerges' with ⟨cs, hcalls, hlen, hall⟩
      refine ⟨(res, m') :: cs, ?_, by rw [List.length_cons, hlen], ?_⟩
      · rw [calls, hcall, Outcome.ret_bind]
        dsimp only
        rw [hcalls, Outcome.ret_bind]
      · intro k c hc
        cases k with
        | zero =>
            cases hc
            exact hnext
        | succ k =>
            rw [List.getElem?_cons_succ] at hc
            have hlater := hall k c hc
            rwa [List.getElem?_tail] at hlater

end Runs

/-!
## The merge of decoders that do not fail
-/

section Decoders

variable {decoders : List D} {streams : List (List R)}

omit [DecodeRecordRef D R] [PriorityQueue Q StreamHead] in
theorem stopAt_none (i : Nat) :
    stopAt (decoders.map (fun _ => none)) i = none := by
  unfold stopAt
  rw [List.getD_eq_getElem?_getD, List.getElem?_map]
  cases decoders[i]? <;> rfl

omit [PriorityQueue Q StreamHead] [Record R] in
theorem streams_of_yields
    (h : List.Forall₂ (fun d s => Yields d s none) decoders streams) :
    Streams decoders streams (decoders.map (fun _ => none)) := by
  refine ⟨h.length_eq.symm, List.length_map _, ?_⟩
  intro i d hd
  rw [stopAt_none]
  rcases List.getElem?_eq_some_iff.mp hd with ⟨hi, hget⟩
  have hi' : i < streams.length := by
    rw [← h.length_eq]
    exact hi
  have hyields := List.forall₂_iff_get.mp h |>.2 i hi hi'
  unfold streamAt
  rw [List.getD_eq_getElem?_getD, List.getElem?_eq_getElem hi', ← hget]
  exact hyields

omit [PriorityQueue Q StreamHead] [DecodeRecordRef D R] [Record R] in
theorem streamAt_pairwise {P : R -> R -> Prop}
    (h : forall s, s ∈ streams -> s.Pairwise P) (i : Nat) :
    (streamAt streams i).Pairwise P := by
  unfold streamAt
  rw [List.getD_eq_getElem?_getD]
  cases hget : streams[i]? with
  | none => exact List.Pairwise.nil
  | some s => exact h s (List.mem_of_getElem? hget)

omit [PriorityQueue Q StreamHead] [DecodeRecordRef D R] in
/-- The streams of a list of decoders have a merge. -/
theorem exists_merge_streamAt (streams : List (List R)) :
    exists out, Merges Record.rawIndexTs (streamAt streams) out := by
  apply Merges.exists_merge _ (Finset.range streams.length)
  intro i hi
  rw [Finset.mem_range, Nat.not_lt] at hi
  exact streamAt_of_ge hi

variable [LawfulPriorityQueue Q StreamHead]

/-- A decoder that was made with `new`. -/
theorem new_returns
    (hyields : List.Forall₂ (fun d s => Yields d s none) decoders streams)
    (hne : decoders ≠ []) {out : List (Nat × R)}
    (hmerges : Merges Record.rawIndexTs (streamAt streams) out) :
    exists m : RecordDecoder D Q, new decoders = .ret (Except.ok m) ∧
      Returns m out := by
  have hstreams := streams_of_yields hyields
  rcases hstreams.new (Q := Q) hne with ⟨e, i, _, _, hstop⟩ |
    ⟨m, heads, hnew, hremaining, _, hheads⟩
  · rw [stopAt_none] at hstop
    cases hstop
  · refine ⟨m, hnew, hremaining.returns stopAt_none ?_ hmerges⟩
    intro i ts x tail hhint
    exact absurd hhint (hheads i ts)

/-- A decoder that was made with hints. -/
theorem withHints_returns
    (hyields : List.Forall₂ (fun d s => Yields d s none) decoders streams)
    (hne : decoders ≠ []) {hints : List Nat}
    (hlen : hints.length = decoders.length)
    (hbelow : forall (i : Nat) ts x tail, hints[i]? = some ts ->
      streamAt streams i = x :: tail -> ts ≤ Record.rawIndexTs x)
    {out : List (Nat × R)}
    (hmerges : Merges Record.rawIndexTs (streamAt streams) out) :
    exists m : RecordDecoder D Q, withHints decoders hints = Except.ok m ∧
      Returns m out := by
  have hstreams := streams_of_yields hyields
  rcases hstreams.withHints (Q := Q) hne hlen with ⟨m, hnew, hremaining, _⟩
  refine ⟨m, hnew, hremaining.returns stopAt_none ?_ hmerges⟩
  intro i ts x tail hhint hrest
  rcases Option.map_eq_some_iff.mp hhint with ⟨ts', hts, heq⟩
  cases heq
  exact hbelow i ts x tail hts hrest

end Decoders

/--
For decoders that do not fail, with streams sorted by timestamp, the calls of
the merging decoder return the records sorted by timestamp, on a tie those of
the lower decoder first, each stream as a whole and in its order, and nothing
after that.
-/
theorem decodeRecordRef_merges (Q : Type) [PriorityQueue Q StreamHead]
    [LawfulPriorityQueue Q StreamHead] {decoders : List D}
    {streams : List (List R)} (hne : decoders ≠ [])
    (hyields : List.Forall₂ (fun d s => Yields d s none) decoders streams)
    (hsorted : forall s, s ∈ streams ->
      s.Pairwise (fun a b => Record.rawIndexTs a ≤ Record.rawIndexTs b)) :
    exists (m : RecordDecoder D Q) (out : List (Nat × R)),
      new decoders = .ret (Except.ok m) ∧ Returns m out ∧
      out.Pairwise (fun a b =>
        Record.rawIndexTs a.2 ≤ Record.rawIndexTs b.2 ∧
          (Record.rawIndexTs a.2 = Record.rawIndexTs b.2 -> a.1 ≤ b.1)) ∧
      forall i, (out.filter (fun e => e.1 = i)).map Prod.snd =
        streamAt streams i := by
  rcases exists_merge_streamAt streams with ⟨out, hmerges⟩
  rcases new_returns (Q := Q) hyields hne hmerges with ⟨m, hnew, hreturns⟩
  refine ⟨m, out, hnew, hreturns, ?_, hmerges.filter_eq⟩
  apply (hmerges.pairwise (streamAt_pairwise hsorted)).imp
  intro a b hrank
  exact Prod.Lex.toLex_le_toLex'.mp hrank

/-- A record that has a timestamp and an identifier. -/
structure Tick where
  ts : Nat
  id : Nat
deriving DecidableEq

instance : Record Tick where
  rawIndexTs := Tick.ts

/-- A decoder of a list; `next` is the index of the next record. -/
structure VecStream (R : Type) where
  vec : List R
  next : Nat

instance : DecodeRecordRef (VecStream R) R where
  decodeRecordRef d :=
    .ret (Except.ok d.vec[d.next]?, { d with next := d.next + 1 })
  lastRecord d := d.vec[d.next - 1]?

theorem decodeRecordRef_merges_ticks :
    exists (m : RecordDecoder (VecStream Tick) (SortedQueue StreamHead))
        (out : List (Nat × Tick)),
      new [⟨[⟨10, 0⟩, ⟨12, 1⟩], 0⟩, ⟨[], 0⟩, ⟨[⟨10, 2⟩], 0⟩] =
        .ret (Except.ok m) ∧ Returns m out ∧
      out.Pairwise (fun a b =>
        Record.rawIndexTs a.2 ≤ Record.rawIndexTs b.2 ∧
          (Record.rawIndexTs a.2 = Record.rawIndexTs b.2 -> a.1 ≤ b.1)) ∧
      forall i, (out.filter (fun e => e.1 = i)).map Prod.snd =
        streamAt [[⟨10, 0⟩, ⟨12, 1⟩], [], [⟨10, 2⟩]] i :=
  decodeRecordRef_merges (SortedQueue StreamHead) (by simp)
    (.cons (.record rfl rfl (.record rfl rfl (.done rfl)))
      (.cons (.done rfl) (.cons (.record rfl rfl (.done rfl)) .nil)))
    (by decide)

/-!
## Hints
-/

/-- What can be told apart from a sequence of calls. -/
def trace (cs : List (Except Error (Option R) × RecordDecoder D Q)) :
    List (Except Error (Option R) × Option Nat) :=
  cs.map (fun c => (c.1, c.2.peekDecoderIdx))

omit [Record R] in
theorem ReturnsNext.trace_eq {next : Option (Nat × R)}
    {c c' : Except Error (Option R) × RecordDecoder D Q}
    (h : ReturnsNext next c) (h' : ReturnsNext next c') :
    (c.1, c.2.peekDecoderIdx) = (c'.1, c'.2.peekDecoderIdx) := by
  cases next with
  | none =>
      rw [h.1, h.2, h'.1, h'.2]
  | some next =>
      rw [h.1, h.2.1, h'.1, h'.2.1]

theorem Returns.trace_eq {m m' : RecordDecoder D Q} {out : List (Nat × R)}
    (h : Returns m out) (h' : Returns m' out) (n : Nat) :
    exists cs cs', m.calls n = .ret cs ∧ m'.calls n = .ret cs' ∧
      trace cs = trace cs' := by
  rcases h n with ⟨cs, hcalls, hlen, hall⟩
  rcases h' n with ⟨cs', hcalls', hlen', hall'⟩
  refine ⟨cs, cs', hcalls, hcalls', ?_⟩
  unfold trace
  apply List.ext_getElem
  · rw [List.length_map, List.length_map, hlen, hlen']
  · intro k hk hk'
    rw [List.length_map] at hk hk'
    rw [List.getElem_map, List.getElem_map]
    exact (hall k _ (List.getElem?_eq_getElem hk)).trace_eq
      (hall' k _ (List.getElem?_eq_getElem hk'))

/--
With hints that are lower bounds for the first records of their streams, a
merging decoder returns the same records, from the same decoders, as without
hints.
-/
theorem withHints_trace_eq_new (Q : Type) [PriorityQueue Q StreamHead]
    [LawfulPriorityQueue Q StreamHead] {decoders : List D}
    {streams : List (List R)} (hne : decoders ≠ [])
    (hyields : List.Forall₂ (fun d s => Yields d s none) decoders streams)
    {hints : List Nat} (hlen : hints.length = decoders.length)
    (hbelow : forall (i : Nat) ts x tail, hints[i]? = some ts ->
      streams[i]? = some (x :: tail) -> ts ≤ Record.rawIndexTs x) :
    exists m m' : RecordDecoder D Q, new decoders = .ret (Except.ok m) ∧
      withHints decoders hints = Except.ok m' ∧
      forall n, exists cs cs', m.calls n = .ret cs ∧ m'.calls n = .ret cs' ∧
        trace cs = trace cs' := by
  rcases exists_merge_streamAt streams with ⟨out, hmerges⟩
  have hbelow' : forall (i : Nat) ts x tail, hints[i]? = some ts ->
      streamAt streams i = x :: tail -> ts ≤ Record.rawIndexTs x := by
    intro i ts x tail hts hstream
    apply hbelow i ts x tail hts
    unfold streamAt at hstream
    rw [List.getD_eq_getElem?_getD] at hstream
    cases hget : streams[i]? with
    | none =>
        rw [hget] at hstream
        cases hstream
    | some s =>
        rw [hget] at hstream
        exact congrArg some hstream
  rcases new_returns (Q := Q) hyields hne hmerges with ⟨m, hnew, hreturns⟩
  rcases withHints_returns (Q := Q) hyields hne hlen hbelow' hmerges with
    ⟨m', hnew', hreturns'⟩
  exact ⟨m, m', hnew, hnew', hreturns.trace_eq hreturns'⟩

theorem withHints_trace_eq_new_ticks :
    exists m m' : RecordDecoder (VecStream Tick) (SortedQueue StreamHead),
      new [⟨[⟨10, 0⟩, ⟨12, 1⟩], 0⟩, ⟨[], 0⟩, ⟨[⟨10, 2⟩], 0⟩] =
        .ret (Except.ok m) ∧
      withHints [⟨[⟨10, 0⟩, ⟨12, 1⟩], 0⟩, ⟨[], 0⟩, ⟨[⟨10, 2⟩], 0⟩]
        [10, 50, 3] = Except.ok m' ∧
      forall n, exists cs cs', m.calls n = .ret cs ∧ m'.calls n = .ret cs' ∧
        trace cs = trace cs' :=
  withHints_trace_eq_new (SortedQueue StreamHead) (by simp)
    (.cons (.record rfl rfl (.record rfl rfl (.done rfl)))
      (.cons (.done rfl) (.cons (.record rfl rfl (.done rfl)) .nil)))
    rfl (by
      intro i ts x tail hts hstream
      match i, hts, hstream with
      | 0, rfl, rfl => decide
      | 2, rfl, rfl => decide)

end RecordDecoder
end Merge
end Dbn
