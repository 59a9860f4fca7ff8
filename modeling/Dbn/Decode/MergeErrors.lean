import Dbn.Decode.MergeEntries

/-!
# Errors while merging

When a decoder fails its head has already been taken from the heap, so the
record on top of the heap has not been returned.  The next call takes it from
the heap as if it had been.
-/

namespace Dbn
namespace Merge
namespace RecordDecoder

open Lib

variable {D Q R : Type} [DecodeRecordRef D R] [Record R]
  [PriorityQueue Q StreamHead]

/-- The record that a call returns from the stream of a decoder. -/
def recordFrom (j : Nat)
    (call : Except Error (Option R) × RecordDecoder D Q) : Option R :=
  match call.1 with
  | Except.ok (some x) =>
      if call.2.peekDecoderIdx = some j then some x else none
  | _ => none

/-- The records that some calls return from the stream of a decoder. -/
def returnedFrom (j : Nat)
    (cs : List (Except Error (Option R) × RecordDecoder D Q)) : List R :=
  cs.filterMap (recordFrom j)

/-- A call fails and leaves a record of this decoder on top of the heap. -/
def Skips (j : Nat) (call : Except Error (Option R) × RecordDecoder D Q) :
    Prop :=
  (exists e, call.1 = Except.error e) ∧
    exists ts, PriorityQueue.peek call.2.minHeap = some ⟨.real ts, j⟩

/-!
## One call
-/

section Calls

variable [LawfulPriorityQueue Q StreamHead] {m m' : RecordDecoder D Q}
  {heads heads' : Nat -> Option IndexTs} {todo todo' : Nat -> List R}
  {stops : Nat -> Option Error} {res : Except Error (Option R)}

omit [DecodeRecordRef D R] [Record R] [LawfulPriorityQueue Q StreamHead] in
/-- The record on top of the heap is all that can go missing. -/
theorem dropTop_eq (m : RecordDecoder D Q) (todo : Nat -> List R) (j : Nat) :
    (dropTop m todo j = todo j ∧
      forall ts, PriorityQueue.peek m.minHeap ≠ some ⟨.real ts, j⟩) ∨
    (dropTop m todo j = (todo j).tail ∧
      exists ts, PriorityQueue.peek m.minHeap = some ⟨.real ts, j⟩) := by
  unfold dropTop
  cases hpeek : PriorityQueue.peek m.minHeap with
  | none =>
      left
      exact ⟨rfl, fun ts h => by cases h⟩
  | some head =>
      rcases head with ⟨ts, i⟩
      cases ts with
      | hint ts =>
          left
          exact ⟨rfl, fun ts h => by cases h⟩
      | real ts =>
          by_cases hij : j = i
          · right
            cases hij
            exact ⟨Function.update_self _ _ _, ts, rfl⟩
          · left
            refine ⟨Function.update_of_ne hij _ _, ?_⟩
            intro ts' h
            cases h
            exact hij rfl

/--
A call returns the next record of a stream, leaves the stream, or skips its
next record.
-/
theorem Answers.accounts (h : Answers heads todo stops m' heads' res todo')
    (j : Nat) :
    (¬ Skips j (res, m') ∧
      todo j = (recordFrom j (res, m')).toList ++ todo' j) ∨
    (Skips j (res, m') ∧ recordFrom j (res, m') = Option.none ∧
      (todo' j).length < (todo j).length) := by
  cases h with
  | none empty top =>
      left
      refine ⟨?_, rfl⟩
      intro hskips
      rcases hskips.1 with ⟨e, he⟩
      cases he
  | @record i x tail head leads opened top last =>
      left
      constructor
      · intro hskips
        rcases hskips.1 with ⟨e, he⟩
        cases he
      · unfold recordFrom
        dsimp only
        rw [top]
        by_cases hij : j = i
        · rw [hij, head, if_pos rfl, Function.update_self]
          rfl
        · have hne : ¬ some i = some j := by
            intro heq
            cases heq
            exact hij rfl
          rw [if_neg hne, Function.update_of_ne hij]
          rfl
  | error empty stop live closed tracks =>
      rcases dropTop_eq m' todo j with ⟨hsame, hpeek⟩ | ⟨htail, ts, hpeek⟩
      · left
        refine ⟨?_, hsame.symm⟩
        intro hskips
        rcases hskips.2 with ⟨ts, hts⟩
        exact hpeek ts hts
      · right
        refine ⟨⟨⟨_, rfl⟩, ts, hpeek⟩, rfl, ?_⟩
        rcases tracks.top hpeek with ⟨x, tail, hrest, _, _⟩
        rw [htail, hrest]
        exact Nat.lt_succ_self _

omit [LawfulPriorityQueue Q StreamHead] [Record R] [DecodeRecordRef D R] in
theorem length_dropTop_le (m : RecordDecoder D Q) (todo : Nat -> List R)
    (j : Nat) : (dropTop m todo j).length ≤ (todo j).length := by
  rcases dropTop_eq m todo j with ⟨hsame, _⟩ | ⟨htail, _⟩
  · rw [hsame]
  · rw [htail, List.length_tail]
    exact Nat.sub_le _ _

/-- The records that are left and the decoders that can still be read from. -/
def work (s : Finset Nat) (heads : Nat -> Option IndexTs)
    (todo : Nat -> List R) : Nat :=
  Merges.size s todo + (s.filter (fun i => (heads i).isSome)).card

/-- Streams and heads outside of a finite set are empty. -/
def Within (s : Finset Nat) (heads : Nat -> Option IndexTs)
    (todo : Nat -> List R) : Prop :=
  forall i, i ∉ s -> heads i = none ∧ todo i = []

omit [LawfulPriorityQueue Q StreamHead] in
/-- Nothing is added to a stream. -/
theorem Answers.length_le (h : Answers heads todo stops m' heads' res todo')
    (j : Nat) : (todo' j).length ≤ (todo j).length := by
  cases h with
  | none => exact Nat.le_refl _
  | @record i x tail head leads opened top last =>
      by_cases hij : j = i
      · rw [hij, head, Function.update_self]
        exact Nat.le_succ _
      · rw [Function.update_of_ne hij]
  | error empty stop live closed tracks => exact length_dropTop_le m' todo j

omit [LawfulPriorityQueue Q StreamHead] in
theorem Answers.within {s : Finset Nat}
    (h : Answers heads todo stops m' heads' res todo')
    (hresolves : Resolves heads heads') (hwithin : Within s heads todo) :
    Within s heads' todo' := by
  intro i hi
  rcases hwithin i hi with ⟨hhead, htodo⟩
  refine ⟨(hresolves i).1 hhead, ?_⟩
  have hle := h.length_le i
  rw [htodo] at hle
  exact List.eq_nil_of_length_eq_zero (Nat.le_zero.mp hle)

omit [DecodeRecordRef D R] [Record R] [PriorityQueue Q StreamHead]
  [LawfulPriorityQueue Q StreamHead] in
theorem Resolves.filter_subset (h : Resolves heads heads') (s : Finset Nat) :
    s.filter (fun i => (heads' i).isSome) ⊆
      s.filter (fun i => (heads i).isSome) := by
  intro i hi
  rw [Finset.mem_filter] at hi ⊢
  refine ⟨hi.1, ?_⟩
  cases hhead : heads i with
  | none =>
      rw [(h i).1 hhead] at hi
      cases hi.2
  | some ts => rfl

omit [LawfulPriorityQueue Q StreamHead] in
/-- Every call makes progress until all records have been returned. -/
theorem Answers.work_lt {s : Finset Nat}
    (h : Answers heads todo stops m' heads' res todo')
    (hresolves : Resolves heads heads') (hwithin : Within s heads todo) :
    work s heads' todo' < work s heads todo ∨ forall i, todo i = [] := by
  have hcard := Finset.card_le_card (hresolves.filter_subset s)
  unfold work
  cases h with
  | none empty top => exact Or.inr empty
  | @record i x tail head leads opened top last =>
      left
      have hi : i ∈ s := by
        by_contra hnot
        rw [(hwithin i hnot).2] at head
        cases head
      exact Nat.add_lt_add_of_lt_of_le (Merges.size_update hi head) hcard
  | @error i e empty stop live closed tracks =>
      left
      have hsize : Merges.size s (dropTop m' todo) ≤ Merges.size s todo :=
        Finset.sum_le_sum (fun j _ => length_dropTop_le m' todo j)
      apply Nat.add_lt_add_of_le_of_lt hsize
      apply Finset.card_lt_card
      refine ⟨hresolves.filter_subset s, ?_⟩
      intro hsubset
      have hi : i ∈ s := by
        by_contra hnot
        exact live (hwithin i hnot).1
      have hmem : i ∈ s.filter (fun i => (heads i).isSome) := by
        rw [Finset.mem_filter]
        exact ⟨hi, Option.isSome_iff_ne_none.mpr live⟩
      have hclosed := (Finset.mem_filter.mp (hsubset hmem)).2
      rw [closed] at hclosed
      cases hclosed

end Calls

/-!
## Runs
-/

/-- What the calls return from a stream, and what is left of it. -/
structure Accounts (j : Nat)
    (cs : List (Except Error (Option R) × RecordDecoder D Q))
    (todo todo' : Nat -> List R) : Prop where
  kept : (forall c, c ∈ cs -> ¬ Skips j c) ->
    todo j = returnedFrom j cs ++ todo' j
  bound : (returnedFrom j cs).length + (todo' j).length ≤ (todo j).length
  lost : (exists c, c ∈ cs ∧ Skips j c) ->
    (returnedFrom j cs).length + (todo' j).length < (todo j).length

section Runs

variable [LawfulPriorityQueue Q StreamHead] {m m' : RecordDecoder D Q}
  {heads heads' : Nat -> Option IndexTs} {todo todo' : Nat -> List R}
  {stops : Nat -> Option Error} {res : Except Error (Option R)}

omit [DecodeRecordRef D R] [Record R] [LawfulPriorityQueue Q StreamHead] in
theorem Accounts.nil (j : Nat) (todo : Nat -> List R) :
    Accounts j ([] : List (Except Error (Option R) × RecordDecoder D Q))
      todo todo where
  kept := by
    intro _
    rfl
  bound := by
    rw [returnedFrom, List.filterMap_nil, List.length_nil, Nat.zero_add]
  lost := by
    intro h
    rcases h with ⟨c, hc, _⟩
    cases hc

theorem Accounts.cons {j : Nat} {todo1 : Nat -> List R}
    {cs : List (Except Error (Option R) × RecordDecoder D Q)}
    (hanswers : Answers heads todo stops m' heads' res todo1)
    (h : Accounts j cs todo1 todo') :
    Accounts j ((res, m') :: cs) todo todo' := by
  have hreturned : returnedFrom j ((res, m') :: cs) =
      (recordFrom j (res, m')).toList ++ returnedFrom j cs := by
    unfold returnedFrom
    cases hrec : recordFrom j (res, m') with
    | none => rw [List.filterMap_cons_none hrec]; rfl
    | some x => rw [List.filterMap_cons_some hrec]; rfl
  have hbound := h.bound
  rcases hanswers.accounts j with ⟨hkeeps, htodo⟩ | ⟨hskips, hnone, hlt⟩
  · constructor
    · intro hall
      rw [hreturned, htodo, List.append_assoc,
        ← h.kept (fun c hc => hall c (List.mem_cons_of_mem _ hc))]
    · rw [hreturned, htodo, List.length_append, List.length_append]
      omega
    · intro hex
      rcases hex with ⟨c, hc, hskips⟩
      rcases List.mem_cons.mp hc with heq | hmem
      · rw [heq] at hskips
        exact absurd hskips hkeeps
      · have hlost := h.lost ⟨c, hmem, hskips⟩
        rw [hreturned, htodo, List.length_append, List.length_append]
        omega
  · rw [hnone] at hreturned
    have hlost : (returnedFrom j ((res, m') :: cs)).length +
        (todo' j).length < (todo j).length := by
      rw [hreturned]
      exact Nat.lt_of_le_of_lt hbound hlt
    constructor
    · intro hall
      exact absurd hskips (hall _ List.mem_cons_self)
    · exact Nat.le_of_lt hlost
    · intro _
      exact hlost

/-- Any number of calls, and the streams that are left after them. -/
theorem Remaining.accounts {s : Finset Nat}
    (h : Remaining m heads todo stops) (hwithin : Within s heads todo)
    (n : Nat) :
    exists cs heads' todo', m.calls n = .ret cs ∧
      (work s heads' todo' + n ≤ work s heads todo ∨
        forall i, todo' i = []) ∧
      forall j, Accounts j cs todo todo' := by
  induction n generalizing m heads todo with
  | zero =>
      exact ⟨[], heads, todo, rfl, Or.inl (Nat.le_refl _),
        fun j => Accounts.nil j todo⟩
  | succ n ih =>
      rcases h.decodeRecordRef with
        ⟨res, m1, heads1, todo1, hcall, hresolves, hremaining, hanswers⟩
      rcases ih hremaining (hanswers.within hresolves hwithin) with
        ⟨cs, heads', todo', hcalls, hwork, haccounts⟩
      have hall : forall j, Accounts j ((res, m1) :: cs) todo todo' :=
        fun j => Accounts.cons hanswers (haccounts j)
      refine ⟨(res, m1) :: cs, heads', todo', ?_, ?_, hall⟩
      · rw [calls, hcall, Outcome.ret_bind]
        dsimp only
        rw [hcalls, Outcome.ret_bind]
      · rcases hwork with hwork | hempty
        · rcases hanswers.work_lt hresolves hwithin with hlt | hempty
          · left
            omega
          · right
            intro i
            have hbound := (hall i).bound
            rw [hempty i, List.length_nil] at hbound
            apply List.eq_nil_of_length_eq_zero
            omega
        · exact Or.inr hempty

omit [LawfulPriorityQueue Q StreamHead] in
/-- More calls begin with the same calls. -/
theorem calls_take {n k : Nat}
    {cs : List (Except Error (Option R) × RecordDecoder D Q)}
    (h : m.calls (n + k) = .ret cs) : m.calls n = .ret (cs.take n) := by
  induction n generalizing m cs with
  | zero => rfl
  | succ n ih =>
      rw [Nat.succ_add_eq_add_succ, Nat.add_succ, calls] at h
      rcases Outcome.bind_eq_ret.mp h with ⟨⟨res, m1⟩, hcall, h⟩
      rcases Outcome.bind_eq_ret.mp h with ⟨rest, hrest, h⟩
      cases h
      rw [calls, hcall, Outcome.ret_bind]
      dsimp only
      rw [ih hrest, Outcome.ret_bind]
      rfl

omit [LawfulPriorityQueue Q StreamHead] in
/-- Only finitely many decoders have a head or records. -/
theorem Remaining.exists_within {streams : List (List R)}
    (h : Remaining m heads (streamAt streams) stops) :
    exists s, Within s heads (streamAt streams) := by
  rcases h.tracks with ⟨rest, htracks, _⟩
  refine ⟨Finset.range streams.length ∪
    ((PriorityQueue.toList m.minHeap).map StreamHead.decoderIdx).toFinset, ?_⟩
  intro i hi
  rw [Finset.mem_union, Finset.mem_range, List.mem_toFinset, List.mem_map,
    not_or] at hi
  refine ⟨?_, streamAt_of_ge (Nat.not_lt.mp hi.1)⟩
  cases hhead : heads i with
  | none => rfl
  | some ts =>
      exact absurd ⟨⟨ts, i⟩, (htracks.heap ⟨ts, i⟩).mpr hhead, rfl⟩ hi.2

/-- A stream is returned as a whole unless a call skips one of its records. -/
theorem Remaining.returned_iff {streams : List (List R)}
    (h : Remaining m heads (streamAt streams) stops) (j : Nat) :
    (exists N, forall n, N ≤ n -> exists cs, m.calls n = .ret cs ∧
      returnedFrom j cs = streamAt streams j) <->
    forall n cs c, m.calls n = .ret cs -> c ∈ cs -> ¬ Skips j c := by
  rcases h.exists_within with ⟨s, hwithin⟩
  constructor
  · intro hall n cs c hcalls hc hskips
    rcases hall with ⟨N, hN⟩
    rcases hN (n + N) (Nat.le_add_left N n) with ⟨cs', hcalls', hreturned⟩
    have htake := calls_take hcalls'
    rw [hcalls] at htake
    cases htake
    rcases h.accounts hwithin (n + N) with
      ⟨cs2, heads2, todo2, hcalls2, _, haccounts⟩
    rw [hcalls'] at hcalls2
    cases hcalls2
    have hlost := (haccounts j).lost ⟨c, List.mem_of_mem_take hc, hskips⟩
    rw [hreturned] at hlost
    omega
  · intro hkeeps
    refine ⟨work s heads (streamAt streams), ?_⟩
    intro n hn
    rcases h.accounts hwithin n with
      ⟨cs, heads', todo', hcalls, hwork, haccounts⟩
    refine ⟨cs, hcalls, ?_⟩
    have hkept := (haccounts j).kept (fun c hc => hkeeps n cs c hcalls hc)
    have hempty : todo' j = [] := by
      rcases hwork with hwork | hempty
      · have hzero : work s heads' todo' = 0 := by omega
        by_cases hj : j ∈ s
        · have hle := Finset.single_le_sum
            (f := fun i => (todo' i).length) (fun i _ => Nat.zero_le _) hj
          apply List.eq_nil_of_length_eq_zero
          unfold work Merges.size at hzero
          omega
        · have hbound := (haccounts j).bound
          rw [(hwithin j hj).2, List.length_nil] at hbound
          apply List.eq_nil_of_length_eq_zero
          omega
      · exact hempty j
    rw [hkept, hempty, List.append_nil]

end Runs

/-!
## What the calls skip
-/

section Skipped

variable [LawfulPriorityQueue Q StreamHead] {m m' : RecordDecoder D Q}
  {stops : Nat -> Option Error} {left left' : List (Nat × IndexTs)} {j : Nat}

/-- A call that skips a record has taken the last entry of a failing stream. -/
theorem Follows.discards_of_skips {res : Except Error (Option R)}
    (h : Follows m' stops left') (htakes : Takes stops left (failureOf res) left')
    (hskips : Skips j (res, m')) : Discards stops j left := by
  obtain ⟨⟨e, he⟩, ts, hpeek⟩ := hskips
  dsimp only at he hpeek
  rw [he] at htakes
  obtain ⟨before, f, last, heq, hstop, hlast⟩ := htakes.of_failure
  cases left' with
  | nil =>
      rw [h.peek_eq_none] at hpeek
      cases hpeek
  | cons first after =>
      rcases first with ⟨i, entry⟩
      rw [h.top] at hpeek
      cases hpeek
      exact ⟨before, f, last, ts, after, heq, hstop, hlast⟩

/-- Only discarded records are skipped. -/
theorem Follows.discards {n : Nat}
    {cs : List (Except Error (Option R) × RecordDecoder D Q)}
    {c : Except Error (Option R) × RecordDecoder D Q}
    (h : Follows m stops left) (hcalls : m.calls n = .ret cs) (hc : c ∈ cs)
    (hskips : Skips j c) : Discards stops j left := by
  induction n generalizing m left cs with
  | zero =>
      cases hcalls
      cases hc
  | succ n ih =>
      rcases h.decodeRecordRef with
        ⟨res, m1, left1, hcall, _, hfollows, htakes, _⟩
      rw [calls, hcall, Outcome.ret_bind] at hcalls
      rcases Outcome.bind_eq_ret.mp hcalls with ⟨rest, hrest, heq⟩
      cases heq
      rcases List.mem_cons.mp hc with heq | hmem
      · rw [heq] at hskips
        exact hfollows.discards_of_skips htakes hskips
      · exact (ih hfollows hrest hmem).of_suffix htakes.suffix

/-- Enough calls skip a discarded record. -/
theorem Follows.exists_skips (h : Follows m stops left)
    (hdiscards : Discards stops j left) :
    exists n cs c, m.calls n = .ret cs ∧ c ∈ cs ∧ Skips j c := by
  induction hn : left.length + (if m.isFirst then 1 else 0)
    using Nat.strong_induction_on generalizing m left with
  | _ n ih =>
      obtain ⟨before, f, last, ts, after, heq, hstop, hlast⟩ := hdiscards
      rcases h.decodeRecordRef with
        ⟨res, m1, left1, hcall, hfirst, hfollows, htakes, hless⟩
      rcases htakes.fails_or_left heq hstop hlast with
        ⟨before', hleft⟩ | ⟨hleft, hfailure⟩
      · -- the stream has not ended, and the call has taken an entry
        have hle := htakes.length_le
        have hlt : left1.length + (if m1.isFirst then 1 else 0) < n := by
          rw [hfirst]
          cases hm : m.isFirst with
          | true =>
              rw [hm] at hn
              simp only [Bool.false_eq_true, if_false, if_true] at hn ⊢
              omega
          | false =>
              have hless' := hless hm (by rw [heq]; simp)
              rw [hm] at hn
              simp only [Bool.false_eq_true, if_false] at hn ⊢
              omega
        rcases ih _ hlt hfollows
          ⟨before', f, last, ts, after, hleft, hstop, hlast⟩ rfl with
          ⟨k, cs, c, hcalls, hc, hskips⟩
        refine ⟨k + 1, (res, m1) :: cs, c, ?_, List.mem_cons_of_mem _ hc,
          hskips⟩
        rw [calls, hcall, Outcome.ret_bind]
        dsimp only
        rw [hcalls, Outcome.ret_bind]
      · -- the call fails at the last entry of the stream
        refine ⟨1, [(res, m1)], (res, m1), ?_, List.mem_singleton_self _, ?_, ts,
          ?_⟩
        · rw [calls, hcall, Outcome.ret_bind]
          rfl
        · cases res with
          | ok x => exact absurd rfl hfailure
          | error e => exact ⟨e, rfl⟩
        · rw [hleft] at hfollows
          exact hfollows.top

end Skipped

/-!
## Decoders that fail
-/

/--
A merging decoder that was made from a list of decoders, with no hints or with
one for each decoder.
-/
inductive Created (decoders : List D) :
    List Nat -> RecordDecoder D Q -> Prop where
  | new {m : RecordDecoder D Q}
      (made : RecordDecoder.new decoders = .ret (Except.ok m)) :
      Created decoders [] m
  | withHints {m : RecordDecoder D Q} {startTsHints : List Nat}
      (made : RecordDecoder.withHints decoders startTsHints = Except.ok m) :
      Created decoders startTsHints m

/-- The hint of a stream, when it has one, and then its records. -/
def entries (startTsHints : List Nat) (streams : List (List R)) (i : Nat) :
    List IndexTs :=
  (startTsHints[i]?.map IndexTs.hint).toList ++ reals (streamAt streams i)

omit [DecodeRecordRef D R] [PriorityQueue Q StreamHead] in
theorem entriesOf_of_not_hint {head : Option IndexTs}
    (h : forall ts, head ≠ some (.hint ts)) (rest : List R) :
    entriesOf head rest = reals rest := by
  cases head with
  | none => rfl
  | some ts =>
      cases ts with
      | real ts => rfl
      | hint ts => exact absurd rfl (h ts)

omit [DecodeRecordRef D R] [PriorityQueue Q StreamHead] in
theorem entriesOf_hint (hint : Option Nat) (rest : List R) :
    entriesOf (hint.map IndexTs.hint) rest =
      (hint.map IndexTs.hint).toList ++ reals rest := by
  cases hint <;> rfl

theorem Created.remaining [LawfulPriorityQueue Q StreamHead]
    {m : RecordDecoder D Q} {decoders : List D} {streams : List (List R)}
    {stops : List (Option Error)} {hints : List Nat}
    (h : Created decoders hints m) (hstreams : Streams decoders streams stops) :
    exists heads, Remaining m heads (streamAt streams) (stopAt stops) ∧
      m.isFirst = true ∧
      entriesLeft heads (streamAt streams) = entries hints streams := by
  cases h with
  | new made =>
      have hne : decoders ≠ [] := by
        intro hnil
        rw [hnil] at made
        cases made
      rcases hstreams.new (Q := Q) hne with ⟨e, i, herror, _, _⟩ |
        ⟨m', heads, hnew, hremaining, hfirst, hheads⟩
      · rw [made] at herror
        cases herror
      · rw [made] at hnew
        cases hnew
        exact ⟨heads, hremaining, hfirst,
          funext (fun i => entriesOf_of_not_hint (hheads i) _)⟩
  | withHints made =>
      obtain ⟨hne, hlen⟩ := withHints_eq_ok made
      rcases hstreams.withHints (Q := Q) hne hlen with
        ⟨m', hmade, hremaining, hfirst⟩
      rw [made] at hmade
      cases hmade
      exact ⟨_, hremaining, hfirst, funext (fun i => entriesOf_hint _ _)⟩

/-- The entries of a decoder that has not been called. -/
theorem Remaining.follows {m : RecordDecoder D Q}
    {heads : Nat -> Option IndexTs} {todo : Nat -> List R}
    {stops : Nat -> Option Error} (h : Remaining m heads todo stops)
    (hfirst : m.isFirst = true) {out : List (Nat × IndexTs)}
    (hmerges : Merges IndexTs.ts (entriesLeft heads todo) out) :
    Follows m stops out := by
  obtain ⟨rest, htracks, htodo⟩ := h.tracks
  rw [hfirst] at htodo
  rw [htodo] at hmerges
  exact ⟨heads, rest, htracks, hmerges⟩

omit [DecodeRecordRef D R] in
/-- The entries of a list of decoders have a merge. -/
theorem exists_merge_entries (hints : List Nat) (streams : List (List R)) :
    exists out, Merges IndexTs.ts (entries hints streams) out := by
  apply Merges.exists_merge _ (Finset.range (hints.length + streams.length))
  intro i hi
  rw [Finset.mem_range, Nat.not_lt] at hi
  have hhint : hints[i]? = none := List.getElem?_eq_none (by omega)
  unfold entries
  rw [hhint, streamAt_of_ge (by omega)]
  rfl

/--
All records of the decoders that do not fail are returned, once and in order,
exactly when in the merge of the entries of all streams the last entry of a
failing stream is never followed by the one of a record of such a decoder.
-/
theorem returned_iff_not_discarded [LawfulPriorityQueue Q StreamHead]
    {m : RecordDecoder D Q} {decoders : List D} {streams : List (List R)}
    {stops : List (Option Error)} {hints : List Nat}
    (hstreams : Streams decoders streams stops)
    (hm : Created decoders hints m) :
    (forall j, stopAt stops j = none -> exists N, forall n, N ≤ n ->
      exists cs, m.calls n = .ret cs ∧
        returnedFrom j cs = streamAt streams j) <->
    forall out, Merges IndexTs.ts (entries hints streams) out ->
      forall j, stopAt stops j = none -> ¬ Discards (stopAt stops) j out := by
  rcases hm.remaining hstreams with ⟨heads, hremaining, hfirst, hentries⟩
  constructor
  · intro hall out hmerges j hj hdiscards
    rw [← hentries] at hmerges
    rcases (hremaining.follows hfirst hmerges).exists_skips hdiscards with
      ⟨n, cs, c, hcalls, hc, hskips⟩
    exact (hremaining.returned_iff j).mp (hall j hj) n cs c hcalls hc hskips
  · intro hkeeps j hj
    apply (hremaining.returned_iff j).mpr
    intro n cs c hcalls hc hskips
    obtain ⟨out, hmerges⟩ := exists_merge_entries hints streams
    refine hkeeps out hmerges j hj ?_
    rw [← hentries] at hmerges
    exact (hremaining.follows hfirst hmerges).discards hcalls hc hskips

/-- A decoder of a list of results. -/
structure ResultStream (R : Type) where
  results : List (Except Error R)
  last : Option R

instance : DecodeRecordRef (ResultStream R) R where
  decodeRecordRef d :=
    match d.results with
    | [] => .ret (Except.ok none, d)
    | Except.error e :: rest => .ret (Except.error e, ⟨rest, d.last⟩)
    | Except.ok x :: rest => .ret (Except.ok (some x), ⟨rest, some x⟩)
  lastRecord d := d.last

/-- A decoder that fails after a record, and another one with a record. -/
def failingDecoders (ts ts' : Nat) : List (ResultStream Tick) :=
  [⟨[Except.ok ⟨ts, 0⟩, Except.error (.decode "failed")], none⟩,
    ⟨[Except.ok ⟨ts', 1⟩], none⟩]

theorem streams_failingDecoders (ts ts' : Nat) :
    Streams (failingDecoders ts ts') [[⟨ts, 0⟩], [⟨ts', 1⟩]]
      [some (.decode "failed"), none] := by
  refine ⟨rfl, rfl, ?_⟩
  intro i d hd
  match i, hd with
  | 0, rfl => exact Yields.record rfl rfl (Yields.fail rfl)
  | 1, rfl => exact Yields.record rfl rfl (Yields.done rfl)

theorem returned_iff_not_discarded_last :
    exists m : RecordDecoder (ResultStream Tick) (SortedQueue StreamHead),
      new (failingDecoders 5 1) = .ret (Except.ok m) ∧
      ((forall j, stopAt [some (.decode "failed"), none] j = none ->
        exists N, forall n, N ≤ n -> exists cs, m.calls n = .ret cs ∧
          returnedFrom j cs = streamAt [[⟨5, 0⟩], [⟨1, 1⟩]] j) <->
      forall out,
        Merges IndexTs.ts (entries [] [[(⟨5, 0⟩ : Tick)], [⟨1, 1⟩]]) out ->
        forall j, stopAt [some (.decode "failed"), none] j = none ->
          ¬ Discards (stopAt [some (.decode "failed"), none]) j out) :=
  ⟨_, rfl, returned_iff_not_discarded (streams_failingDecoders 5 1)
    (Created.new rfl)⟩

/-- The first decoder fails before the second record has been returned. -/
theorem returned_lost_after_error :
    exists m : RecordDecoder (ResultStream Tick) (SortedQueue StreamHead),
      new (failingDecoders 1 5) = .ret (Except.ok m) ∧
      ¬ forall j, stopAt [some (.decode "failed"), none] j = none ->
        exists N, forall n, N ≤ n -> exists cs, m.calls n = .ret cs ∧
          returnedFrom j cs = streamAt [[⟨1, 0⟩], [⟨5, 1⟩]] j := by
  refine ⟨_, rfl, ?_⟩
  intro hall
  rcases (Created.new rfl).remaining (Q := SortedQueue StreamHead)
    (streams_failingDecoders 1 5) with ⟨heads, hremaining, _⟩
  have hkeeps := (hremaining.returned_iff 1).mp (hall 1 rfl)
  exact hkeeps 2 _ _ rfl (List.mem_cons_of_mem _ List.mem_cons_self)
    ⟨⟨_, rfl⟩, 5, rfl⟩

end RecordDecoder
end Merge
end Dbn
