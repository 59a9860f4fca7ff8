import Dbn.Decode.Merge
import Dbn.Lib.Merge
import Mathlib.Data.List.Perm.Subperm
import Mathlib.Data.Set.Basic

/-!
# Runs of the merging decoder

Between two calls the heap has one head for every decoder that has more to
give: the record it has decoded last, or a hint when it has not been read
from.  What a call returns is read off the streams that are left.
-/

namespace Dbn
namespace Merge
namespace RecordDecoder

open Lib
open PriorityQueue (toList)

variable {D Q R : Type} [DecodeRecordRef D R] [Record R]

/-!
## Streams
-/

/-- The records that a decoder returns, and the error that ends them. -/
inductive Yields : D -> List R -> Option Error -> Prop where
  | done {d d' : D}
      (call : DecodeRecordRef.decodeRecordRef d = .ret (Except.ok none, d')) :
      Yields d [] none
  | fail {d d' : D} {e : Error}
      (call : DecodeRecordRef.decodeRecordRef d = .ret (Except.error e, d')) :
      Yields d [] (some e)
  | record {d d' : D} {x : R} {rest : List R} {stop : Option Error}
      (call : DecodeRecordRef.decodeRecordRef d =
        .ret (Except.ok (some x), d'))
      (last : DecodeRecordRef.lastRecord d' = some x)
      (tail : Yields d' rest stop) : Yields d (x :: rest) stop

/-- A decoder with its head on the heap and the records that are left. -/
inductive Opened : Option D -> Option IndexTs -> List R -> Option Error ->
    Prop where
  | ended (d : Option D) (stop : Option Error) : Opened d none [] stop
  | head {d : D} {x : R} {rest : List R} {stop : Option Error}
      (last : DecodeRecordRef.lastRecord d = some x)
      (tail : Yields d rest stop) :
      Opened (some d) (some (.real (Record.rawIndexTs x))) (x :: rest) stop
  | unopened {d : D} {ts : Nat} {rest : List R} {stop : Option Error}
      (tail : Yields d rest stop) : Opened (some d) (some (.hint ts)) rest stop

/-- The head of a stream that has been read from. -/
def headOf (rest : List R) : Option IndexTs :=
  rest.head?.map (fun x => .real (Record.rawIndexTs x))

/-- The result of the next call of the decoder of a stream. -/
def decodeResult (rest : List R) (stop : Option Error) :
    Except Error (Option R) :=
  match rest, stop with
  | [], some e => Except.error e
  | [], none => Except.ok none
  | x :: _, _ => Except.ok (some x)

/-- The result of reading on in a stream. -/
def readResult (rest : List R) (stop : Option Error) : Except Error Unit :=
  (decodeResult rest stop).map (fun _ => ())

/-- Hints may have been resolved, and nothing else has a new head. -/
def Resolves (heads heads' : Nat -> Option IndexTs) : Prop :=
  forall i, (heads i = none -> heads' i = none) ∧
    forall ts, heads' i = some (.hint ts) -> heads i = some (.hint ts)

theorem Resolves.refl (heads : Nat -> Option IndexTs) :
    Resolves heads heads := by
  intro i
  exact ⟨id, fun _ => id⟩

theorem Resolves.trans {heads1 heads2 heads3 : Nat -> Option IndexTs}
    (h12 : Resolves heads1 heads2) (h23 : Resolves heads2 heads3) :
    Resolves heads1 heads3 := by
  intro i
  constructor
  · intro hnone
    exact (h23 i).1 ((h12 i).1 hnone)
  · intro ts hhint
    exact (h12 i).2 ts ((h23 i).2 ts hhint)

variable [PriorityQueue Q StreamHead]

/--
The heap of the decoder and the streams that are left.  The decoders in
`pending` have no head on the heap though there may be more records.
-/
structure Tracks (m : RecordDecoder D Q) (heads : Nat -> Option IndexTs)
    (rest : Nat -> List R) (stops : Nat -> Option Error)
    (pending : Set Nat) : Prop where
  stream : forall i, i ∉ pending ->
    Opened m.decoders[i]? (heads i) (rest i) (stops i)
  waiting : forall i, i ∈ pending -> heads i = none ∧
    exists d, m.decoders[i]? = some d ∧ Yields d (rest i) (stops i)
  heap : forall head, head ∈ toList m.minHeap <->
    heads head.decoderIdx = some head.indexTs
  nodup : ((toList m.minHeap).map StreamHead.decoderIdx).Nodup

/-- The number of hints on the heap. -/
def hintCount (m : RecordDecoder D Q) : Nat :=
  (toList m.minHeap).countP (fun head => head.indexTs.isHint)

/-- The streams after a head has been taken from the heap. -/
def dropHead (head : StreamHead) (rest : Nat -> List R) : Nat -> List R :=
  match head.indexTs with
  | .real _ =>
      Function.update rest head.decoderIdx (rest head.decoderIdx).tail
  | .hint _ => rest

section Steps

variable {m : RecordDecoder D Q} {heads : Nat -> Option IndexTs}
  {rest : Nat -> List R} {stops : Nat -> Option Error} {pending : Set Nat}

omit [PriorityQueue Q StreamHead] in
theorem Yields.opened {d : D} {s : List R} {stop : Option Error}
    (h : Yields d s stop) :
    exists res d', DecodeRecordRef.decodeRecordRef d = .ret (res, d') ∧
      Opened (some d') (headOf s) s stop ∧
      res = decodeResult s stop := by
  cases h with
  | done call => exact ⟨_, _, call, Opened.ended _ _, rfl⟩
  | fail call => exact ⟨_, _, call, Opened.ended _ _, rfl⟩
  | record call last tail => exact ⟨_, _, call, Opened.head last tail, rfl⟩

variable [LawfulPriorityQueue Q StreamHead]

omit [LawfulPriorityQueue Q StreamHead] in
theorem Tracks.getElem?_set (h : Tracks m heads rest stops pending) {i : Nat}
    (hi : i ∈ pending) (d' : D) : (m.decoders.set i d')[i]? = some d' := by
  rcases (h.waiting i hi).2 with ⟨d, hd, _⟩
  rcases List.getElem?_eq_some_iff.mp hd with ⟨hlt, _⟩
  exact List.getElem?_set_self hlt

omit [LawfulPriorityQueue Q StreamHead] in
/-- A decoder that has been read from has its head on the heap. -/
theorem Tracks.replace (h : Tracks m heads rest stops pending) {i : Nat}
    (hi : i ∈ pending) {d' : D} {minHeap : Q}
    (hopen : Opened (some d') (headOf (rest i)) (rest i) (stops i))
    (hheap : forall head, head ∈ toList minHeap <->
      head ∈ toList m.minHeap ∨
        head.decoderIdx = i ∧ headOf (rest i) = some head.indexTs)
    (hnodup : ((toList minHeap).map StreamHead.decoderIdx).Nodup) :
    Tracks { m with decoders := m.decoders.set i d', minHeap := minHeap }
      (Function.update heads i (headOf (rest i))) rest stops
      (pending \ {i}) where
  stream := by
    intro j hj
    by_cases hij : j = i
    · rw [hij, Function.update_self]
      dsimp only
      rw [h.getElem?_set hi]
      exact hopen
    · rw [Function.update_of_ne hij]
      dsimp only
      rw [List.getElem?_set_ne (Ne.symm hij)]
      apply h.stream
      intro hmem
      exact hj ⟨hmem, hij⟩
  waiting := by
    intro j hj
    have hij : j ≠ i := hj.2
    rw [Function.update_of_ne hij]
    dsimp only
    rw [List.getElem?_set_ne (Ne.symm hij)]
    exact h.waiting j hj.1
  heap := by
    intro head
    rw [hheap, h.heap]
    by_cases hij : head.decoderIdx = i
    · rw [hij, Function.update_self, (h.waiting i hi).1]
      constructor
      · intro hor
        rcases hor with hnone | ⟨_, hsome⟩
        · cases hnone
        · exact hsome
      · intro hsome
        exact Or.inr ⟨rfl, hsome⟩
    · rw [Function.update_of_ne hij]
      constructor
      · intro hor
        rcases hor with hmem | ⟨heq, _⟩
        · exact hmem
        · exact absurd heq hij
      · exact Or.inl
  nodup := hnodup

/-- Reading on in a stream puts its next head on the heap. -/
theorem Tracks.pushNext (h : Tracks m heads rest stops pending) {i : Nat}
    (hi : i ∈ pending) :
    exists m', m.pushNext i = .ret (readResult (rest i) (stops i), m') ∧
      m'.isFirst = m.isFirst ∧
      m'.decoders.length = m.decoders.length ∧
      m'.hintCount = m.hintCount ∧
      Tracks m' (Function.update heads i (headOf (rest i))) rest stops
        (pending \ {i}) := by
  rcases h.waiting i hi with ⟨hnone, d, hd, hyields⟩
  rcases hyields.opened with ⟨res, d', hcall, hopen, hres⟩
  unfold RecordDecoder.pushNext
  rw [hd]
  dsimp only
  rw [hcall, Outcome.ret_bind]
  dsimp only
  cases hrest : rest i with
  | nil =>
      have htracks := h.replace hi hopen
        (fun head => by
          rw [hrest]
          simp [headOf])
        h.nodup
      rw [hrest] at hres htracks
      cases hstop : stops i with
      | none =>
          rw [hstop] at hres
          rw [hres]
          exact ⟨_, rfl, rfl, List.length_set, rfl, htracks⟩
      | some e =>
          rw [hstop] at hres
          rw [hres]
          exact ⟨_, rfl, rfl, List.length_set, rfl, htracks⟩
  | cons x tail =>
      have hfresh : forall head, head ∈ toList m.minHeap ->
          head.decoderIdx ≠ i := by
        intro head hmem heq
        rw [h.heap, heq, hnone] at hmem
        cases hmem
      have hheap : forall head, head ∈ toList (PriorityQueue.push m.minHeap
          ⟨.real (Record.rawIndexTs x), i⟩) <-> head ∈ toList m.minHeap ∨
            head.decoderIdx = i ∧ headOf (rest i) = some head.indexTs := by
        intro head
        rw [PriorityQueue.mem_push, hrest]
        simp only [headOf, List.head?_cons, Option.map_some,
          Option.some.injEq]
        constructor
        · intro hor
          rcases hor with heq | hmem
          · rw [heq]
            exact Or.inr ⟨rfl, rfl⟩
          · exact Or.inl hmem
        · intro hor
          rcases hor with hmem | ⟨hidx, hts⟩
          · exact Or.inr hmem
          · rw [hts, ← hidx]
            exact Or.inl rfl
      have htracks := h.replace hi hopen hheap
        (PriorityQueue.nodup_push h.nodup hfresh)
      rw [hrest] at hres htracks
      rw [hres]
      refine ⟨_, rfl, rfl, List.length_set, ?_, htracks⟩
      unfold hintCount
      rw [(LawfulPriorityQueue.toList_push m.minHeap _).countP_eq]
      exact List.countP_cons_of_neg (by simp [IndexTs.isHint])

omit [DecodeRecordRef D R] [Record R] [PriorityQueue Q StreamHead]
  [LawfulPriorityQueue Q StreamHead] in
theorem dropHead_of_ne {head : StreamHead} {j : Nat}
    (hj : j ≠ head.decoderIdx) : dropHead head rest j = rest j := by
  unfold dropHead
  cases head.indexTs with
  | real _ => exact Function.update_of_ne hj _ _
  | hint _ => rfl

/-- Taking a head from the heap leaves its decoder to be read from. -/
theorem Tracks.pop (h : Tracks m heads rest stops ∅) {head : StreamHead}
    {minHeap : Q} (hpop : PriorityQueue.pop m.minHeap = some (head, minHeap)) :
    Tracks { m with minHeap := minHeap }
      (Function.update heads head.decoderIdx none) (dropHead head rest) stops
      {head.decoderIdx} where
  stream := by
    intro j hj
    have hne : j ≠ head.decoderIdx := hj
    rw [Function.update_of_ne hne, dropHead_of_ne hne]
    exact h.stream j (Set.notMem_empty j)
  waiting := by
    intro j hj
    have heq : j = head.decoderIdx := hj
    have hmem := PriorityQueue.mem_of_peek (PriorityQueue.peek_of_pop hpop)
    rw [h.heap] at hmem
    have hopen := h.stream head.decoderIdx (Set.notMem_empty _)
    rw [hmem] at hopen
    rw [heq, Function.update_self]
    refine ⟨rfl, ?_⟩
    unfold dropHead
    generalize hd : m.decoders[head.decoderIdx]? = decoder at hopen
    generalize hts : head.indexTs = ts at hopen
    generalize hs : rest head.decoderIdx = s at hopen
    cases hopen with
    | head last tail =>
        dsimp only
        rw [Function.update_self]
        exact ⟨_, rfl, tail⟩
    | unopened tail =>
        rw [← hs] at tail
        exact ⟨_, rfl, tail⟩
  heap := by
    intro other
    rw [PriorityQueue.mem_pop h.nodup hpop, h.heap]
    by_cases heq : other.decoderIdx = head.decoderIdx
    · rw [heq, Function.update_self]
      constructor
      · intro hand
        exact absurd rfl hand.2
      · intro hnone
        cases hnone
    · rw [Function.update_of_ne heq]
      exact ⟨And.left, fun hmem => ⟨hmem, heq⟩⟩
  nodup := PriorityQueue.nodup_pop h.nodup hpop

/-- With nothing on the heap all streams have ended. -/
theorem Tracks.empty (h : Tracks m heads rest stops ∅)
    (hpeek : PriorityQueue.peek m.minHeap = none) (i : Nat) :
    rest i = [] := by
  have hnil := PriorityQueue.peek_eq_none.mp hpeek
  have hopen := h.stream i (Set.notMem_empty i)
  cases hhead : heads i with
  | none =>
      rw [hhead] at hopen
      generalize m.decoders[i]? = d at hopen
      generalize rest i = s at hopen
      cases hopen
      rfl
  | some ts =>
      have hmem := (h.heap ⟨ts, i⟩).mpr hhead
      rw [hnil] at hmem
      cases hmem

/-- A record on top of the heap is the first of its stream. -/
theorem Tracks.top (h : Tracks m heads rest stops ∅) {ts i : Nat}
    (hpeek : PriorityQueue.peek m.minHeap = some ⟨.real ts, i⟩) :
    exists x tail, rest i = x :: tail ∧ ts = Record.rawIndexTs x ∧
      m.lastRecordOf i = .ret (some x) := by
  have hhead := (h.heap _).mp (PriorityQueue.mem_of_peek hpeek)
  dsimp only at hhead
  have hopen := h.stream i (Set.notMem_empty i)
  rw [hhead] at hopen
  unfold lastRecordOf
  generalize m.decoders[i]? = d at hopen
  generalize rest i = s at hopen
  cases hopen with
  | head last tail =>
      dsimp only
      rw [last]
      exact ⟨_, _, rfl, rfl, rfl⟩

omit [LawfulPriorityQueue Q StreamHead] in
/-- Every head on the heap belongs to a decoder. -/
theorem Tracks.hintCount_le (h : Tracks m heads rest stops ∅) :
    m.hintCount ≤ m.decoders.length := by
  have hsubset : (toList m.minHeap).map StreamHead.decoderIdx ⊆
      List.range m.decoders.length := by
    intro i hi
    rcases List.mem_map.mp hi with ⟨head, hmem, heq⟩
    rw [h.heap, heq] at hmem
    have hopen := h.stream i (Set.notMem_empty i)
    rw [hmem] at hopen
    rw [List.mem_range]
    by_contra hge
    rw [List.getElem?_eq_none (Nat.not_lt.mp hge)] at hopen
    cases hopen
  have hle := (List.Nodup.subperm h.nodup hsubset).length_le
  rw [List.length_map, List.length_range] at hle
  exact Nat.le_trans List.countP_le_length hle

/-- Reading from the decoder whose head has just been taken. -/
theorem Tracks.pushNext_pop (h : Tracks m heads rest stops ∅)
    {head : StreamHead} {minHeap : Q}
    (hpop : PriorityQueue.pop m.minHeap = some (head, minHeap)) :
    exists m' heads',
      { m with minHeap := minHeap }.pushNext head.decoderIdx =
        .ret (readResult (dropHead head rest head.decoderIdx)
          (stops head.decoderIdx), m') ∧
      m'.isFirst = m.isFirst ∧
      m'.hintCount + (if head.indexTs.isHint then 1 else 0) = m.hintCount ∧
      heads' = Function.update heads head.decoderIdx
        (headOf (dropHead head rest head.decoderIdx)) ∧
      Resolves heads heads' ∧
      Tracks m' heads' (dropHead head rest) stops ∅ := by
  rcases (h.pop hpop).pushNext (Set.mem_singleton _) with
    ⟨m', hcall, hfirst, _, hcount, htracks⟩
  rw [Function.update_idem, Set.sdiff_self] at htracks
  refine ⟨m', _, hcall, hfirst, ?_, rfl, ?_, htracks⟩
  · rw [hcount]
    unfold hintCount
    dsimp only
    rw [(LawfulPriorityQueue.pop_perm hpop).countP_eq, List.countP_cons]
  · intro i
    by_cases hi : i = head.decoderIdx
    · have hmem := (h.heap head).mp
        (PriorityQueue.mem_of_peek (PriorityQueue.peek_of_pop hpop))
      rw [hi, Function.update_self]
      constructor
      · intro hnone
        rw [hmem] at hnone
        cases hnone
      · intro ts hhint
        unfold headOf at hhint
        rcases Option.map_eq_some_iff.mp hhint with ⟨x, _, hx⟩
        cases hx
    · rw [Function.update_of_ne hi]
      exact ⟨id, fun _ => id⟩

/-- How the search for the next decoder ends. -/
inductive Found (heads : Nat -> Option IndexTs) (rest : Nat -> List R)
    (stops : Nat -> Option Error) (m' : RecordDecoder D Q)
    (heads' : Nat -> Option IndexTs) : Except Error (Option Nat) -> Prop where
  | none (top : PriorityQueue.peek m'.minHeap = none) :
      Found heads rest stops m' heads' (Except.ok none)
  | real {ts i : Nat}
      (top : PriorityQueue.peek m'.minHeap = some ⟨.real ts, i⟩) :
      Found heads rest stops m' heads' (Except.ok (some i))
  | failed {i : Nat} {e : Error} (empty : rest i = [])
      (stop : stops i = some e) (live : heads i ≠ none)
      (closed : heads' i = none) :
      Found heads rest stops m' heads' (Except.error e)

omit [DecodeRecordRef D R] [Record R] [LawfulPriorityQueue Q StreamHead] in
theorem Found.resolves {heads1 heads' : Nat -> Option IndexTs}
    {res : Except Error (Option Nat)}
    (h : Found heads1 rest stops m heads' res)
    (hresolves : Resolves heads heads1) :
    Found heads rest stops m heads' res := by
  cases h with
  | none top => exact Found.none top
  | real top => exact Found.real top
  | @failed i _ empty stop live closed =>
      exact Found.failed empty stop (fun h => live ((hresolves i).1 h)) closed

omit [DecodeRecordRef D R] [Record R] [PriorityQueue Q StreamHead]
  [LawfulPriorityQueue Q StreamHead] in
theorem readResult_eq_error {s : List R} {stop : Option Error} {e : Error}
    (h : readResult s stop = Except.error e) : s = [] ∧ stop = some e := by
  unfold readResult decodeResult at h
  split at h
  · cases h
    exact ⟨rfl, rfl⟩
  · cases h
  · cases h

/-- Hints are resolved until a record is on top of the heap. -/
theorem Tracks.nextDecoderIdxLoop {fuel : Nat}
    (h : Tracks m heads rest stops ∅) (hfuel : m.hintCount < fuel) :
    exists res m' heads', m.nextDecoderIdxLoop fuel = .ret (res, m') ∧
      m'.isFirst = m.isFirst ∧ Resolves heads heads' ∧
      Tracks m' heads' rest stops ∅ ∧ Found heads rest stops m' heads' res := by
  induction fuel generalizing m heads with
  | zero => exact absurd hfuel (Nat.not_lt_zero _)
  | succ fuel ih =>
      rw [RecordDecoder.nextDecoderIdxLoop]
      cases hpeek : PriorityQueue.peek m.minHeap with
      | none => exact ⟨_, m, heads, rfl, rfl, Resolves.refl heads, h,
          Found.none hpeek⟩
      | some head =>
          rcases head with ⟨ts, i⟩
          cases ts with
          | real ts => exact ⟨_, m, heads, rfl, rfl, Resolves.refl heads, h,
              Found.real hpeek⟩
          | hint ts =>
              rcases PriorityQueue.pop_of_peek hpeek with ⟨minHeap, hpop⟩
              rcases h.pushNext_pop hpop with
                ⟨m1, heads1, hcall, hfirst, hcount, hhead, hresolves,
                  htracks⟩
              dsimp only [dropHead] at hcall htracks hhead
              simp only [IndexTs.isHint, if_true] at hcount
              dsimp only
              rw [PriorityQueue.dropMin_of_pop hpop, hcall, Outcome.ret_bind]
              dsimp only
              cases hres : readResult (rest i) (stops i) with
              | error e =>
                  rcases readResult_eq_error hres with ⟨hnil, hstop⟩
                  have htop := (h.heap _).mp (PriorityQueue.mem_of_peek hpeek)
                  have hlive : heads i ≠ none := by
                    rw [htop]
                    exact Option.some_ne_none _
                  have hclosed : heads1 i = none := by
                    rw [hhead, Function.update_self, hnil]
                    rfl
                  exact ⟨_, m1, heads1, rfl, hfirst, hresolves, htracks,
                    Found.failed hnil hstop hlive hclosed⟩
              | ok _ =>
                  rcases ih htracks (by omega) with
                    ⟨res, m', heads', hloop, hfirst', hresolves', htracks',
                      hfound⟩
                  exact ⟨res, m', heads', hloop, hfirst'.trans hfirst,
                    hresolves.trans hresolves', htracks',
                    hfound.resolves hresolves⟩

end Steps

/-!
## One call
-/

/-- Hints are lower bounds for their streams. -/
def HintsBelow (heads : Nat -> Option IndexTs) (rest : Nat -> List R) :
    Prop :=
  forall i ts x tail, heads i = some (.hint ts) -> rest i = x :: tail ->
    ts ≤ Record.rawIndexTs x

/-- The streams once the record on top of the heap counts as returned. -/
def dropTop (m : RecordDecoder D Q) (rest : Nat -> List R) : Nat -> List R :=
  match PriorityQueue.peek m.minHeap with
  | none => rest
  | some head => dropHead head rest

/-- The streams that are left to be returned. -/
structure Remaining (m : RecordDecoder D Q) (heads : Nat -> Option IndexTs)
    (todo : Nat -> List R) (stops : Nat -> Option Error) : Prop where
  tracks : exists rest, Tracks m heads rest stops ∅ ∧
    todo = if m.isFirst then rest else dropTop m rest

/-- What a call returns, and the streams that are left after it. -/
inductive Answers (heads : Nat -> Option IndexTs) (todo : Nat -> List R)
    (stops : Nat -> Option Error) (m' : RecordDecoder D Q)
    (heads' : Nat -> Option IndexTs) :
    Except Error (Option R) -> (Nat -> List R) -> Prop where
  | none (empty : forall i, todo i = []) (top : m'.peekDecoderIdx = none) :
      Answers heads todo stops m' heads' (Except.ok none) todo
  | record {i : Nat} {x : R} {tail : List R} (head : todo i = x :: tail)
      (leads : HintsBelow heads todo -> Leads Record.rawIndexTs todo i x)
      (opened : forall ts, heads' i ≠ some (.hint ts))
      (top : m'.peekDecoderIdx = some i)
      (last : m'.lastRecord = .ret (some x)) :
      Answers heads todo stops m' heads' (Except.ok (some x))
        (Function.update todo i tail)
  | error {i : Nat} {e : Error} (empty : todo i = [])
      (stop : stops i = some e) (live : heads i ≠ none)
      (closed : heads' i = none) (tracks : Tracks m' heads' todo stops ∅) :
      Answers heads todo stops m' heads' (Except.error e) (dropTop m' todo)

section Calls

variable [LawfulPriorityQueue Q StreamHead] {m m' : RecordDecoder D Q}
  {heads heads' : Nat -> Option IndexTs} {rest todo : Nat -> List R}
  {stops : Nat -> Option Error}

omit [DecodeRecordRef D R] [PriorityQueue Q StreamHead]
  [LawfulPriorityQueue Q StreamHead] in
theorem HintsBelow.resolves (h : HintsBelow heads rest)
    (hresolves : Resolves heads heads') : HintsBelow heads' rest := by
  intro i ts x tail hhead hrest
  exact h i ts x tail ((hresolves i).2 ts hhead) hrest

/-- A record on top of the heap leads the streams. -/
theorem Tracks.leads (h : Tracks m heads rest stops ∅)
    (hbelow : HintsBelow heads rest) {i : Nat} {x : R}
    (hpeek : PriorityQueue.peek m.minHeap =
      some ⟨.real (Record.rawIndexTs x), i⟩) :
    Leads Record.rawIndexTs rest i x := by
  intro j y tail hrest
  have hopen := h.stream j (Set.notMem_empty j)
  have hbound : exists ts, heads j = some ts ∧
      ts.ts ≤ Record.rawIndexTs y := by
    generalize m.decoders[j]? = d at hopen
    cases hhead : heads j with
    | none =>
        rw [hhead, hrest] at hopen
        cases hopen
    | some ts =>
        refine ⟨ts, rfl, ?_⟩
        cases ts with
        | hint ts => exact hbelow j ts y tail hhead hrest
        | real ts =>
            rw [hhead, hrest] at hopen
            cases hopen
            exact Nat.le_refl _
  rcases hbound with ⟨ts, hhead, hle⟩
  have hle' := PriorityQueue.peek_le hpeek ((h.heap ⟨ts, j⟩).mpr hhead)
  rw [StreamHead.le_iff] at hle'
  simp only [IndexTs.ts] at hle'
  unfold rank
  rw [Prod.Lex.toLex_le_toLex']
  constructor
  · show Record.rawIndexTs x ≤ Record.rawIndexTs y
    cases ts <;> simp only [IndexTs.ts] at hle hle' <;> omega
  · intro heq
    have heq' : Record.rawIndexTs x = Record.rawIndexTs y := heq
    show i ≤ j
    cases ts <;> simp only [IndexTs.ts] at hle hle' <;> omega

/-- The part of a call after the last record was popped. -/
theorem Tracks.decodeNext (h : Tracks m heads rest stops ∅)
    (hfirst : m.isFirst = false) :
    exists res m' heads' todo', m.decodeNext = .ret (res, m') ∧
      m'.isFirst = false ∧ Resolves heads heads' ∧
      Remaining m' heads' todo' stops ∧
      Answers heads rest stops m' heads' res todo' := by
  have hfuel := Nat.lt_succ_of_le h.hintCount_le
  rcases h.nextDecoderIdxLoop hfuel with
    ⟨res, m', heads', hloop, hfirst', hresolves, htracks, hfound⟩
  rw [hfirst] at hfirst'
  have hremaining : Remaining m' heads' (dropTop m' rest) stops := by
    refine ⟨rest, htracks, ?_⟩
    rw [hfirst']
    rfl
  unfold RecordDecoder.decodeNext nextDecoderIdx
  rw [hloop, Outcome.ret_bind]
  dsimp only
  cases hfound with
  | none top =>
      refine ⟨_, m', heads', _, rfl, hfirst', hresolves, hremaining, ?_⟩
      have hsame : dropTop m' rest = rest := by
        unfold dropTop
        rw [top]
      have hidx : m'.peekDecoderIdx = none := by
        unfold peekDecoderIdx
        rw [top]
        rfl
      rw [hsame]
      exact Answers.none (htracks.empty top) hidx
  | @real ts i top =>
      rcases htracks.top top with ⟨x, tail, hrest, hts, hlast⟩
      dsimp only
      rw [hlast, Outcome.ret_bind]
      refine ⟨_, m', heads', _, rfl, hfirst', hresolves, hremaining, ?_⟩
      have hdrop : dropTop m' rest = Function.update rest i tail := by
        unfold dropTop dropHead
        rw [top]
        dsimp only
        rw [hrest]
        rfl
      have hidx : m'.peekDecoderIdx = some i := by
        unfold peekDecoderIdx
        rw [top]
        rfl
      have hlast' : m'.lastRecord = .ret (some x) := by
        unfold lastRecord
        rw [hidx]
        exact hlast
      have hopened : forall ts, heads' i ≠ some (.hint ts) := by
        intro ts' hhint
        have hreal := (htracks.heap _).mp (PriorityQueue.mem_of_peek top)
        rw [hhint] at hreal
        cases hreal
      rw [hdrop]
      rw [hts] at top
      exact Answers.record hrest
        (fun hbelow => htracks.leads (hbelow.resolves hresolves) top) hopened
        hidx hlast'
  | failed empty stop live closed =>
      exact ⟨_, m', heads', _, rfl, hfirst', hresolves, hremaining,
        Answers.error empty stop live closed htracks⟩

omit [LawfulPriorityQueue Q StreamHead] in
theorem Answers.resolves {heads1 : Nat -> Option IndexTs}
    {res : Except Error (Option R)} {todo' : Nat -> List R}
    (h : Answers heads1 todo stops m' heads' res todo')
    (hresolves : Resolves heads heads1) :
    Answers heads todo stops m' heads' res todo' := by
  cases h with
  | none empty top => exact Answers.none empty top
  | record head leads opened top last =>
      exact Answers.record head (fun hbelow => leads (hbelow.resolves hresolves))
        opened top last
  | @error i _ empty stop live closed tracks =>
      exact Answers.error empty stop (fun h => live ((hresolves i).1 h)) closed
        tracks

/-- What a call does to the streams that are left. -/
theorem Remaining.decodeRecordRef (h : Remaining m heads todo stops) :
    exists res m' heads' todo', m.decodeRecordRef = .ret (res, m') ∧
      Resolves heads heads' ∧ Remaining m' heads' todo' stops ∧
      Answers heads todo stops m' heads' res todo' := by
  rcases h.tracks with ⟨rest, htracks, htodo⟩
  unfold RecordDecoder.decodeRecordRef
  cases hfirst : m.isFirst with
  | true =>
      rw [hfirst] at htodo
      have hnext : Tracks { m with isFirst := false } heads rest stops ∅ :=
        ⟨htracks.stream, htracks.waiting, htracks.heap, htracks.nodup⟩
      rcases hnext.decodeNext rfl with
        ⟨res, m', heads', todo', hcall, _, hresolves, hremaining, hanswers⟩
      rw [htodo]
      exact ⟨res, m', heads', todo', hcall, hresolves, hremaining, hanswers⟩
  | false =>
      rw [hfirst] at htodo
      cases hpop : PriorityQueue.pop m.minHeap with
      | none =>
          have hpeek : PriorityQueue.peek m.minHeap = none := by
            rw [LawfulPriorityQueue.peek_eq, hpop]
            rfl
          have hrest : todo = rest := by
            rw [htodo]
            unfold dropTop
            rw [hpeek]
            rfl
          have hidx : m.peekDecoderIdx = none := by
            unfold peekDecoderIdx
            rw [hpeek]
            rfl
          refine ⟨_, m, heads, todo, rfl, Resolves.refl heads, h, ?_⟩
          rw [hrest]
          exact Answers.none (htracks.empty hpeek) hidx
      | some popped =>
          rcases popped with ⟨head, minHeap⟩
          have hdrop : todo = dropHead head rest := by
            rw [htodo]
            unfold dropTop
            rw [PriorityQueue.peek_of_pop hpop]
            rfl
          rcases htracks.pushNext_pop hpop with
            ⟨m1, heads1, hcall, hfirst1, _, hhead, hresolves, htracks1⟩
          rw [← hdrop] at hcall hhead htracks1
          rw [hfirst] at hfirst1 hcall
          dsimp only
          rw [if_neg Bool.false_ne_true]
          rw [hcall, Outcome.ret_bind]
          dsimp only
          cases hres : readResult (todo head.decoderIdx)
              (stops head.decoderIdx) with
          | error e =>
              rcases readResult_eq_error hres with ⟨hnil, hstop⟩
              have htop := (htracks.heap head).mp
                (PriorityQueue.mem_of_peek (PriorityQueue.peek_of_pop hpop))
              have hlive : heads head.decoderIdx ≠ none := by
                rw [htop]
                exact Option.some_ne_none _
              have hclosed : heads1 head.decoderIdx = none := by
                rw [hhead, Function.update_self, hnil]
                rfl
              refine ⟨_, m1, heads1, dropTop m1 todo, rfl, hresolves, ?_,
                Answers.error hnil hstop hlive hclosed htracks1⟩
              refine ⟨todo, htracks1, ?_⟩
              rw [hfirst1]
              rfl
          | ok _ =>
              rcases htracks1.decodeNext hfirst1 with
                ⟨res, m', heads', todo', hnext, _, hresolves', hremaining,
                  hanswers⟩
              exact ⟨res, m', heads', todo', hnext,
                hresolves.trans hresolves', hremaining,
                hanswers.resolves hresolves⟩

end Calls

/-!
## Construction
-/

section Construction

variable [LawfulPriorityQueue Q StreamHead]

/-- The streams of a list of decoders. -/
def streamAt (streams : List (List R)) (i : Nat) : List R :=
  streams.getD i []

/-- The errors that end the streams of a list of decoders. -/
def stopAt (stops : List (Option Error)) (i : Nat) : Option Error :=
  stops.getD i none

/-- Decoders with their streams and the errors that end them. -/
def Streams (decoders : List D) (streams : List (List R))
    (stops : List (Option Error)) : Prop :=
  streams.length = decoders.length ∧ stops.length = decoders.length ∧
    forall i d, decoders[i]? = some d ->
      Yields d (streamAt streams i) (stopAt stops i)

variable {decoders : List D} {streams : List (List R)}
  {stops : List (Option Error)}

omit [PriorityQueue Q StreamHead] [LawfulPriorityQueue Q StreamHead]
  [DecodeRecordRef D R] [Record R] in
theorem streamAt_of_ge {i : Nat} (h : streams.length ≤ i) :
    streamAt streams i = [] := by
  unfold streamAt
  rw [List.getD_eq_getElem?_getD, List.getElem?_eq_none h]
  rfl

/-- No decoder has been read from. -/
theorem Streams.tracks (h : Streams decoders streams stops) (isFirst : Bool) :
    Tracks (⟨decoders, PriorityQueue.empty, isFirst⟩ : RecordDecoder D Q)
      (fun _ => none) (streamAt streams) (stopAt stops)
      {i | i < decoders.length} where
  stream := by
    intro i hi
    have hge : decoders.length ≤ i := Nat.not_lt.mp hi
    rw [streamAt_of_ge (by rw [h.1]; exact hge)]
    exact Opened.ended _ _
  waiting := by
    intro i hi
    have hd := List.getElem?_eq_getElem hi
    exact ⟨rfl, _, hd, h.2.2 i _ hd⟩
  heap := by
    intro head
    dsimp only
    rw [LawfulPriorityQueue.toList_empty]
    constructor
    · intro hmem
      cases hmem
    · intro hsome
      cases hsome
  nodup := by
    dsimp only
    rw [LawfulPriorityQueue.toList_empty]
    exact List.nodup_nil

/-- The loop of `new`. -/
theorem Tracks.pushAll {count idx : Nat} {m : RecordDecoder D Q}
    {heads : Nat -> Option IndexTs} {rest : Nat -> List R}
    {stops : Nat -> Option Error}
    (h : Tracks m heads rest stops {i | idx ≤ i ∧ i < idx + count})
    (hheads : forall i ts, heads i ≠ some (.hint ts)) :
    (exists e i, m.pushAll count idx = .ret (Except.error e) ∧
      rest i = [] ∧ stops i = some e) ∨
    exists m' heads', m.pushAll count idx = .ret (Except.ok m') ∧
      m'.isFirst = m.isFirst ∧ Tracks m' heads' rest stops ∅ ∧
      (forall i ts, heads' i ≠ some (.hint ts)) := by
  induction count generalizing m heads idx with
  | zero =>
      have hnone : {i | idx ≤ i ∧ i < idx + 0} = (∅ : Set Nat) := by
        ext i
        simp only [Set.mem_ofPred_eq, Set.mem_empty_iff_false, iff_false]
        omega
      rw [hnone] at h
      exact Or.inr ⟨m, heads, rfl, rfl, h, hheads⟩
  | succ count ih =>
      rcases h.pushNext (i := idx) (by simp) with
        ⟨m1, hcall, hfirst, _, _, htracks⟩
      have hpending : {i | idx ≤ i ∧ i < idx + (count + 1)} \ {idx} =
          {i | idx + 1 ≤ i ∧ i < idx + 1 + count} := by
        ext i
        simp only [Set.mem_sdiff, Set.mem_ofPred_eq, Set.mem_singleton_iff]
        omega
      rw [hpending] at htracks
      have hheads1 : forall i ts,
          Function.update heads idx (headOf (rest idx)) i ≠
            some (.hint ts) := by
        intro i ts
        by_cases hi : i = idx
        · rw [hi, Function.update_self]
          unfold headOf
          intro hhint
          rcases Option.map_eq_some_iff.mp hhint with ⟨x, _, hx⟩
          cases hx
        · rw [Function.update_of_ne hi]
          exact hheads i ts
      unfold RecordDecoder.pushAll
      rw [hcall, Outcome.ret_bind]
      dsimp only
      cases hres : readResult (rest idx) (stops idx) with
      | error e =>
          rcases readResult_eq_error hres with ⟨hnil, hstop⟩
          exact Or.inl ⟨e, idx, rfl, hnil, hstop⟩
      | ok _ =>
          rcases ih htracks hheads1 with herror | ⟨m', heads', hloop, hrest⟩
          · exact Or.inl herror
          · rw [hfirst] at hrest
            exact Or.inr ⟨m', heads', hloop, hrest⟩

/-- A merging decoder for decoders whose first calls succeed. -/
theorem Streams.new (h : Streams decoders streams stops)
    (hne : decoders ≠ []) :
    (exists e i, new decoders =
        (.ret (Except.error e) : Outcome (Except Error (RecordDecoder D Q))) ∧
      streamAt streams i = [] ∧ stopAt stops i = some e) ∨
    exists (m : RecordDecoder D Q) (heads : Nat -> Option IndexTs),
      new decoders = .ret (Except.ok m) ∧
      Remaining m heads (streamAt streams) (stopAt stops) ∧
      m.isFirst = true ∧ (forall i ts, heads i ≠ some (.hint ts)) := by
  have htracks := h.tracks (Q := Q) true
  have hpending : {i | i < decoders.length} =
      {i | 0 ≤ i ∧ i < 0 + decoders.length} := by
    ext i
    simp only [Set.mem_ofPred_eq]
    omega
  rw [hpending] at htracks
  unfold RecordDecoder.new
  rw [if_neg (by simpa using hne)]
  rcases htracks.pushAll (by simp) with herror |
    ⟨m, heads, hloop, hfirst, hopened, hheads⟩
  · exact Or.inl herror
  · refine Or.inr ⟨m, heads, hloop, ?_, hfirst, hheads⟩
    refine ⟨_, hopened, ?_⟩
    rw [hfirst]
    rfl

omit [LawfulPriorityQueue Q StreamHead] [PriorityQueue Q StreamHead]
  [DecodeRecordRef D R] [Record R] in
theorem mem_hintHeads {hints : List Nat} {head : StreamHead} :
    head ∈ hintHeads hints <->
      hints[head.decoderIdx]?.map IndexTs.hint = some head.indexTs := by
  unfold hintHeads
  rw [List.mem_map, Option.map_eq_some_iff]
  constructor
  · intro hmem
    rcases hmem with ⟨h, hh, heq⟩
    rw [← heq]
    exact ⟨h.1, List.mem_zipIdx_iff_getElem?.mp hh, rfl⟩
  · intro hmem
    rcases hmem with ⟨ts, hts, heq⟩
    refine ⟨(ts, head.decoderIdx), List.mem_zipIdx_iff_getElem?.mpr hts, ?_⟩
    dsimp only
    rw [heq]

omit [LawfulPriorityQueue Q StreamHead] [Record R] [DecodeRecordRef D R] in
theorem withHints_eq_ok {hints : List Nat} {m : RecordDecoder D Q}
    (h : withHints decoders hints = Except.ok m) :
    decoders ≠ [] ∧ hints.length = decoders.length := by
  unfold RecordDecoder.withHints at h
  split at h
  · cases h
  · next hne =>
      split at h
      · cases h
      · next hlen =>
          refine ⟨fun hnil => hne ?_, (not_not.mp hlen).symm⟩
          rw [hnil]
          rfl

/-- A merging decoder that has not read from any decoder. -/
theorem Streams.withHints (h : Streams decoders streams stops)
    (hne : decoders ≠ []) {hints : List Nat}
    (hlen : hints.length = decoders.length) :
    exists m : RecordDecoder D Q,
      withHints decoders hints = Except.ok m ∧
      Remaining m (fun i => hints[i]?.map IndexTs.hint) (streamAt streams)
        (stopAt stops) ∧ m.isFirst = true := by
  unfold RecordDecoder.withHints
  rw [if_neg (by simpa using hne), if_neg (by simp [hlen])]
  refine ⟨_, rfl, ⟨streamAt streams, ?_, rfl⟩, rfl⟩
  have hperm := PriorityQueue.toList_foldl_push (hintHeads hints)
    (PriorityQueue.empty : Q)
  rw [LawfulPriorityQueue.toList_empty, List.append_nil] at hperm
  constructor
  · intro i _
    dsimp only
    by_cases hi : i < decoders.length
    · have hd := List.getElem?_eq_getElem hi
      have hhint : hints[i]? = some _ :=
        List.getElem?_eq_getElem (by rw [hlen]; exact hi)
      rw [hd, hhint]
      exact Opened.unopened (h.2.2 i _ hd)
    · rw [Nat.not_lt] at hi
      have hhint : hints[i]? = none :=
        List.getElem?_eq_none (by rw [hlen]; exact hi)
      have hnil : streamAt streams i = [] :=
        streamAt_of_ge (by rw [h.1]; exact hi)
      rw [hhint, hnil]
      exact Opened.ended _ _
  · intro i hi
    cases hi
  · intro head
    dsimp only
    rw [hperm.mem_iff]
    exact mem_hintHeads
  · dsimp only
    rw [(hperm.map _).nodup_iff]
    unfold hintHeads
    rw [List.map_map]
    show (hints.zipIdx.map Prod.snd).Nodup
    rw [List.zipIdx_map_snd]
    exact List.nodup_range' 1

end Construction

end RecordDecoder
end Merge
end Dbn
