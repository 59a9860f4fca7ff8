import Dbn.Decode.MergeOrder

/-!
# The heads that are taken from the heap

The entries of a stream are its hint, when it has one, and the timestamps of
its records.  Whatever the calls of a merging decoder return, they take the
entries from the heap in the order of their merge, and a call that takes the
last entry of a failing stream ends there.
-/

namespace Dbn
namespace Merge
namespace RecordDecoder

open Lib

variable {D Q R : Type} [DecodeRecordRef D R] [Record R]

/-- The entries of the records of a stream. -/
def reals (rest : List R) : List IndexTs :=
  rest.map (fun x => .real (Record.rawIndexTs x))

/-- The entries of a stream with its head on the heap. -/
def entriesOf (head : Option IndexTs) (rest : List R) : List IndexTs :=
  match head with
  | some (.hint ts) => .hint ts :: reals rest
  | _ => reals rest

/--
Entries are taken up to the last one of a failing stream, or any number of
entries without such a one.
-/
inductive Takes (stops : Nat -> Option Error) :
    List (Nat × IndexTs) -> Option Error -> List (Nat × IndexTs) -> Prop where
  | stay (left : List (Nat × IndexTs)) : Takes stops left none left
  | pass {i : Nat} {entry : IndexTs} {left left' : List (Nat × IndexTs)}
      {failure : Option Error}
      (goes : stops i = none ∨ exists e, e ∈ left ∧ e.1 = i)
      (rest : Takes stops left failure left') :
      Takes stops ((i, entry) :: left) failure left'
  | fail {i : Nat} {entry : IndexTs} {e : Error}
      {left : List (Nat × IndexTs)} (stop : stops i = some e)
      (last : forall e, e ∈ left -> e.1 ≠ i) :
      Takes stops ((i, entry) :: left) (some e) left

/--
The last entry of a failing stream is followed by the one of a record of this
stream.
-/
def Discards (stops : Nat -> Option Error) (j : Nat)
    (entries : List (Nat × IndexTs)) : Prop :=
  exists before f last ts after,
    entries = before ++ (f, last) :: (j, .real ts) :: after ∧
      stops f ≠ none ∧ forall e, e ∈ (j, .real ts) :: after -> e.1 ≠ f

namespace Takes

variable {stops : Nat -> Option Error} {j : Nat}
  {left left' : List (Nat × IndexTs)} {failure : Option Error}

theorem length_le (h : Takes stops left failure left') :
    left'.length ≤ left.length := by
  induction h with
  | stay left => exact Nat.le_refl _
  | pass goes rest ih => exact Nat.le_succ_of_le ih
  | fail stop last => exact Nat.le_succ _

theorem suffix (h : Takes stops left failure left') : left' <:+ left := by
  induction h with
  | stay left => exact List.suffix_refl _
  | pass goes rest ih => exact ih.trans (List.suffix_cons _ _)
  | fail stop last => exact List.suffix_cons _ _

theorem trans {left'' : List (Nat × IndexTs)}
    (h : Takes stops left none left') (h' : Takes stops left' failure left'') :
    Takes stops left failure left'' := by
  generalize hnone : (none : Option Error) = failure' at h
  induction h with
  | stay left => exact h'
  | pass goes rest ih => exact Takes.pass goes (ih h' hnone)
  | fail stop last => cases hnone

/-- A failure comes after the last entry of a failing stream. -/
theorem of_failure {e : Error} (h : Takes stops left (some e) left') :
    exists before f last, left = before ++ (f, last) :: left' ∧
      stops f ≠ none ∧ forall e, e ∈ left' -> e.1 ≠ f := by
  generalize hsome : some e = failure at h
  induction h with
  | stay left => cases hsome
  | @pass i entry left left' failure goes rest ih =>
      obtain ⟨before, f, last, heq, hstop, hlast⟩ := ih hsome
      refine ⟨(i, entry) :: before, f, last, ?_, hstop, hlast⟩
      rw [heq, List.cons_append]
  | @fail i entry e left stop last =>
      refine ⟨[], i, entry, rfl, ?_, last⟩
      rw [stop]
      exact Option.some_ne_none e

/-- The last entry of a failing stream is still left, or the call fails. -/
theorem fails_or_left (h : Takes stops left failure left')
    {before tail : List (Nat × IndexTs)} {f : Nat} {last : IndexTs}
    (heq : left = before ++ (f, last) :: tail) (hstop : stops f ≠ none)
    (hlast : forall e, e ∈ tail -> e.1 ≠ f) :
    (exists before', left' = before' ++ (f, last) :: tail) ∨
      (left' = tail ∧ failure ≠ none) := by
  induction h generalizing before with
  | stay left => exact Or.inl ⟨before, heq⟩
  | @pass i entry left left' failure goes rest ih =>
      cases before with
      | nil =>
          cases heq
          rcases goes with hnone | ⟨e, hmem, hi⟩
          · exact absurd hnone hstop
          · exact absurd hi (hlast e hmem)
      | cons b before =>
          cases heq
          exact ih rfl
  | @fail i entry e left stop last' =>
      cases before with
      | nil =>
          cases heq
          exact Or.inr ⟨rfl, Option.some_ne_none e⟩
      | cons b before =>
          cases heq
          exact Or.inl ⟨before, rfl⟩

end Takes

theorem Discards.of_suffix {stops : Nat -> Option Error} {j : Nat}
    {entries entries' : List (Nat × IndexTs)} (h : Discards stops j entries')
    (hsuffix : entries' <:+ entries) : Discards stops j entries := by
  obtain ⟨before, f, last, ts, after, rfl, hstop, hlast⟩ := h
  obtain ⟨taken, rfl⟩ := hsuffix
  exact ⟨taken ++ before, f, last, ts, after, by rw [List.append_assoc], hstop,
    hlast⟩

/-- The entries of the streams that are left. -/
def entriesLeft (heads : Nat -> Option IndexTs) (rest : Nat -> List R)
    (i : Nat) : List IndexTs :=
  entriesOf (heads i) (rest i)

theorem entriesOf_headOf (rest : List R) :
    entriesOf (headOf rest) rest = reals rest := by
  cases rest <;> rfl

theorem entriesOf_none {d : Option D} {rest : List R} {stop : Option Error}
    (h : Opened d none rest stop) : entriesOf none rest = [] := by
  cases h
  rfl

/-- The head is the first entry; without it the others are left. -/
theorem entriesOf_some {d : Option D} {head : StreamHead}
    {rest : Nat -> List R} {stop : Option Error}
    (h : Opened d (some head.indexTs) (rest head.decoderIdx) stop) :
    entriesOf (some head.indexTs) (rest head.decoderIdx) =
      head.indexTs :: reals (dropHead head rest head.decoderIdx) := by
  unfold dropHead
  generalize hts : head.indexTs = ts at h
  generalize hs : rest head.decoderIdx = s at h
  cases h with
  | head last tail =>
      dsimp only
      rw [Function.update_self]
      rfl
  | unopened tail =>
      dsimp only
      rw [hs]
      rfl

/-- The error of a failed call. -/
def failureOf {A : Type} (res : Except Error A) : Option Error :=
  match res with
  | Except.error e => some e
  | Except.ok _ => none

section Follows

variable [PriorityQueue Q StreamHead]

/-- The merge of the entries that are left of the streams. -/
def Follows (m : RecordDecoder D Q) (stops : Nat -> Option Error)
    (left : List (Nat × IndexTs)) : Prop :=
  exists heads rest, Tracks m heads rest stops ∅ ∧
    Merges IndexTs.ts (entriesLeft heads rest) left

variable [LawfulPriorityQueue Q StreamHead] {m : RecordDecoder D Q}
  {heads : Nat -> Option IndexTs} {rest : Nat -> List R}
  {stops : Nat -> Option Error} {left : List (Nat × IndexTs)}

omit [LawfulPriorityQueue Q StreamHead] in
theorem Tracks.entriesOf_head (h : Tracks m heads rest stops ∅)
    (head : StreamHead)
    (hhead : heads head.decoderIdx = some head.indexTs) :
    entriesLeft heads rest head.decoderIdx =
      head.indexTs :: reals (dropHead head rest head.decoderIdx) := by
  unfold entriesLeft
  have hopen := h.stream head.decoderIdx (Set.notMem_empty _)
  rw [hhead] at hopen ⊢
  exact entriesOf_some hopen

omit [LawfulPriorityQueue Q StreamHead] in
/-- The first entry of a stream is its head. -/
theorem Tracks.head_of_entriesOf (h : Tracks m heads rest stops ∅) {i : Nat}
    {entry : IndexTs} {entries : List IndexTs}
    (hentries : entriesLeft heads rest i = entry :: entries) :
    heads i = some entry := by
  unfold entriesLeft at hentries
  have hopen := h.stream i (Set.notMem_empty _)
  cases hhead : heads i with
  | none =>
      rw [hhead] at hopen hentries
      rw [entriesOf_none hopen] at hentries
      cases hentries
  | some ts =>
      have hcons := h.entriesOf_head ⟨ts, i⟩ hhead
      unfold entriesLeft at hcons
      dsimp only at hcons
      rw [hhead] at hcons hentries
      rw [hentries] at hcons
      cases hcons
      rfl

/-- The head on top of the heap leads the entries. -/
theorem Tracks.leads_top (h : Tracks m heads rest stops ∅) {head : StreamHead}
    (hpeek : PriorityQueue.peek m.minHeap = some head) :
    Leads IndexTs.ts (entriesLeft heads rest) head.decoderIdx
      head.indexTs := by
  intro j y entries hentries
  have hle := PriorityQueue.peek_le hpeek
    ((h.heap ⟨y, j⟩).mpr (h.head_of_entriesOf hentries))
  rw [StreamHead.le_iff] at hle
  unfold rank
  rw [Prod.Lex.toLex_le_toLex']
  constructor
  · show head.indexTs.ts ≤ y.ts
    dsimp only at hle
    omega
  · intro heq
    have heq' : head.indexTs.ts = y.ts := heq
    show head.decoderIdx ≤ j
    dsimp only at hle
    omega

/-- The first entry that is left is on top of the heap. -/
theorem Follows.top {i : Nat} {entry : IndexTs}
    (h : Follows m stops ((i, entry) :: left)) :
    PriorityQueue.peek m.minHeap = some ⟨entry, i⟩ := by
  obtain ⟨heads, rest, htracks, hmerges⟩ := h
  cases hmerges with
  | pick head leads tail =>
      have hmem := (htracks.heap ⟨entry, i⟩).mpr
        (htracks.head_of_entriesOf head)
      cases hpeek : PriorityQueue.peek m.minHeap with
      | none =>
          rw [PriorityQueue.peek_eq_none.mp hpeek] at hmem
          cases hmem
      | some other =>
          have hother := htracks.entriesOf_head other
            ((htracks.heap other).mp (PriorityQueue.mem_of_peek hpeek))
          obtain ⟨rfl, rfl, _⟩ := Merges.leads_unique head leads hother
            (htracks.leads_top hpeek)
          rfl

/-- With no entry left the heap is empty. -/
theorem Follows.peek_eq_none (h : Follows m stops []) :
    PriorityQueue.peek m.minHeap = none := by
  obtain ⟨heads, rest, htracks, hmerges⟩ := h
  cases hmerges with
  | done empty =>
      cases hpeek : PriorityQueue.peek m.minHeap with
      | none => rfl
      | some head =>
          have hentries := htracks.entriesOf_head head
            ((htracks.heap head).mp (PriorityQueue.mem_of_peek hpeek))
          rw [empty] at hentries
          cases hentries

omit [LawfulPriorityQueue Q StreamHead] in
theorem Follows.hintCount_le (h : Follows m stops left) :
    m.hintCount ≤ m.decoders.length := by
  obtain ⟨_, _, htracks, _⟩ := h
  exact htracks.hintCount_le

/-- Taking the first entry and reading on in its stream. -/
theorem Follows.pushNext {i : Nat} {entry : IndexTs}
    (h : Follows m stops ((i, entry) :: left)) {minHeap : Q}
    (hpop : PriorityQueue.pop m.minHeap = some (⟨entry, i⟩, minHeap)) :
    exists res m', { m with minHeap := minHeap }.pushNext i = .ret (res, m') ∧
      m'.isFirst = m.isFirst ∧
      m'.hintCount + (if entry.isHint then 1 else 0) = m.hintCount ∧
      Follows m' stops left ∧
      Takes stops ((i, entry) :: left) (failureOf res) left := by
  obtain ⟨heads, rest, htracks, hmerges⟩ := h
  rcases htracks.pushNext_pop hpop with
    ⟨m', heads', hcall, hfirst, hcount, hheads, _, htracks'⟩
  dsimp only at hcall hcount hheads htracks'
  refine ⟨_, m', hcall, hfirst, hcount, ?_⟩
  cases hmerges with
  | pick head leads tail =>
      have hhead := htracks.entriesOf_head ⟨entry, i⟩
        (htracks.head_of_entriesOf head)
      dsimp only at hhead
      rw [head] at hhead
      cases hhead
      -- the entries after the one that was taken
      have hentries : entriesLeft heads' (dropHead ⟨entry, i⟩ rest) =
          Function.update (entriesLeft heads rest) i
            (reals (dropHead ⟨entry, i⟩ rest i)) := by
        funext j
        unfold entriesLeft
        rw [hheads]
        by_cases hj : j = i
        · rw [hj, Function.update_self, Function.update_self,
            entriesOf_headOf]
        · rw [Function.update_of_ne hj, Function.update_of_ne hj,
            dropHead_of_ne hj]
      have hmore := tail.exists_mem_iff (i := i)
      rw [Function.update_self] at hmore
      rw [← hentries] at tail
      refine ⟨⟨heads', _, htracks', tail⟩, ?_⟩
      cases hdrop : dropHead ⟨entry, i⟩ rest i with
      | nil =>
          rw [hdrop] at hmore
          have hlast : forall e, e ∈ left -> e.1 ≠ i := by
            intro e he hi
            exact hmore.mp ⟨e, he, hi⟩ rfl
          cases hstop : stops i with
          | none => exact Takes.pass (Or.inl hstop) (Takes.stay left)
          | some e => exact Takes.fail hstop hlast
      | cons x tail' =>
          rw [hdrop] at hmore
          exact Takes.pass (Or.inr (hmore.mpr (List.cons_ne_nil _ _)))
            (Takes.stay left)

/-- The search for the next decoder takes hints. -/
theorem Follows.nextDecoderIdxLoop {fuel : Nat} (h : Follows m stops left)
    (hfuel : m.hintCount < fuel) :
    exists res m' left', m.nextDecoderIdxLoop fuel = .ret (res, m') ∧
      m'.isFirst = m.isFirst ∧ Follows m' stops left' ∧
      Takes stops left (failureOf res) left' ∧
      forall i, res = Except.ok (some i) ->
        exists ts, PriorityQueue.peek m'.minHeap = some ⟨.real ts, i⟩ := by
  induction fuel generalizing m left with
  | zero => exact absurd hfuel (Nat.not_lt_zero _)
  | succ fuel ih =>
      rw [RecordDecoder.nextDecoderIdxLoop]
      cases left with
      | nil =>
          rw [h.peek_eq_none]
          exact ⟨_, m, [], rfl, rfl, h, Takes.stay [], fun i hi => by cases hi⟩
      | cons first left =>
          rcases first with ⟨i, entry⟩
          have hpeek := h.top
          rw [hpeek]
          cases entry with
          | real ts =>
              refine ⟨_, m, _, rfl, rfl, h, Takes.stay _, fun j hj => ?_⟩
              cases hj
              exact ⟨ts, hpeek⟩
          | hint ts =>
              rcases PriorityQueue.pop_of_peek hpeek with ⟨minHeap, hpop⟩
              rcases h.pushNext hpop with
                ⟨res, m1, hcall, hfirst, hcount, hfollows, htakes⟩
              simp only [IndexTs.isHint, if_true] at hcount
              dsimp only
              rw [PriorityQueue.dropMin_of_pop hpop, hcall, Outcome.ret_bind]
              dsimp only
              cases res with
              | error e =>
                  exact ⟨_, m1, left, rfl, hfirst, hfollows, htakes,
                    fun i hi => by cases hi⟩
              | ok _ =>
                  rcases ih hfollows (by omega) with
                    ⟨res, m', left', hloop, hfirst', hfollows', htakes', htop⟩
                  exact ⟨res, m', left', hloop, hfirst'.trans hfirst, hfollows',
                    htakes.trans htakes', htop⟩

theorem Follows.decodeNext (h : Follows m stops left) :
    exists res m' left', m.decodeNext = .ret (res, m') ∧
      m'.isFirst = m.isFirst ∧ Follows m' stops left' ∧
      Takes stops left (failureOf res) left' := by
  rcases h.nextDecoderIdxLoop (Nat.lt_succ_of_le h.hintCount_le) with
    ⟨res, m', left', hloop, hfirst, hfollows, htakes, htop⟩
  unfold RecordDecoder.decodeNext nextDecoderIdx
  rw [hloop, Outcome.ret_bind]
  dsimp only
  cases res with
  | error e => exact ⟨_, m', left', rfl, hfirst, hfollows, htakes⟩
  | ok idx =>
      cases idx with
      | none => exact ⟨_, m', left', rfl, hfirst, hfollows, htakes⟩
      | some i =>
          obtain ⟨ts, hpeek⟩ := htop i rfl
          obtain ⟨heads, rest, htracks, hmerges⟩ := hfollows
          obtain ⟨x, tail, _, _, hlast⟩ := htracks.top hpeek
          dsimp only
          rw [hlast, Outcome.ret_bind]
          exact ⟨_, m', left', rfl, hfirst, ⟨heads, rest, htracks, hmerges⟩,
            htakes⟩

omit [LawfulPriorityQueue Q StreamHead] in
theorem Follows.notFirst (h : Follows m stops left) :
    Follows { m with isFirst := false } stops left := by
  obtain ⟨heads, rest, htracks, hmerges⟩ := h
  exact ⟨heads, rest,
    ⟨htracks.stream, htracks.waiting, htracks.heap, htracks.nodup⟩, hmerges⟩

/-- A call takes entries, at least one unless it is the first call. -/
theorem Follows.decodeRecordRef (h : Follows m stops left) :
    exists res m' left', m.decodeRecordRef = .ret (res, m') ∧
      m'.isFirst = false ∧ Follows m' stops left' ∧
      Takes stops left (failureOf res) left' ∧
      (m.isFirst = false -> left ≠ [] -> left'.length < left.length) := by
  unfold RecordDecoder.decodeRecordRef
  cases hfirst : m.isFirst with
  | true =>
      rcases h.notFirst.decodeNext with
        ⟨res, m', left', hcall, hfirst', hfollows, htakes⟩
      refine ⟨res, m', left', hcall, hfirst', hfollows, htakes, ?_⟩
      intro hfalse
      cases hfalse
  | false =>
      dsimp only
      rw [if_neg Bool.false_ne_true]
      cases left with
      | nil =>
          have hpop : PriorityQueue.pop m.minHeap = none :=
            (LawfulPriorityQueue.pop_eq_none _).mpr
              (PriorityQueue.peek_eq_none.mp h.peek_eq_none)
          rw [hpop]
          exact ⟨_, m, [], rfl, hfirst, h, Takes.stay [],
            fun _ hne => absurd rfl hne⟩
      | cons first left =>
          rcases first with ⟨i, entry⟩
          rcases PriorityQueue.pop_of_peek h.top with ⟨minHeap, hpop⟩
          rcases h.pushNext hpop with
            ⟨res, m1, hcall, hfirst1, _, hfollows, htakes⟩
          rw [hfirst] at hcall hfirst1
          rw [hpop]
          dsimp only
          rw [hcall, Outcome.ret_bind]
          dsimp only
          cases res with
          | error e =>
              exact ⟨_, m1, left, rfl, hfirst1, hfollows, htakes,
                fun _ _ => Nat.lt_succ_self _⟩
          | ok _ =>
              rcases hfollows.decodeNext with
                ⟨res, m', left', hnext, hfirst', hfollows', htakes'⟩
              exact ⟨res, m', left', hnext, hfirst'.trans hfirst1, hfollows',
                htakes.trans htakes',
                fun _ _ => Nat.lt_succ_of_le htakes'.length_le⟩

end Follows

end RecordDecoder
end Merge
end Dbn
