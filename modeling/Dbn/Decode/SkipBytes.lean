import Dbn.Decode.RecordReaders
import Dbn.Lib.Bisimulation

/-!
# Skipping bytes

A record decoder over a reader answers like a cursor on the bytes that have
not been returned yet, however these are split between the machine and the
reader.  Skipping bytes moves the cursor.
-/

namespace Dbn
namespace DbnFsm

open Lib

variable {B D : Type} [Buffer B] [CalendarDate D]

/-!
## The cursor
-/

/-- An answer of `decode_ref`, with the bytes of the record. -/
abbrev Decoded :=
  Except Error (Option (List UInt8))

section Cursor

variable (version : Nat) (policy : VersionUpgradePolicy) (tsOut : Bool)

/-- What a call returns on the bytes that have not been returned yet. -/
def decodeNext (bytes : List UInt8) : Outcome (Decoded × List UInt8) :=
  match next policy tsOut (some version) bytes with
  | .needMore _ => .ret (Except.ok none, bytes)
  | .invalid e => .ret (Except.error e, bytes)
  | .truncated => .panic Panic.assertion
  | .record image _ =>
      .ret (Except.ok (some image), bytes.drop (recordSize bytes))

/-- The answers to a number of calls. -/
def decodeAll (calls : Nat) (bytes : List UInt8) : List (Outcome Decoded) :=
  answers (fun (_ : Unit) => decodeNext version policy tsOut)
    (List.replicate calls ()) bytes

end Cursor

variable {version : Nat} {policy : VersionUpgradePolicy} {tsOut : Bool}
  {bytes rest : List UInt8}

theorem decodeNext_of_record {image : List UInt8} {version' : Option Nat}
    (h : next policy tsOut (some version) bytes = .record image version') :
    decodeNext version policy tsOut bytes =
      .ret (Except.ok (some image), bytes.drop (recordSize bytes)) := by
  unfold decodeNext
  rw [h]

/-- What is delivered from some bytes is delivered with more behind them. -/
theorem Delivers.append_right {images : List (List UInt8)}
    {version version' : Option Nat} {left : List UInt8}
    (h : Delivers policy tsOut version bytes images version' left)
    (rest : List UInt8) :
    Delivers policy tsOut version (bytes ++ rest) images version'
      (left ++ rest) := by
  induction h with
  | nil version bytes => exact Delivers.nil version _
  | @cons version _ _ bytes _ image images head tail ih =>
      have hcomplete := complete_of_next_record head
      have hwhole : ¬ PartialRecord bytes := by
        have hlen := hcomplete.length_le
        have hbody := hcomplete.body
        unfold PartialRecord
        omega
      rcases next_append policy tsOut version hwhole rest with
        ⟨hnext, hsize⟩
      rw [← List.drop_append_of_le_length hcomplete.body, ← hsize] at ih
      exact Delivers.cons (hnext.trans head) ih

/-- The delivered images are the first answers. -/
theorem decodeAll_of_delivers {images : List (List UInt8)}
    {known version' : Option Nat} {left : List UInt8}
    (h : Delivers policy tsOut known bytes images version' left)
    (hknown : known = some version) (calls : Nat) :
    decodeAll version policy tsOut (images.length + calls) bytes =
      images.map (fun image => .ret (Except.ok (some image))) ++
        decodeAll version policy tsOut calls left := by
  induction h with
  | nil known bytes => simp
  | cons head tail ih =>
      subst hknown
      have hstep := decodeNext_of_record head
      have hrest := ih (version_of_next head)
      unfold decodeAll at hrest ⊢
      rw [List.length_cons, Nat.add_right_comm, List.replicate_succ, answers,
        hstep]
      dsimp only
      rw [hrest]
      rfl

/-- The records among some answers. -/
def records (decoded : List Decoded) : List (List UInt8) :=
  decoded.filterMap fun
    | Except.ok image => image
    | Except.error _ => none

theorem records_cons (answer : Decoded) (decoded : List Decoded) :
    records (answer :: decoded) = records [answer] ++ records decoded :=
  List.filterMap_append (l := [answer])

/-- A call returns the bytes that it moves past, or it moves past none. -/
theorem delivers_of_decodeNext {answer : Decoded}
    (h : decodeNext version policy tsOut bytes = .ret (answer, rest)) :
    exists returned, bytes = returned ++ rest ∧
      Delivers policy tsOut (some version) returned (records [answer])
        (some version) [] := by
  unfold decodeNext at h
  cases hnext : next policy tsOut (some version) bytes with
  | needMore n =>
      rw [hnext] at h
      cases h
      exact ⟨[], rfl, Delivers.nil _ _⟩
  | invalid e =>
      rw [hnext] at h
      cases h
      exact ⟨[], rfl, Delivers.nil _ _⟩
  | truncated =>
      rw [hnext] at h
      cases h
  | record image version' =>
      rw [hnext] at h
      cases h
      have hcomplete := complete_of_next_record hnext
      have hheader := hcomplete.header
      rw [headerLen_eq] at hheader
      have hsize : recordSize (bytes.take (recordSize bytes)) =
          recordSize bytes := recordSize_take (by omega) bytes
      have hlen : (bytes.take (recordSize bytes)).length =
          recordSize bytes := by
        rw [List.length_take, Nat.min_eq_left hcomplete.body]
      have hwhole : ¬ PartialRecord (bytes.take (recordSize bytes)) := by
        unfold PartialRecord
        rw [hsize, hlen, headerLen_eq]
        omega
      have hsame := (next_append policy tsOut (some version) hwhole
        (bytes.drop (recordSize bytes))).1
      rw [List.take_append_drop, hnext] at hsame
      refine ⟨bytes.take (recordSize bytes),
        (List.take_append_drop _ _).symm, ?_⟩
      have hdeliver := Delivers.cons hsame.symm (Delivers.nil _ _)
      rwa [hsize, List.drop_eq_nil_of_le (Nat.le_of_eq hlen),
        version_of_next hnext] at hdeliver

end DbnFsm

/-!
## The decoder
-/

namespace RecordDecoder

open Lib
open DbnFsm

variable {B D : Type} [Buffer B] [CalendarDate D]

/-- A call of `decode_ref`, with the bytes of the record. -/
def decodeBytes (D : Type) [CalendarDate D]
    (d : RecordDecoder ShortReader B) :
    Outcome (Decoded × RecordDecoder ShortReader B) := do
  let (res, d) ← d.decodeRef D
  .ret (res.map (Option.map RecordRef.asRef), d)

/-- The answers to a number of calls. -/
def decodeAll (D : Type) [CalendarDate D] (calls : Nat)
    (d : RecordDecoder ShortReader B) : List (Outcome Decoded) :=
  answers (fun (_ : Unit) => decodeBytes D) (List.replicate calls ()) d

/-- The bytes that have not been returned as records. -/
def unreturned (d : RecordDecoder ShortReader B) : List UInt8 :=
  d.fsm.data ++ d.reader.rest

/-- The decoder is in the record phase, with some bytes not yet returned. -/
def Remains (version : Nat) (policy : VersionUpgradePolicy) (tsOut : Bool)
    (d : RecordDecoder ShortReader B) (bytes : List UInt8) : Prop :=
  exists buffered, Buffers version policy tsOut buffered bytes d.reader d.fsm

section Calls

variable {version : Nat} {policy : VersionUpgradePolicy} {tsOut : Bool}
  {buffered stream : List UInt8} {r : ShortReader} {fsm : DbnFsm B}
  {d : RecordDecoder ShortReader B}

theorem Remains.unreturned_eq (h : Remains version policy tsOut d stream) :
    d.unreturned = stream := by
  rcases h with ⟨buffered, h⟩
  unfold unreturned
  rw [h.inRecords.data]
  exact h.stream_eq

variable [LawfulBuffer B]

/-- The reads go on until what comes next is decided. -/
theorem decodeRefLoop_gather (hwhole : ¬ PartialRecord stream)
    (h : Buffers version policy tsOut buffered stream r fsm) {fuel : Nat}
    (hfuel : 1020 - buffered.length < fuel) :
    exists fuel' r' fsm' buffered',
      decodeRefLoop D fuel ⟨r, fsm⟩ =
        decodeRefLoop D (fuel' + 1) ⟨r', fsm'⟩ ∧
      Buffers version policy tsOut buffered' stream r' fsm' ∧
      ¬ PartialRecord buffered' := by
  induction fuel generalizing buffered r fsm with
  | zero => omega
  | succ fuel ih =>
      by_cases hpart : PartialRecord buffered
      swap
      · exact ⟨fuel, r, fsm, buffered, rfl, h, hpart⟩
      have hspace := h.spaceLen_settle_pos hpart
      have hshort := length_partialRecord hpart
      have hrest : r.rest ≠ [] := by
        intro hnil
        have hstream := h.stream_eq
        rw [hnil, List.append_nil] at hstream
        exact hwhole (hstream ▸ hpart)
      have hamount : r.amount fsm.settle.spaceLen ≠ 0 := by
        rw [Ne, ShortReader.amount_eq_zero, not_or]
        exact ⟨by omega, hrest⟩
      rcases h.inRecords.process_partial (D := D) hpart with ⟨n, hret, _⟩
      rw [decodeRefLoop_of_readMore hret, if_neg hamount]
      apply ih h.read
      rw [List.length_append, ShortReader.length_take_amount]
      omega

/-- One round decides what comes next. -/
theorem decodeRefLoop_decided
    (h : Buffers version policy tsOut buffered stream r fsm)
    (hwhole : ¬ PartialRecord buffered) (fuel : Nat) :
    AnswersAlike (Remains version policy tsOut)
      (decodeRefLoop D (fuel + 1) ⟨r, fsm⟩ >>= fun x =>
        .ret (x.1.map (Option.map RecordRef.asRef), x.2))
      (decodeNext version policy tsOut stream) := by
  have hstream := h.stream_eq
  rcases next_append policy tsOut (some version) hwhole r.rest with
    ⟨hnext, hsize⟩
  rw [hstream] at hnext hsize
  have hitem := h.inRecords.nextItem_eq
  unfold decodeNext
  rw [hnext, decodeRefLoop]
  dsimp only
  cases hdecided : next policy tsOut (some version) buffered with
  | needMore n =>
      exact absurd ((partialRecord_iff policy tsOut (some version)).mpr
        ⟨n, hdecided⟩) hwhole
  | invalid e =>
      rw [hdecided] at hitem
      rw [process_invalid h.inRecords.recordPhase hitem]
      exact AnswersAlike.ret ⟨buffered, h.settle⟩
  | truncated =>
      rw [hdecided] at hitem
      rw [process_truncated h.inRecords.inv h.inRecords.recordPhase hitem]
      exact AnswersAlike.panic _
  | record image version' =>
      rcases h.inRecords.process_image (D := D) hdecided with
        ⟨fsm', hret, hlast, hin, hbuffer, hstate⟩
      have hbody := (complete_of_next_record hdecided).body
      rw [hret]
      dsimp only
      rw [Outcome.ret_bind]
      have himage : (Except.ok fsm'.lastRecord : Except Error _).map
          (Option.map RecordRef.asRef) = Except.ok (some image) :=
        congrArg Except.ok hlast
      rw [himage, hsize]
      apply AnswersAlike.ret
      refine ⟨_, hin, ?_, ?_, ?_⟩
      · rw [← hstream, List.drop_append_of_le_length hbody]
      · rw [hbuffer, capacity_settle]
        exact h.le_capacity
      · intro hrecord
        exact absurd hrecord hstate

/-- However the bytes are split, a call answers like the cursor. -/
theorem bisimulation_decodeBytes :
    Bisimulation (fun (_ : Unit) => decodeBytes (B := B) D)
      (fun _ => decodeNext version policy tsOut)
      (Remains version policy tsOut) := by
  intro _ d stream hremains
  rcases hremains with ⟨buffered, h⟩
  have hfuel : 1020 - buffered.length < 1021 := by omega
  change AnswersAlike _ (decodeRefLoop D 1021 ⟨d.reader, d.fsm⟩ >>= fun x =>
    .ret (x.1.map (Option.map RecordRef.asRef), x.2))
    (decodeNext version policy tsOut stream)
  by_cases hpart : PartialRecord stream
  · rcases (partialRecord_iff policy tsOut (some version)).mp hpart with
      ⟨n, hneed⟩
    rcases h.decodeRefLoop_end (D := D) hpart hfuel with
      ⟨r', fsm', buffered', hret, _, hbuffers⟩
    unfold decodeNext
    rw [hret, hneed]
    exact AnswersAlike.ret ⟨buffered', hbuffers⟩
  · rcases decodeRefLoop_gather (D := D) hpart h hfuel with
      ⟨fuel', r', fsm', buffered', hloop, hbuffers, hwhole⟩
    rw [hloop]
    exact decodeRefLoop_decided hbuffers hwhole fuel'

theorem Remains.decodeAll_eq (h : Remains version policy tsOut d stream)
    (calls : Nat) : d.decodeAll D calls =
      DbnFsm.decodeAll version policy tsOut calls stream :=
  bisimulation_decodeBytes.answers_eq _ h

/-!
## Skipping
-/

variable [SkipBytes ShortReader Error]

/-- The split of the skipped bytes between the machine and the reader. -/
theorem Remains.skipBytes (hskip : ShortReader.SkipsNext Error)
    (h : Remains version policy tsOut d stream) {n : Nat}
    (hn : n ≤ stream.length) :
    exists d', d.skipBytes n = (Except.ok (), d') ∧
      Remains version policy tsOut d' (stream.drop n) := by
  rcases h with ⟨buffered, h⟩
  have hdata : Buffer.data d.fsm.settle.buffer = buffered := by
    rw [data_buffer_settle h.inRecords.recordPhase, h.inRecords.data]
  have hsettled := state_settle h.inRecords.recordPhase
  have hstream := h.stream_eq
  have hlength := congrArg List.length hstream
  rw [List.length_append] at hlength
  -- the machine after the deferred consumption and the skip
  have hskipped : forall {r : ShortReader},
      buffered.drop n ++ r.rest = stream.drop n ->
      Buffers version policy tsOut (buffered.drop n) (stream.drop n) r
        (d.fsm.skip n) := by
    intro r hrest
    have hin := h.inRecords.settle
    refine ⟨⟨hin.recordPhase, inv_skip h.inRecords.inv n,
      hin.inputDbnVersion, hin.upgradePolicy, hin.tsOut, ?_⟩, hrest, ?_, ?_⟩
    · have hstate : (d.fsm.skip n).state = .record := hsettled
      rw [data_eq_buffer hstate]
      unfold skip
      simp [hdata]
    · unfold skip
      simp only [LawfulBuffer.capacity_consume, capacity_settle]
      exact h.le_capacity
    · intro _
      unfold skip
      simp only [LawfulBuffer.capacity_consume]
      exact Buffer.position_consume_le _ n
  unfold RecordDecoder.skipBytes skipCount Buffer.availableData
  rw [hdata]
  dsimp only
  by_cases hreader : min n buffered.length < n
  · have hlong : buffered.length ≤ n := by omega
    rw [if_pos hreader, Nat.min_eq_right hlong]
    rcases hskip d.reader (n - buffered.length) (by omega) with
      ⟨r', hcall, hrest⟩
    rw [hcall]
    refine ⟨_, rfl, buffered.drop n, hskipped ?_⟩
    rw [← hstream, hrest, List.drop_append, List.drop_eq_nil_of_le hlong]
  · rw [if_neg hreader]
    refine ⟨_, rfl, buffered.drop n, hskipped ?_⟩
    rw [← hstream, List.drop_append_of_le_length (by omega)]

end Calls

/-!
## Runs
-/

section Runs

variable [LawfulBuffer B] {version : Nat} {policy : VersionUpgradePolicy}
  {tsOut : Bool} {stream : List UInt8} {d d' : RecordDecoder ShortReader B}

theorem Remains.decodeRef (h : Remains version policy tsOut d stream)
    {res : Except Error (Option RecordRef)}
    (hret : d.decodeRef D = .ret (res, d')) :
    exists rest,
      decodeNext version policy tsOut stream =
        .ret (res.map (Option.map RecordRef.asRef), rest) ∧
      Remains version policy tsOut d' rest := by
  have halike := bisimulation_decodeBytes (D := D) () d stream h
  unfold decodeBytes at halike
  dsimp only at halike
  rw [hret, Outcome.ret_bind] at halike
  generalize hnext : decodeNext version policy tsOut stream = y at halike
  cases halike with
  | ret related => exact ⟨_, rfl, related⟩

/-- The records of a run are what was delivered from the bytes before. -/
theorem Remains.decodeRefs (h : Remains version policy tsOut d stream)
    {calls : Nat} {decoded : List Decoded}
    (hrun : decodeRefs D calls d = .ret (decoded, d')) :
    exists returned, stream = returned ++ d'.unreturned ∧
      Delivers policy tsOut (some version) returned (records decoded)
        (some version) [] ∧
      Remains version policy tsOut d' d'.unreturned := by
  induction calls generalizing d stream decoded with
  | zero =>
      cases hrun
      have hsame := h.unreturned_eq
      refine ⟨[], hsame.symm, Delivers.nil _ _, ?_⟩
      rw [hsame]
      exact h
  | succ calls ih =>
      rcases Outcome.bind_eq_ret.mp hrun with ⟨⟨res, d1⟩, hret, hrun⟩
      rcases Outcome.bind_eq_ret.mp hrun with ⟨⟨results, d2⟩, hrest, heq⟩
      cases heq
      rcases h.decodeRef hret with ⟨rest, hnext, hremains⟩
      rcases delivers_of_decodeNext hnext with ⟨first, hfirst, hdeliver⟩
      rcases ih hremains hrest with ⟨more, hmore, hdelivers, hend⟩
      refine ⟨first ++ more, ?_, ?_, hend⟩
      · rw [hfirst, hmore, List.append_assoc]
      · rw [records_cons]
        exact (hdeliver.append_right more).append hdelivers

end Runs

/-- The decoders of a version and a policy, with the bytes of their records. -/
inductive Starts (D : Type) [CalendarDate D] (policy : VersionUpgradePolicy) :
    Nat -> Bool -> List UInt8 -> RecordDecoder ShortReader B -> Prop where
  | withVersion {r : ShortReader} {version : Nat} {tsOut : Bool}
      {d : RecordDecoder ShortReader B}
      (call : withVersion r version policy tsOut = Res.ok d) :
      Starts D policy version tsOut r.rest d
  /-- The decoder that goes on after the metadata. -/
  | fromMetadata {r : ShortReader} {m : Metadata D}
      {md : MetadataDecoder ShortReader B} {version length : Nat}
      {d : RecordDecoder ShortReader B}
      (decoded : syncMetadata B D policy r = .ret (Except.ok m, md))
      (prelude : AcceptsPrelude policy r.rest version length)
      (call : fromMetadataDecoder md = Res.ok d) :
      Starts D policy version m.tsOut
        (r.rest.drop (metadataPreludeLen + length)) d

theorem Starts.remains [LawfulBuffer B] {policy : VersionUpgradePolicy}
    {version : Nat} {tsOut : Bool} {stream : List UInt8}
    {d : RecordDecoder ShortReader B}
    (h : Starts D policy version tsOut stream d) :
    Remains version policy tsOut d stream := by
  cases h with
  | withVersion call =>
      rcases buffers_withVersion call with ⟨hreader, hbuffers⟩
      unfold Remains
      rw [hreader]
      exact ⟨[], hbuffers⟩
  | fromMetadata decoded prelude call =>
      rcases reading_of_syncMetadata decoded with
        ⟨fed, fsm, hreading, hprocess⟩
      rcases hreading.process_metadata hprocess with
        ⟨version', length', haccept, buffered, hbuffers⟩
      rcases hbuffers.fromMetadataDecoder with ⟨d', hd', hbuffers⟩
      rw [call] at hd'
      cases hd'
      rw [prelude.version_eq, prelude.length_eq, ← haccept.version_eq,
        ← haccept.length_eq]
      exact ⟨buffered, hbuffers⟩

/--
At any point of a run, after some of the next bytes were skipped the answers
are those that decoding the stream without these bytes gives after the records
that had been returned.
-/
theorem skipBytes_drops [LawfulBuffer B] [SkipBytes ShortReader Error]
    (hskip : ShortReader.SkipsNext Error) {policy : VersionUpgradePolicy}
    {version : Nat} {tsOut : Bool} {stream : List UInt8}
    {start d : RecordDecoder ShortReader B}
    (hstart : Starts D policy version tsOut stream start) {calls : Nat}
    {decoded : List Decoded}
    (hrun : decodeRefs D calls start = .ret (decoded, d)) {n : Nat}
    (hn : n ≤ d.unreturned.length) :
    exists returned d', stream = returned ++ d.unreturned ∧
      Delivers policy tsOut (some version) returned (records decoded)
        (some version) [] ∧
      d.skipBytes n = (Except.ok (), d') ∧
      forall other : RecordDecoder ShortReader B,
        Starts D policy version tsOut (returned ++ d.unreturned.drop n)
          other ->
        forall more, other.decodeAll D ((records decoded).length + more) =
          (records decoded).map (fun image => .ret (Except.ok (some image))) ++
            d'.decodeAll D more := by
  rcases hstart.remains.decodeRefs hrun with
    ⟨returned, hstream, hdelivers, hremains⟩
  rcases hremains.skipBytes hskip hn with ⟨d', hcall, hskipped⟩
  refine ⟨returned, d', hstream, hdelivers, hcall, ?_⟩
  intro other hother more
  rw [hother.remains.decodeAll_eq, hskipped.decodeAll_eq]
  exact decodeAll_of_delivers (hdelivers.append_right _) rfl more

/-- A reader that can be moved ahead. -/
@[reducible] def seekAhead : SkipBytes ShortReader Error where
  skipBytes r n := (Except.ok (), r.advance n)

set_option maxRecDepth 8000 in
/-- After one of two heartbeats, with a part of the other buffered. -/
theorem skipBytes_drops_heartbeat :
    exists start d returned, exists d' : RecordDecoder ShortReader VecBuffer,
      withVersion ⟨heartbeatV1 ++ heartbeatV1, fun _ => 100⟩ 1 .asIs false =
        Res.ok start ∧
      decodeRefs GregorianDate 1 start =
        .ret ([Except.ok (some heartbeatV1)], d) ∧
      heartbeatV1 ++ heartbeatV1 = returned ++ d.unreturned ∧
      @skipBytes _ _ _ seekAhead d 30 = (Except.ok (), d') ∧
      forall other : RecordDecoder ShortReader VecBuffer,
        Starts GregorianDate .asIs 1 false (returned ++ d.unreturned.drop 30)
          other ->
        forall more, other.decodeAll GregorianDate (1 + more) =
          .ret (Except.ok (some heartbeatV1)) ::
            d'.decodeAll GregorianDate more := by
  have hstart : exists start : RecordDecoder ShortReader VecBuffer,
      withVersion ⟨heartbeatV1 ++ heartbeatV1, fun _ => 100⟩ 1 .asIs false =
        Res.ok start := ⟨_, rfl⟩
  rcases hstart with ⟨start, hstart⟩
  have hrun : exists d, decodeRefs GregorianDate 1 start =
      .ret ([Except.ok (some heartbeatV1)], d) ∧
        30 ≤ d.unreturned.length := by
    cases hstart
    exact ⟨_, rfl, by decide +kernel⟩
  rcases hrun with ⟨d, hrun, hroom⟩
  rcases @skipBytes_drops VecBuffer GregorianDate _ _ _ seekAhead
      (fun r n _ => ⟨_, rfl, rfl⟩) .asIs 1 false _ start d
      (Starts.withVersion hstart) 1 _ hrun 30 hroom with
    ⟨returned, d', hstream, _, hskip, hother⟩
  exact ⟨start, d, returned, d', hstart, hrun, hstream, hskip, hother⟩

end RecordDecoder

end Dbn
