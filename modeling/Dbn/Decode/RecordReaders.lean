import Dbn.Decode.MetadataAgreement
import Dbn.Decode.Reachable
import Dbn.Decode.WellFormedRecords

/-!
# Reading records in short reads

The record decoders infer the end of the stream from a read that returns no
bytes, so they rely on space being left whenever more bytes are wanted.  The
consumed bytes are at most half of the buffer then, and an incomplete record
has less than 1020 bytes.
-/

namespace Dbn
namespace DbnFsm

open Lib
open MetadataDecoder (decodeBlock)
open Async (decodeMetadataLoop)

variable {B D : Type} [Buffer B] [CalendarDate D]

/-!
## Repeated calls
-/

/-- Successive calls of `decode_ref`, with the bytes of the records. -/
def decodeRefs {R : Type} [Read R] (D : Type) [CalendarDate D] :
    Nat -> RecordDecoder R B ->
      Outcome (List (Except Error (Option (List UInt8))) × RecordDecoder R B)
  | 0, d => .ret ([], d)
  | n + 1, d => do
      let (res, d) ← d.decodeRef D
      let (results, d) ← decodeRefs D n d
      .ret (res.map (Option.map RecordRef.asRef) :: results, d)

/--
Any number of calls return these records, then `Ok(None)`, which they return
only when the reader is exhausted.
-/
def DecodesRecords (D : Type) [CalendarDate D] (images : List (List UInt8))
    (d : RecordDecoder ShortReader B) : Prop :=
  forall n, exists d',
    decodeRefs D n d =
      .ret ((images.map (fun image => Except.ok (some image))).take n ++
        List.replicate (n - images.length) (Except.ok none), d') ∧
    (images.length < n -> d'.reader.rest = [])

/-!
## One call
-/

/-- A machine in the record phase that has buffered a part of the stream. -/
structure Buffers (version : Nat) (policy : VersionUpgradePolicy)
    (tsOut : Bool) (buffered stream : List UInt8) (r : ShortReader)
    (fsm : DbnFsm B) : Prop where
  inRecords : InRecords version policy tsOut buffered fsm
  stream_eq : buffered ++ r.rest = stream
  le_capacity : defaultBufSize ≤ Buffer.capacity fsm.buffer
  position : fsm.state = .record ->
    Buffer.position fsm.buffer ≤ Buffer.capacity fsm.buffer / 2

section Call

variable [LawfulBuffer B] {version : Nat} {policy : VersionUpgradePolicy}
  {tsOut : Bool} {stream buffered : List UInt8} {fsm : DbnFsm B}
  {r : ShortReader}

/-- After settling, the consumed bytes are at most half of the buffer. -/
theorem Buffers.position_settle_le
    (h : Buffers version policy tsOut buffered stream r fsm) :
    Buffer.position fsm.settle.buffer ≤
      Buffer.capacity fsm.settle.buffer / 2 := by
  rcases recordPhase_iff.mp h.inRecords.recordPhase with
    hrec | ⟨_, _, _, _, hcons⟩
  · rw [settle_eq_self fsm hrec]
    exact h.position hrec
  · rw [settle_eq_consume hcons]
    simpa using Buffer.position_consume_le fsm.buffer _

theorem length_partialRecord (h : PartialRecord buffered) :
    buffered.length < 1020 := by
  have hsize := recordSize_le buffered
  unfold PartialRecord at h
  rw [headerLen_eq] at h
  omega

/-- A record that is asked for leaves space to be read into. -/
theorem Buffers.spaceLen_settle_pos
    (h : Buffers version policy tsOut buffered stream r fsm)
    (hpart : PartialRecord buffered) : 0 < fsm.settle.spaceLen := by
  have hposition := h.position_settle_le
  have hcapacity := capacity_settle fsm
  have hcap := h.le_capacity
  have hlayout := LawfulBuffer.layout fsm.settle.buffer
  have hspace : fsm.settle.spaceLen =
      Buffer.availableSpace fsm.settle.buffer := rfl
  have hlen := length_partialRecord hpart
  rw [data_buffer_settle h.inRecords.recordPhase, h.inRecords.data] at hlayout
  unfold defaultBufSize at hcap
  omega

theorem Buffers.settle
    (h : Buffers version policy tsOut buffered stream r fsm) :
    Buffers version policy tsOut buffered stream r fsm.settle where
  inRecords := h.inRecords.settle
  stream_eq := h.stream_eq
  le_capacity := by
    rw [capacity_settle]
    exact h.le_capacity
  position := fun _ => h.position_settle_le

/-- The machine with the bytes of another read. -/
theorem Buffers.read
    (h : Buffers version policy tsOut buffered stream r fsm) :
    Buffers version policy tsOut
      (buffered ++ r.rest.take (r.amount fsm.settle.spaceLen)) stream
      (r.advance (r.amount fsm.settle.spaceLen))
      (afterRead r fsm.settle) where
  inRecords := h.inRecords.settle.of_appends
    (appends_afterRead h.inRecords.settle.inv)
  stream_eq := by
    rw [ShortReader.rest_advance, List.append_assoc, List.take_append_drop]
    exact h.stream_eq
  le_capacity := by
    rw [capacity_afterRead, capacity_settle]
    exact h.le_capacity
  position := by
    intro _
    rw [capacity_afterRead]
    exact Nat.le_trans (position_afterRead_le r fsm.settle)
      h.position_settle_le

/-- A read that returns nothing leaves the machine as it is. -/
theorem Buffers.readNothing
    (h : Buffers version policy tsOut buffered stream r fsm) :
    Buffers version policy tsOut buffered stream (r.advance 0)
      (fsm.settle.writeSpace []) where
  inRecords := by
    have happ : fsm.settle.Appends [] (fsm.settle.writeSpace []) :=
      appends_with_buffer h.inRecords.settle.inv (by simp)
    have hwritten := h.inRecords.settle.of_appends happ
    rwa [List.append_nil] at hwritten
  stream_eq := by
    rw [ShortReader.rest_advance, List.drop_zero]
    exact h.stream_eq
  le_capacity := by
    simp only [writeSpace, LawfulBuffer.capacity_writeSpace, capacity_settle]
    exact h.le_capacity
  position := by
    intro _
    simp only [writeSpace, LawfulBuffer.capacity_writeSpace,
      LawfulBuffer.position_writeSpace]
    exact h.position_settle_le

omit [LawfulBuffer B] in
/-- What a call does when the machine asks for more. -/
theorem decodeRefLoop_of_readMore {n fuel : Nat}
    (hret : fsm.process (D := D) = .ret (.readMore n, fsm.settle)) :
    RecordDecoder.decodeRefLoop D (fuel + 1) ⟨r, fsm⟩ =
      if r.amount fsm.settle.spaceLen = 0 then
        .ret (Except.ok none, ⟨r.advance 0, fsm.settle.writeSpace []⟩)
      else
        RecordDecoder.decodeRefLoop D fuel
          ⟨r.advance (r.amount fsm.settle.spaceLen),
            afterRead r fsm.settle⟩ := by
  rw [RecordDecoder.decodeRefLoop]
  dsimp only
  rw [hret]
  dsimp only
  rw [readSpace_shortReader]
  dsimp only
  split
  · next hzero =>
      rw [hzero, List.take_zero]
  · rfl

variable {rec rest : List UInt8} {fuel : Nat}

/-- A record that is buffered is handed out. -/
theorem Buffers.process_record
    (hrec : WellFormedRecord version policy tsOut rec)
    (h : Buffers version policy tsOut buffered (rec ++ rest) r fsm)
    (hlen : rec.length ≤ buffered.length) :
    exists fsm' buffered', fsm.process (D := D) = .ret (.record (), fsm') ∧
      fsm'.lastBytes = some (upgradedImage version policy tsOut rec) ∧
      Buffers version policy tsOut buffered' rest r fsm' := by
  have hpiece : buffered <+: rec ++ rest :=
    h.stream_eq ▸ List.prefix_append buffered r.rest
  obtain ⟨tail, rfl⟩ : rec <+: buffered :=
    List.prefix_of_prefix_length_le (List.prefix_append rec rest) hpiece hlen
  have hstream := h.stream_eq
  rw [List.append_assoc] at hstream
  obtain ⟨fsm', hret, hlast, hin, hbuffer, hstate⟩ :=
    h.inRecords.process_record (D := D) hrec
  refine ⟨fsm', tail, hret, hlast, hin, List.append_cancel_left hstream,
    ?_, ?_⟩
  · rw [hbuffer, capacity_settle]
    exact h.le_capacity
  · exact fun hrecord => absurd hrecord hstate

/-- A call returns the next record of the stream. -/
theorem Buffers.decodeRefLoop_record
    (hrec : WellFormedRecord version policy tsOut rec)
    (h : Buffers version policy tsOut buffered (rec ++ rest) r fsm)
    (hfuel : 1020 - buffered.length < fuel) :
    exists r' fsm' buffered', RecordDecoder.decodeRefLoop D fuel ⟨r, fsm⟩ =
        .ret (Except.ok fsm'.lastRecord, ⟨r', fsm'⟩) ∧
      fsm'.lastBytes = some (upgradedImage version policy tsOut rec) ∧
      Buffers version policy tsOut buffered' rest r' fsm' := by
  induction fuel generalizing buffered r fsm with
  | zero => omega
  | succ fuel ih =>
      by_cases hlen : rec.length ≤ buffered.length
      · obtain ⟨fsm', tail, hret, hlast, hbuffers⟩ :=
          h.process_record (D := D) hrec hlen
        refine ⟨r, fsm', tail, ?_, hlast, hbuffers⟩
        rw [RecordDecoder.decodeRefLoop]
        dsimp only
        rw [hret]
      · have hpiece : buffered <+: rec ++ rest :=
          h.stream_eq ▸ List.prefix_append buffered r.rest
        have hpart := partialRecord_of_prefix hpiece hrec.size (by omega)
        have hspace := h.spaceLen_settle_pos hpart
        have hshort := length_partialRecord hpart
        have hstream := congrArg List.length h.stream_eq
        rw [List.length_append, List.length_append] at hstream
        obtain ⟨n, hret, _⟩ := h.inRecords.process_partial (D := D) hpart
        have hamount : r.amount fsm.settle.spaceLen ≠ 0 := by
          rw [Ne, ShortReader.amount_eq_zero, ← List.length_eq_zero_iff]
          omega
        rw [decodeRefLoop_of_readMore hret, if_neg hamount]
        refine ih h.read ?_
        rw [List.length_append, ShortReader.length_take_amount]
        omega

/-- A call at the end of the stream returns nothing. -/
theorem Buffers.decodeRefLoop_end (hpart : PartialRecord stream)
    (h : Buffers version policy tsOut buffered stream r fsm)
    (hfuel : 1020 - buffered.length < fuel) :
    exists r' fsm' buffered', RecordDecoder.decodeRefLoop D fuel ⟨r, fsm⟩ =
        .ret (Except.ok none, ⟨r', fsm'⟩) ∧
      r'.rest = [] ∧
      Buffers version policy tsOut buffered' stream r' fsm' := by
  induction fuel generalizing buffered r fsm with
  | zero => omega
  | succ fuel ih =>
      have hbuffered : PartialRecord buffered := by
        have htake := partialRecord_take hpart buffered.length
        rwa [← h.stream_eq, List.take_left] at htake
      have hspace := h.spaceLen_settle_pos hbuffered
      have hshort := length_partialRecord hbuffered
      obtain ⟨n, hret, _⟩ := h.inRecords.process_partial (D := D) hbuffered
      rw [decodeRefLoop_of_readMore hret]
      by_cases hamount : r.amount fsm.settle.spaceLen = 0
      · have hnil : r.rest = [] := by
          rcases ShortReader.amount_eq_zero.mp hamount with hzero | hnil
          · omega
          · exact hnil
        rw [if_pos hamount]
        exact ⟨_, _, buffered, rfl, by simp [hnil], h.readNothing⟩
      · rw [if_neg hamount]
        refine ih h.read ?_
        rw [List.length_append, ShortReader.length_take_amount]
        omega

/-- The calls return the records of the stream. -/
theorem Buffers.decodesRecords {records : List (List UInt8)}
    {trailing : List UInt8}
    (hrecords : forall rec, rec ∈ records ->
      WellFormedRecord version policy tsOut rec)
    (hpart : PartialRecord trailing)
    (h : Buffers version policy tsOut buffered
      (records.flatten ++ trailing) r fsm) :
    DecodesRecords D (records.map (upgradedImage version policy tsOut))
      ⟨r, fsm⟩ := by
  intro n
  induction n generalizing records buffered r fsm with
  | zero => exact ⟨⟨r, fsm⟩, by simp [decodeRefs], by simp⟩
  | succ n ih =>
      cases records with
      | nil =>
          obtain ⟨r', fsm', buffered', hret, hnil, hnext⟩ :=
            h.decodeRefLoop_end (D := D) hpart
              (show 1020 - buffered.length < 1021 by omega)
          obtain ⟨d', hrest, hend⟩ := ih hrecords hnext
          refine ⟨d', ?_, fun _ => ?_⟩
          · rw [decodeRefs, RecordDecoder.decodeRef, hret, Outcome.ret_bind]
            dsimp only
            rw [hrest]
            simp [List.replicate_succ, Except.map]
          · cases n with
            | zero =>
                cases hrest
                exact hnil
            | succ n => exact hend (Nat.succ_pos n)
      | cons rec rest =>
          have hstream := h
          rw [List.flatten_cons, List.append_assoc] at hstream
          obtain ⟨r', fsm', buffered', hret, hlast, hnext⟩ :=
            hstream.decodeRefLoop_record (D := D)
              (hrecords rec List.mem_cons_self)
              (show 1020 - buffered.length < 1021 by omega)
          obtain ⟨d', hrest, hend⟩ := ih
            (fun other hin => hrecords other (List.mem_cons_of_mem rec hin))
            hnext
          refine ⟨d', ?_, fun hlt => hend (Nat.lt_of_succ_lt_succ hlt)⟩
          rw [decodeRefs, RecordDecoder.decodeRef, hret, Outcome.ret_bind]
          dsimp only
          rw [hrest]
          unfold lastBytes at hlast
          simp [Except.map, hlast]

end Call

/-!
## A decoder without metadata
-/

theorem tryVersion_eq_ok {version : Nat} {v : DbnVersion}
    (h : tryVersion version = Res.ok v) : v.val = version := by
  unfold tryVersion at h
  split at h
  · cases h
    rfl
  · cases h

theorem buffers_withVersion [LawfulBuffer B] {r : ShortReader}
    {version : Nat} {policy : VersionUpgradePolicy} {tsOut : Bool}
    {d : RecordDecoder ShortReader B}
    (h : RecordDecoder.withVersion r version policy tsOut = Res.ok d) :
    d.reader = r ∧ Buffers version policy tsOut [] r.rest r d.fsm := by
  obtain ⟨builder, hbuilder, h⟩ := Res.bind_eq_ok.mp h
  obtain ⟨fsm, hbuild, heq⟩ := Res.bind_eq_ok.mp h
  cases heq
  obtain ⟨v, hv, heq⟩ := Res.bind_eq_ok.mp hbuilder
  cases heq
  have hversion := tryVersion_eq_ok hv
  have hfsm := DbnFsmBuilder.build_eq_ok hbuild
  have hinv := inv_build hbuild
  refine ⟨rfl, ⟨?_, hinv, ?_, ?_, ?_, ?_⟩, rfl, ?_, ?_⟩
  · rw [hfsm]
    rfl
  · rw [hfsm, ← hversion]
    rfl
  · rw [hfsm]
  · rw [hfsm]
  · rw [hfsm]
    simp [data]
  · rw [hfsm]
    simp
    exact Nat.le_refl _
  · intro _
    rw [hfsm]
    simp

/-!
## A decoder after metadata
-/

section Metadata

variable {policy : VersionUpgradePolicy} {stream fed : List UInt8}
  {r : ShortReader} {fsm fsm' : DbnFsm B} {m : Metadata D}
  {md : MetadataDecoder ShortReader B}

/-- The call that returns the metadata. -/
theorem process_of_decodeBlock
    (h : decodeBlock r fsm = .ret (Except.ok m, md)) :
    fsm.process = .ret (.metadata m, md.fsm) ∧ md.reader = r := by
  unfold decodeBlock at h
  split at h <;> cases h
  exact ⟨‹_›, rfl⟩

variable [LawfulBuffer B]

omit [LawfulBuffer B] in
/-- Metadata is returned for an accepted prelude and a complete block. -/
theorem Holds.accepts_of_metadata (h : Holds policy fsm fed)
    (hret : fsm.process = .ret (.metadata m, fsm')) :
    exists version length, AcceptsPrelude policy fed version length := by
  rcases h.phase with ⟨hstate, hfed⟩ | ⟨v, l, _, _, haccept, _⟩
  swap
  · exact ⟨v, l, haccept⟩
  by_contra hrejects
  by_cases hshort : (Buffer.data fsm.buffer).length < metadataPreludeLen
  · rw [process_prelude_short hstate hshort] at hret
    cases hret
  · obtain ⟨e, version, hprocess⟩ := process_prelude_rejects (D := D) hstate
      (Nat.not_lt.mp hshort) (fun v l hv => hrejects ⟨v, l, by
        rwa [h.upgradePolicy, hfed] at hv⟩)
    rw [hprocess] at hret
    cases hret

/-- The block from which metadata was decoded, and the machine after it. -/
theorem Holds.process_metadata (h : Holds policy fsm fed)
    (hret : fsm.process = .ret (.metadata m, fsm')) :
    exists version length fsm1 m1, AcceptsPrelude policy fed version length ∧
      metadataPreludeLen + length ≤ fed.length ∧ Holds policy fsm1 fed ∧
      fsm1.state = .metadata length ∧
      fsm1.inputDbnVersion = some version ∧
      Buffer.data fsm1.buffer = fed.drop metadataPreludeLen ∧
      Buffer.capacity fsm.buffer ≤ Buffer.capacity fsm1.buffer ∧
      decodeMetadataImpl version (fed.drop metadataPreludeLen) = Res.ok m1 ∧
      m = m1.upgrade policy ∧ fsm' = fsm1.metadataDone length m1.tsOut := by
  rcases h.accepts_of_metadata hret with ⟨version, length, haccept⟩
  obtain ⟨fsm1, fuel, hholds, hstate, hversion, hdata, hcap, hprocess⟩ :=
    h.process_accepted (D := D) haccept
  have hroom := haccept.room
  have hlen : (Buffer.data fsm1.buffer).length =
      fed.length - metadataPreludeLen := by
    rw [hdata, List.length_drop]
  rw [hprocess] at hret
  by_cases hshort : (Buffer.data fsm1.buffer).length < length
  · rw [processLoop_metadata_short hstate hshort] at hret
    cases hret
  rw [DbnFsm.processLoop_metadata hstate hversion (Nat.not_lt.mp hshort)]
    at hret
  split at hret
  · next m1 hok =>
      rw [hdata] at hok
      rw [hholds.upgradePolicy] at hret
      cases hret
      exact ⟨version, length, fsm1, m1, haccept, by omega, hholds, hstate,
        hversion, hdata, hcap, hok, rfl, rfl⟩
  · cases hret
  · cases hret

/-- The machine that has returned the metadata. -/
theorem Reading.process_metadata (h : Reading policy stream r fsm fed)
    (hret : fsm.process = .ret (.metadata m, fsm')) :
    exists version length, AcceptsPrelude policy stream version length ∧
      exists buffered, Buffers version policy m.tsOut buffered
        (stream.drop (metadataPreludeLen + length)) r fsm' := by
  rcases h.holds.process_metadata hret with ⟨version, length, fsm1, m1,
    haccept, hroom, hholds, hstate, hversion, hdata, hcap, _, rfl, rfl⟩
  refine ⟨version, length, ?_, (fed.drop metadataPreludeLen).drop length, ?_⟩
  · rw [← h.stream_eq]
    exact (acceptsPrelude_append haccept.room).mpr haccept
  have hinv := hholds.inv
  unfold Inv at hinv
  rw [hstate] at hinv
  refine ⟨⟨rfl, ⟨hinv.1, hinv.2.1⟩, hversion, hholds.upgradePolicy, ?_, ?_⟩,
    ?_, ?_, ?_⟩
  · exact (m1.upgrade_tsOut _).symm
  · unfold data metadataDone
    simp [hdata]
  · rw [← h.stream_eq, ← List.drop_drop,
      List.drop_append_of_le_length haccept.room,
      List.drop_append_of_le_length (by rw [List.length_drop]; omega)]
  · have hle := h.le_capacity
    unfold metadataDone
    simp only [LawfulBuffer.capacity_shift, LawfulBuffer.capacity_consume]
    omega
  · intro _
    unfold metadataDone
    simp

/-- A successful synchronous decoder has made such a call. -/
theorem reading_of_syncMetadata
    (h : syncMetadata B D policy r = .ret (Except.ok m, md)) :
    exists fed fsm, Reading policy r.rest md.reader fsm fed ∧
      fsm.process = .ret (.metadata m, md.fsm) := by
  have hfirst := reading_first (B := B) policy r
  rcases hfirst.process_cases (D := D) with
    ⟨_, n, fsm', hret, hasks⟩ | ⟨_, hfinal, _⟩
  swap
  · rw [syncMetadata_of_final r hfinal] at h
    obtain ⟨hprocess, hreader⟩ := process_of_decodeBlock h
    rw [hreader]
    exact ⟨_, _, hfirst, hprocess⟩
  rcases hasks.readLoop with ⟨r2, fsm2, more, hloop, hdone⟩ |
    ⟨r2, fsm2, hloop, _⟩
  · rw [(decoders_of_readLoop_ok r hret hloop).1] at h
    obtain ⟨hprocess, hreader⟩ := process_of_decodeBlock h
    rw [hreader]
    exact ⟨_, _, hdone.reading, hprocess⟩
  · rw [(decoders_of_readLoop_error r hret hloop).1] at h
    cases h

theorem reading_of_decodeMetadataLoop {fuel : Nat}
    (hreading : Reading policy stream r fsm fed)
    (h : decodeMetadataLoop fuel r fsm = .ret (Except.ok m, md)) :
    exists fed fsm, Reading policy stream md.reader fsm fed ∧
      fsm.process = .ret (.metadata m, md.fsm) := by
  induction fuel generalizing r fsm fed with
  | zero => cases h
  | succ fuel ih =>
      rcases hreading.process_cases (D := D) with
        ⟨_, n, fsm', hret, hasks⟩ | ⟨_, hfinal, _⟩
      swap
      · rw [decodeMetadataLoop_of_final hfinal] at h
        obtain ⟨hprocess, hreader⟩ := process_of_decodeBlock h
        rw [hreader]
        exact ⟨_, _, hreading, hprocess⟩
      rw [decodeMetadataLoop, hret] at h
      dsimp only at h
      rcases hasks.readLoop with ⟨r2, fsm2, more, hloop, hdone⟩ |
        ⟨r2, fsm2, hloop, _⟩
      · rw [hloop] at h
        exact ih hdone.reading h
      · rw [hloop] at h
        cases h

/-- A successful asynchronous decoder has made such a call. -/
theorem reading_of_asyncMetadata
    (h : asyncMetadata B D policy r = .ret (Except.ok m, md)) :
    exists fed fsm, Reading policy r.rest md.reader fsm fed ∧
      fsm.process = .ret (.metadata m, md.fsm) := by
  rw [asyncMetadata_eq] at h
  exact reading_of_decodeMetadataLoop (reading_first policy r) h

/-- The record decoder takes over the machine of the metadata decoder. -/
theorem Buffers.fromMetadataDecoder {version : Nat} {tsOut : Bool}
    {buffered : List UInt8}
    (h : Buffers version policy tsOut buffered stream md.reader md.fsm) :
    exists d, RecordDecoder.fromMetadataDecoder md = Res.ok d ∧
      Buffers version policy tsOut buffered stream d.reader d.fsm := by
  unfold RecordDecoder.fromMetadataDecoder
  rw [h.inRecords.inputDbnVersion]
  dsimp only
  split
  · refine ⟨_, rfl, ⟨h.inRecords.recordPhase,
      inv_growCompat h.inRecords.inv _, h.inRecords.inputDbnVersion,
      h.inRecords.upgradePolicy, h.inRecords.tsOut, h.inRecords.data⟩,
      h.stream_eq, h.le_capacity, h.position⟩
  · exact ⟨_, rfl, h⟩

/--
A record decoder that takes over from a successful metadata decoder, which
accepted a prelude, returns the complete records after the metadata.
-/
theorem recordDecoder_of_metadata (records : List (List UInt8))
    {trailing : List UInt8} (hpart : PartialRecord trailing)
    (hdecode : syncMetadata B D policy r = .ret (Except.ok m, md) ∨
      asyncMetadata B D policy r = .ret (Except.ok m, md)) :
    exists d version length,
      RecordDecoder.fromMetadataDecoder md = Res.ok d ∧
      AcceptsPrelude policy r.rest version length ∧
      (r.rest.drop (metadataPreludeLen + length) =
          records.flatten ++ trailing ->
        (forall rec, rec ∈ records ->
          WellFormedRecord version policy m.tsOut rec) ->
        DecodesRecords D
          (records.map (upgradedImage version policy m.tsOut)) d) := by
  have hreading : exists fed fsm, Reading policy r.rest md.reader fsm fed ∧
      fsm.process = .ret (.metadata m, md.fsm) := by
    rcases hdecode with hsync | hasync
    · exact reading_of_syncMetadata hsync
    · exact reading_of_asyncMetadata hasync
  obtain ⟨fed, fsm, hreading, hprocess⟩ := hreading
  obtain ⟨version, length, haccept, buffered, hbuffers⟩ :=
    hreading.process_metadata hprocess
  obtain ⟨d, hd, hbuffers⟩ := hbuffers.fromMetadataDecoder
  refine ⟨d, version, length, hd, haccept, fun hstream hrecords => ?_⟩
  rw [hstream] at hbuffers
  exact hbuffers.decodesRecords hrecords hpart

end Metadata

/--
Whatever the reader returns at a time, a decoder for records of a known version
and a decoder that takes over from a successful metadata decoder return the
complete records of the stream and then, with the reader exhausted, nothing.
-/
theorem recordDecoders_decode (B D : Type) [Buffer B] [LawfulBuffer B]
    [CalendarDate D] (policy : VersionUpgradePolicy) (r : ShortReader)
    (records : List (List UInt8)) (trailing : List UInt8)
    (hpart : PartialRecord trailing) :
    (forall version tsOut (d : RecordDecoder ShortReader B),
      RecordDecoder.withVersion r version policy tsOut = Res.ok d ->
      r.rest = records.flatten ++ trailing ->
      (forall rec, rec ∈ records ->
        WellFormedRecord version policy tsOut rec) ->
      DecodesRecords D (records.map (upgradedImage version policy tsOut))
        d) ∧
    (forall (m : Metadata D) md,
      syncMetadata B D policy r = .ret (Except.ok m, md) ∨
        asyncMetadata B D policy r = .ret (Except.ok m, md) ->
      exists d version length,
        RecordDecoder.fromMetadataDecoder md = Res.ok d ∧
        AcceptsPrelude policy r.rest version length ∧
        (r.rest.drop (metadataPreludeLen + length) =
            records.flatten ++ trailing ->
          (forall rec, rec ∈ records ->
            WellFormedRecord version policy m.tsOut rec) ->
          DecodesRecords D
            (records.map (upgradedImage version policy m.tsOut)) d)) := by
  constructor
  · intro version tsOut d hnew hstream hrecords
    obtain ⟨hreader, hbuffers⟩ := buffers_withVersion hnew
    rw [hstream, ← hreader] at hbuffers
    exact hbuffers.decodesRecords hrecords hpart
  · intro m md hdecode
    exact recordDecoder_of_metadata records hpart hdecode

/-- A stream of metadata and a record of sixteen bytes. -/
def headerStream : List UInt8 :=
  zeroBlockStream 120 ++ 4 :: List.replicate 15 0

set_option maxRecDepth 8000 in
/-- Reads of one byte, of a heartbeat and a part of a record, and of a block. -/
theorem recordDecoders_decode_heartbeat :
    (exists d : RecordDecoder ShortReader VecBuffer,
      RecordDecoder.withVersion ⟨heartbeatV1 ++ [20, 0x17], fun _ => 1⟩ 1
        .upgradeToV3 false = Res.ok d ∧
      DecodesRecords GregorianDate
        [upgradedImage 1 .upgradeToV3 false heartbeatV1] d) ∧
    (exists m md,
      syncMetadata VecBuffer GregorianDate .upgradeToV3
        ⟨headerStream, fun _ => 200⟩ = .ret (Except.ok m, md) ∧
      exists d version length,
        RecordDecoder.fromMetadataDecoder md = Res.ok d ∧
        AcceptsPrelude .upgradeToV3 headerStream version length ∧
        (headerStream.drop (metadataPreludeLen + length) =
            [4 :: List.replicate 15 0].flatten ++ [] ->
          (forall rec, rec ∈ [4 :: List.replicate 15 0] ->
            WellFormedRecord version .upgradeToV3 m.tsOut rec) ->
          DecodesRecords GregorianDate ([4 :: List.replicate 15 0].map
            (upgradedImage version .upgradeToV3 m.tsOut)) d)) :=
  ⟨⟨_, rfl, (recordDecoders_decode VecBuffer GregorianDate .upgradeToV3
      ⟨heartbeatV1 ++ [20, 0x17], fun _ => 1⟩ [heartbeatV1] [20, 0x17]
      (by decide)).1 1 false _ rfl (by decide +kernel) (by decide +kernel)⟩,
    ⟨_, _, rfl, (recordDecoders_decode VecBuffer GregorianDate .upgradeToV3
      ⟨headerStream, fun _ => 200⟩ [4 :: List.replicate 15 0] []
      (by decide)).2 _ _ (Or.inl rfl)⟩⟩

end DbnFsm
end Dbn
