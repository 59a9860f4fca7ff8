import Dbn.Decode.DecoderVersion
import Dbn.Decode.UpgradePaths
import Dbn.Lib.Reader

/-!
# Decoding from any reader

A decoder only reads from its reader.  So what it does with an honest reader it
does with short reads of the same bytes, and what is known of all short reads
holds for every honest reader.
-/

namespace Dbn

open Lib
open DbnFsm

variable {R B D α : Type} [Read R] [Buffer B] [CalendarDate D]
  {holds : R -> List UInt8 -> Prop} {bytes : List UInt8}

/-!
## Replayed decoders
-/

/-- A read into the space of a machine, and the same as a short read. -/
theorem Lib.Honest.readSpace (hhonest : Honest holds) {r : R}
    (h : holds r bytes) (fsm : DbnFsm B) :
    exists n r', Dbn.readSpace r fsm =
        (Except.ok n, r', fsm.writeSpace (bytes.take n)) ∧
      holds r' (bytes.drop n) ∧
      forall schedule,
        Dbn.readSpace (ShortReader.thatReturns n bytes schedule) fsm =
          (Except.ok n, ⟨bytes.drop n, schedule⟩,
            fsm.writeSpace (bytes.take n)) := by
  rcases hhonest r bytes fsm.spaceLen h with
    ⟨n, r', hread, hspace, hbytes, hzero, hr'⟩
  have hlength : (bytes.take n).length = n := List.length_take_of_le hbytes
  refine ⟨n, r', ?_, hr', ?_⟩
  · unfold Dbn.readSpace
    rw [hread]
    dsimp only
    rw [hlength]
  · intro schedule
    unfold Dbn.readSpace
    rw [ShortReader.read_thatReturns hspace hbytes hzero]
    dsimp only
    rw [hlength]

namespace MetadataDecoder

theorem readLoop_replays (hhonest : Honest holds) (n : Nat) :
    forall (fuel total : Nat) (r : R) (fsm : DbnFsm B) (bytes : List UInt8),
      holds r bytes ->
      Replays holds bytes (readLoop n fuel total r fsm)
        (fun s => readLoop n fuel total s fsm) := by
  intro fuel
  induction fuel with
  | zero =>
      intro total r fsm bytes h
      exact Replays.timeout
  | succ fuel ih =>
      intro total r fsm bytes h
      rcases hhonest.readSpace h fsm with ⟨k, r', hread, hr', hreplay⟩
      have hshort : forall schedule,
          readLoop n (fuel + 1) total
              (ShortReader.thatReturns k bytes schedule) fsm =
            if k = 0 then
              .ret (Except.error (ioErr .unexpectedEof),
                ⟨bytes.drop k, schedule⟩, fsm.writeSpace (bytes.take k))
            else if total + k ≥ n then
              .ret (Except.ok (), ⟨bytes.drop k, schedule⟩,
                (fsm.writeSpace (bytes.take k)).fill k)
            else readLoop n fuel (total + k) ⟨bytes.drop k, schedule⟩
              ((fsm.writeSpace (bytes.take k)).fill k) := by
        intro schedule
        rw [readLoop, hreplay]
      rw [readLoop, hread]
      dsimp only
      split
      · next hk =>
          apply (Replays.ret hr' _ _).of_before
          intro schedule
          exact ⟨_, (hshort schedule).trans (if_pos hk)⟩
      · next hk =>
          split
          · next hn =>
              apply (Replays.ret hr' _ _).of_before
              intro schedule
              exact ⟨_, (hshort schedule).trans
                ((if_neg hk).trans (if_pos hn))⟩
          · next hn =>
              apply (ih _ _ _ _ hr').of_before
              intro schedule
              exact ⟨_, (hshort schedule).trans
                ((if_neg hk).trans (if_neg hn))⟩

/-- The parts of what a call returns. -/
def parts (out : α × MetadataDecoder R B) : α × R × DbnFsm B :=
  (out.1, out.2.reader, out.2.fsm)

omit [Read R] [Buffer B] in
theorem eq_ret_of_parts {x : Outcome (α × MetadataDecoder R B)} {a : α} {r : R}
    {fsm : DbnFsm B} (h : parts <$> x = .ret (a, r, fsm)) :
    x = .ret (a, ⟨r, fsm⟩) := by
  cases x with
  | timeout => cases h
  | panic p => cases h
  | ret out =>
      cases h
      rfl

omit [Read R] in
theorem decodeBlock_replays {r : R} (h : holds r bytes) (fsm : DbnFsm B) :
    Replays holds bytes (parts <$> decodeBlock (D := D) r fsm)
      (fun s => parts <$> decodeBlock (D := D) s fsm) := by
  unfold decodeBlock
  cases fsm.process (D := D) with
  | timeout => exact Replays.timeout
  | panic p => exact Replays.panic p
  | ret out =>
      rcases out with ⟨result, fsm'⟩
      cases result with
      | metadata metadata => exact Replays.ret h _ _
      | err error => exact Replays.ret h _ _
      | readMore n => exact Replays.panic _
      | record n => exact Replays.panic _

/-- What is left to do when the reads are done. -/
def finish (D : Type) [CalendarDate D]
    (out : Except Error Unit × R × DbnFsm B) :
    Outcome (Except Error (Metadata D) × R × DbnFsm B) :=
  match out.1 with
  | Except.error e => .ret (Except.error e, out.2.1, out.2.2)
  | Except.ok () => parts <$> decodeBlock out.2.1 out.2.2

/-- The call when the first read and the machine have returned. -/
def decodeAfter (D : Type) [CalendarDate D] (reader : R) :
    Outcome (ProcessResult D Unit × DbnFsm B) ->
      Outcome (Except Error (Metadata D) × R × DbnFsm B)
  | .timeout => .timeout
  | .panic p => .panic p
  | .ret (.readMore n, fsm) => readLoop n (n + 1) 0 reader fsm >>= finish D
  | .ret (.metadata metadata, fsm) => .ret (Except.ok metadata, reader, fsm)
  | .ret (.record _, _) => .panic Panic.unreachable
  | .ret (.err error, fsm) => .ret (Except.error error, reader, fsm)

theorem decode_eq {n : Nat} {r r' : R} {fsm fsm' : DbnFsm B}
    (hread : readSpace r fsm = (Except.ok n, r', fsm')) :
    parts <$> decode (D := D) ⟨r, fsm⟩ =
      decodeAfter D r' ((fsm'.fill n).process (D := D)) := by
  unfold decode
  rw [hread]
  dsimp only
  cases (fsm'.fill n).process (D := D) with
  | timeout => rfl
  | panic p => rfl
  | ret out =>
      rcases out with ⟨result, fsm''⟩
      cases result with
      | metadata metadata => rfl
      | err error => rfl
      | record n => rfl
      | readMore n =>
          unfold decodeAfter
          dsimp only
          cases readLoop n (n + 1) 0 r' fsm'' with
          | timeout => rfl
          | panic p => rfl
          | ret out =>
              rcases out with ⟨res, r'', fsm3⟩
              cases res with
              | ok u => rfl
              | error e => rfl

theorem decodeAfter_replays (hhonest : Honest holds) {r : R}
    (h : holds r bytes) (out : Outcome (ProcessResult D Unit × DbnFsm B)) :
    Replays holds bytes (decodeAfter D r out)
      (fun s => decodeAfter D s out) := by
  cases out with
  | timeout => exact Replays.timeout
  | panic p => exact Replays.panic p
  | ret out =>
      rcases out with ⟨result, fsm'⟩
      cases result with
      | metadata metadata => exact Replays.ret h _ _
      | err error => exact Replays.ret h _ _
      | record n => exact Replays.panic _
      | readMore n =>
          apply (readLoop_replays hhonest n (n + 1) 0 r fsm' bytes h).bind
          intro res r' fsm'' bytes' hr'
          cases res with
          | error e => exact Replays.ret hr' _ _
          | ok u => exact decodeBlock_replays hr' fsm''

end MetadataDecoder

namespace RecordDecoder

/-- The parts of what a call returns. -/
def parts (out : α × RecordDecoder R B) : α × R × DbnFsm B :=
  (out.1, out.2.reader, out.2.fsm)

omit [Read R] [Buffer B] in
theorem eq_ret_of_parts {x : Outcome (α × RecordDecoder R B)} {a : α} {r : R}
    {fsm : DbnFsm B} (h : parts <$> x = .ret (a, r, fsm)) :
    x = .ret (a, ⟨r, fsm⟩) := by
  cases x with
  | timeout => cases h
  | panic p => cases h
  | ret out =>
      cases h
      rfl

theorem decodeRefLoop_replays (hhonest : Honest holds) :
    forall (fuel : Nat) (r : R) (fsm : DbnFsm B) (bytes : List UInt8),
      holds r bytes ->
      Replays holds bytes (parts <$> decodeRefLoop D fuel ⟨r, fsm⟩)
        (fun s => parts <$> decodeRefLoop D fuel ⟨s, fsm⟩) := by
  intro fuel
  induction fuel with
  | zero =>
      intro r fsm bytes h
      exact Replays.timeout
  | succ fuel ih =>
      intro r fsm bytes h
      simp only [decodeRefLoop]
      cases fsm.process (D := D) with
      | timeout => exact Replays.timeout
      | panic p => exact Replays.panic p
      | ret out =>
          rcases out with ⟨result, fsm'⟩
          cases result with
          | metadata metadata => exact Replays.panic _
          | err error => exact Replays.ret h _ _
          | record n => exact Replays.ret h _ _
          | readMore n =>
              rcases hhonest.readSpace h fsm' with
                ⟨k, r', hread, hr', hreplay⟩
              dsimp only
              rw [hread]
              dsimp only
              have hshort : forall schedule,
                  readSpace (⟨bytes, (ShortReader.thatReturns k bytes
                    schedule).schedule⟩ : ShortReader) fsm' =
                  (Except.ok k, ⟨bytes.drop k, schedule⟩,
                    fsm'.writeSpace (bytes.take k)) := hreplay
              by_cases hk : k = 0
              · rw [if_pos hk]
                apply (Replays.ret hr' _ _).of_before
                intro schedule
                refine ⟨(ShortReader.thatReturns k bytes schedule).schedule, ?_⟩
                rw [hshort]
                dsimp only
                rw [if_pos hk]
                rfl
              · rw [if_neg hk]
                apply (ih _ _ _ hr').of_before
                intro schedule
                refine ⟨(ShortReader.thatReturns k bytes schedule).schedule, ?_⟩
                rw [hshort]
                dsimp only
                rw [if_neg hk]

/-- A call, and the calls after it. -/
theorem decodeRefs_succ (n : Nat) (r : R) (fsm : DbnFsm B) :
    parts <$> decodeRefs D (n + 1) ⟨r, fsm⟩ =
      (parts <$> decodeRefLoop D 1021 ⟨r, fsm⟩) >>= fun out =>
        (parts <$> decodeRefs D n ⟨out.2.1, out.2.2⟩) >>= fun outs =>
          .ret (out.1.map (Option.map RecordRef.asRef) :: outs.1,
            outs.2.1, outs.2.2) := by
  rw [decodeRefs]
  unfold decodeRef
  cases decodeRefLoop D 1021 (⟨r, fsm⟩ : RecordDecoder R B) with
  | timeout => rfl
  | panic p => rfl
  | ret out =>
      rcases out with ⟨res, ⟨r', fsm'⟩⟩
      rw [Outcome.ret_bind]
      show parts <$> (decodeRefs D n ⟨r', fsm'⟩ >>= fun outs => _) =
        (parts <$> decodeRefs D n ⟨r', fsm'⟩) >>= fun outs => _
      cases decodeRefs D n (⟨r', fsm'⟩ : RecordDecoder R B) with
      | timeout => rfl
      | panic p => rfl
      | ret outs => rfl

theorem decodeRefs_replays (hhonest : Honest holds) :
    forall (n : Nat) (r : R) (fsm : DbnFsm B) (bytes : List UInt8),
      holds r bytes ->
      Replays holds bytes (parts <$> decodeRefs D n ⟨r, fsm⟩)
        (fun s => parts <$> decodeRefs D n ⟨s, fsm⟩) := by
  intro n
  induction n with
  | zero =>
      intro r fsm bytes h
      exact Replays.ret h _ _
  | succ n ih =>
      intro r fsm bytes h
      simp only [decodeRefs_succ]
      apply (decodeRefLoop_replays hhonest 1021 r fsm bytes h).bind
      intro res r' fsm' bytes' hr'
      dsimp only
      apply (ih r' fsm' bytes' hr').bind
      intro results r'' fsm'' bytes'' hr''
      exact Replays.ret hr'' _ _

end RecordDecoder

/-!
## Decoders of a stream
-/

/-- The first read returns the prelude of the metadata. -/
def StartsWhole (r : R) : Prop :=
  exists start r', Read.read r defaultBufSize = (Except.ok start, r') ∧
    metadataPreludeLen ≤ start.length

/--
The decoder has this metadata, and any number of calls return these records,
then `Ok(None)`, which they return only when the reader is exhausted.
-/
structure Decoder.Yields (holds : R -> List UInt8 -> Prop) (m : Metadata D)
    (images : List (List UInt8)) (d : Decoder R B D) : Prop where
  metadata : d.metadata = m
  records : forall n, exists d',
    decodeRefs D n d.decoder =
      .ret ((images.map (fun image => Except.ok (some image))).take n ++
        List.replicate (n - images.length) (Except.ok none), d') ∧
    (images.length < n -> holds d'.reader [])

omit [Read R] in
/-- The record decoder takes the reader of the metadata decoder. -/
theorem RecordDecoder.fromMetadataDecoder_reader {s : ShortReader}
    {fsm : DbnFsm B} {d : RecordDecoder ShortReader B}
    (h : fromMetadataDecoder ⟨s, fsm⟩ = Res.ok d) :
    d.reader = s ∧
      forall r : R, fromMetadataDecoder ⟨r, fsm⟩ = Res.ok ⟨r, d.fsm⟩ := by
  unfold fromMetadataDecoder at h ⊢
  cases hversion : fsm.inputDbnVersion with
  | none =>
      rw [hversion] at h
      cases h
  | some version =>
      rw [hversion] at h
      simp only [hversion] at h ⊢
      split at h
      · next hupgrade =>
          cases h
          exact ⟨rfl, fun r => if_pos hupgrade⟩
      · next hupgrade =>
          cases h
          exact ⟨rfl, fun r => if_neg hupgrade⟩

section Streams

variable [LawfulBuffer B] {policy : VersionUpgradePolicy}
  {stream : List UInt8} {m : Metadata D} {images : List (List UInt8)}

omit [LawfulBuffer B] in
/-- Short readers that all return these records, and an honest reader. -/
theorem decodes_records (hhonest : Honest holds) {r : R} {fsm : DbnFsm B}
    (h : holds r bytes)
    (hshort : forall schedule,
      DecodesRecords D images (⟨⟨bytes, schedule⟩, fsm⟩ :
        RecordDecoder ShortReader B)) (n : Nat) :
    exists d', decodeRefs D n (⟨r, fsm⟩ : RecordDecoder R B) =
        .ret ((images.map (fun image => Except.ok (some image))).take n ++
          List.replicate (n - images.length) (Except.ok none), d') ∧
      (images.length < n -> holds d'.reader []) := by
  have hall := (RecordDecoder.decodeRefs_replays (D := D) hhonest n r fsm
    bytes h).of_all (P := fun results s _ =>
      results = (images.map (fun image => Except.ok (some image))).take n ++
        List.replicate (n - images.length) (Except.ok none) ∧
      (images.length < n -> s.rest = []))
  rcases hall (by
    intro schedule
    rcases hshort schedule n with ⟨d', hd', hrest⟩
    refine ⟨_, d'.reader, d'.fsm, ?_, rfl, hrest⟩
    rw [hd']
    rfl) with ⟨results, r', fsm', bytes', hret, hr', hP⟩
  rcases hP (fun _ => 0) with ⟨rfl, hrest⟩
  refine ⟨⟨r', fsm'⟩, RecordDecoder.eq_ret_of_parts hret, ?_⟩
  intro hn
  exact hrest hn ▸ hr'

/-- The metadata and the records that are decoded from short reads. -/
def Decodes (m : Metadata D) (images : List (List UInt8))
    (res : Except Error (Metadata D)) (s : ShortReader) (fsm : DbnFsm B) :
    Prop :=
  res = Except.ok m ∧
    exists d, RecordDecoder.fromMetadataDecoder ⟨s, fsm⟩ = Res.ok d ∧
      DecodesRecords D images d

/-- A first read that returns the prelude does so as a short read. -/
theorem decodes_of_short {n : Nat} {schedule : Nat -> Nat}
    {fsm : DbnFsm B} (hn : metadataPreludeLen ≤ n)
    (hdecodes : DecodesTo B D policy stream m images)
    (hread : readSpace (ShortReader.thatReturns n stream schedule)
      (fresh policy) =
      (Except.ok n, (⟨bytes, schedule⟩ : ShortReader), fsm)) :
    exists res s fsm',
      MetadataDecoder.decodeAfter D (⟨bytes, schedule⟩ : ShortReader)
        ((fsm.fill n).process (D := D)) = .ret (res, s, fsm') ∧
      Decodes m images res s fsm' := by
  have hamount : (ShortReader.thatReturns n stream schedule).amount
      defaultBufSize = n := by
    rw [readSpace_shortReader, spaceLen_fresh] at hread
    injection hread with hread _
    injection hread
  have hsplit : ¬ SplitPrelude policy
      (ShortReader.thatReturns n stream schedule) := by
    apply not_splitPrelude_of_first
    omega
  rcases hdecodes.synchronous _ rfl hsplit with ⟨md, d, hsync, hd, himages⟩
  refine ⟨Except.ok m, md.reader, md.fsm, ?_, rfl, d, hd, himages⟩
  rw [← MetadataDecoder.decode_eq hread]
  exact congrArg (MetadataDecoder.parts <$> ·) hsync

/--
From any honest reader of a stream whose first read returns the prelude, a
decoder yields what short reads of the stream do.
-/
theorem decoder_of_honest (hhonest : Honest holds) {r : R}
    (h : holds r stream) (hstart : StartsWhole r)
    (hdecodes : DecodesTo B D policy stream m images) :
    exists d : Decoder R B D,
      Decoder.withUpgradePolicy r policy = .ret (Except.ok d) ∧
      d.Yields holds m images := by
  rcases hstart with ⟨start, r1, hread, hlength⟩
  rcases hhonest.readSpace h (fresh policy : DbnFsm B) with
    ⟨n, r', hspace, hr', hshort⟩
  have hn : metadataPreludeLen ≤ n := by
    unfold readSpace at hspace
    rw [spaceLen_fresh, hread] at hspace
    injection hspace with hspace _
    injection hspace with hspace
    omega
  have hall := (MetadataDecoder.decodeAfter_replays (D := D) hhonest hr'
    (((fresh policy : DbnFsm B).writeSpace (stream.take n)).fill n).process).of_all
    (fun schedule => decodes_of_short hn hdecodes (hshort schedule))
  rcases hall with ⟨res, r2, fsm, bytes', hret, hr2, hP⟩
  rcases hP (fun _ => 0) with ⟨rfl, d0, hd0, _⟩
  rcases RecordDecoder.fromMetadataDecoder_reader (R := R) hd0 with
    ⟨_, hrecord⟩
  rw [← MetadataDecoder.decode_eq hspace] at hret
  refine ⟨⟨m, ⟨r2, d0.fsm⟩⟩, ?_, rfl, ?_⟩
  · unfold Decoder.withUpgradePolicy
    rw [withUpgradePolicy_eq]
    dsimp only
    unfold Decoder.fromMetadataDecoder
    rw [MetadataDecoder.eq_ret_of_parts hret]
    dsimp only
    rw [hrecord r2]
  · apply decodes_records hhonest hr2
    intro schedule
    rcases hP schedule with ⟨_, d, hd, himages⟩
    have hshort := (RecordDecoder.fromMetadataDecoder_reader
      (R := ShortReader) hd0).2 ⟨bytes', schedule⟩
    rw [hd] at hshort
    cases hshort
    exact himages

end Streams

end Dbn
