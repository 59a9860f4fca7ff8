import Dbn.Decode.AnyReader
import Dbn.Decode.DbzDecoder

/-!
# Decoders chosen at runtime

`DynDecoder` peeks at the first bytes of a buffered reader to tell DBN,
Zstandard-compressed DBN and legacy DBZ apart.  A valid stream is decoded to
the same metadata and records in all three forms.
-/

namespace Dbn

open Lib
open DbnFsm

/-- `dbn::starts_with_prefix`. -/
def startsWithPrefix (bytes : List UInt8) : Bool :=
  decide (bytes.length > dbnPrefix.length) &&
    bytes.take dbnPrefix.length == dbnPrefix

/-- A decoder of one of three encodings. -/
inductive DynDecoder (R Z B D : Type) where
  | dbn (decoder : Decoder R B D)
  | zstdDbn (decoder : Decoder Z B D)
  | legacyDbz (decoder : Dbz.Decoder Z B D)

namespace DynDecoder

section Calls

variable {R Z B D : Type} [BufRead R] [Read Z] [Zstd R Z] [Buffer B]
  [CalendarDate D]

/-!
## Calls
-/

/-- The decoder of uncompressed DBN. -/
def uncompressed (reader : R) (policy : VersionUpgradePolicy) :
    Outcome (Except Error (DynDecoder R Z B D)) :=
  match Decoder.withUpgradePolicy reader policy with
  | .timeout => .timeout
  | .panic p => .panic p
  | .ret res => .ret (res.map dbn)

/-- The decoder of compressed DBN. -/
def compressed (reader : R) (policy : VersionUpgradePolicy) :
    Outcome (Except Error (DynDecoder R Z B D)) :=
  match Zstd.withBuffer (Z := Z) reader with
  | Except.error e => .ret (Except.error (Error.io e "creating zstd decoder"))
  | Except.ok reader =>
      match Decoder.withUpgradePolicy reader policy with
      | .timeout => .timeout
      | .panic p => .panic p
      | .ret res => .ret (res.map zstdDbn)

def withBuffer (reader : R) (compression : Cli.Compression)
    (policy : VersionUpgradePolicy) :
    Outcome (Except Error (DynDecoder R Z B D)) :=
  match compression with
  | .none => uncompressed reader policy
  | .zstd => compressed reader policy

def inferredWithBuffer (reader : R) (policy : VersionUpgradePolicy) :
    Outcome (Except Error (DynDecoder R Z B D)) :=
  match BufRead.fillBuf reader with
  | (Except.error e, _) =>
      .ret (Except.error (Error.io e "creating buffer to infer encoding"))
  | (Except.ok firstBytes, reader) =>
      if Dbz.startsWithPrefix firstBytes then
        match Dbz.Decoder.withUpgradePolicy reader policy with
        | Res.ok decoder => .ret (Except.ok (.legacyDbz decoder))
        | Res.err e => .ret (Except.error e)
        | Res.panic p => .panic p
      else if startsWithPrefix firstBytes then uncompressed reader policy
      else if Zstd.startsWithPrefix firstBytes then compressed reader policy
      else .ret (Except.error (Error.decode "unable to determine encoding"))

def new {S : Type} [Read S] [Zstd (BufReader S) Z] (reader : S)
    (compression : Cli.Compression) (policy : VersionUpgradePolicy) :
    Outcome (Except Error (DynDecoder (BufReader S) Z B D)) :=
  withBuffer (BufReader.new reader) compression policy

def newInferred {S : Type} [Read S] [Zstd (BufReader S) Z] (reader : S)
    (policy : VersionUpgradePolicy) :
    Outcome (Except Error (DynDecoder (BufReader S) Z B D)) :=
  inferredWithBuffer (BufReader.new reader) policy

omit [BufRead R] [Zstd R Z] [Buffer B] [CalendarDate D] in
def metadata : DynDecoder R Z B D -> Metadata D
  | .dbn decoder => decoder.metadata
  | .zstdDbn decoder => decoder.metadata
  | .legacyDbz decoder => decoder.metadata

omit [Zstd R Z] in
def decodeRecordRef (d : DynDecoder R Z B D) :
    Outcome (Except Error (Option RecordRef) × DynDecoder R Z B D) :=
  match d with
  | .dbn decoder =>
      (fun out => (out.1, .dbn out.2)) <$> decoder.decodeRecordRef
  | .zstdDbn decoder =>
      (fun out => (out.1, .zstdDbn out.2)) <$> decoder.decodeRecordRef
  | .legacyDbz decoder =>
      (fun out => (out.1, .legacyDbz out.2)) <$> decoder.decodeRecordRef

omit [Zstd R Z] in
/-- Successive calls of `decode_record_ref`, with the bytes of the records. -/
def decodeRecordRefs : Nat -> DynDecoder R Z B D ->
    Outcome (List (Except Error (Option (List UInt8))) × DynDecoder R Z B D)
  | 0, d => .ret ([], d)
  | n + 1, d => do
      let (res, d) ← d.decodeRecordRef
      let (results, d) ← decodeRecordRefs n d
      .ret (res.map (Option.map RecordRef.asRef) :: results, d)

omit [Zstd R Z] in
/--
The decoder has this metadata, and any number of calls return these records and
then `Ok(None)`.
-/
structure Yields (m : Metadata D) (images : List (List UInt8))
    (d : DynDecoder R Z B D) : Prop where
  metadata : d.metadata = m
  records : forall n, exists d',
    d.decodeRecordRefs n =
      .ret ((images.map (fun image => Except.ok (some image))).take n ++
        List.replicate (n - images.length) (Except.ok none), d')

/-!
## Records
-/

omit [Zstd R Z] in
/-- The calls are those of the decoder of records inside. -/
theorem decodeRecordRefs_of {X : Type} [Read X]
    {wrap : RecordDecoder X B -> DynDecoder R Z B D}
    (hwrap : forall d, (wrap d).decodeRecordRef =
      (fun out => (out.1, wrap out.2)) <$> d.decodeRef D) (n : Nat)
    (d : RecordDecoder X B) :
    (wrap d).decodeRecordRefs n =
      (fun out => (out.1, wrap out.2)) <$> decodeRefs D n d := by
  induction n generalizing d with
  | zero => rfl
  | succ n ih =>
      rw [decodeRecordRefs, decodeRefs, hwrap]
      cases d.decodeRef D with
      | timeout => rfl
      | panic p => rfl
      | ret out =>
          show ((wrap out.2).decodeRecordRefs n >>= fun outs => _) =
            (fun out : List (Except Error (Option (List UInt8))) ×
                RecordDecoder X B => (out.1, wrap out.2)) <$>
              (decodeRefs D n out.2 >>= fun outs => _)
          rw [ih]
          cases decodeRefs D n out.2 with
          | timeout => rfl
          | panic p => rfl
          | ret outs => rfl

omit [Zstd R Z] in
theorem decodeRecordRef_dbn (m : Metadata D) (d : RecordDecoder R B) :
    (DynDecoder.dbn (Z := Z) ⟨m, d⟩).decodeRecordRef =
      (fun out => (out.1, .dbn ⟨m, out.2⟩)) <$> d.decodeRef D := by
  unfold decodeRecordRef Decoder.decodeRecordRef
  dsimp only
  cases d.decodeRef D <;> rfl

omit [Zstd R Z] in
theorem decodeRecordRef_zstdDbn (m : Metadata D) (d : RecordDecoder Z B) :
    (DynDecoder.zstdDbn (R := R) ⟨m, d⟩).decodeRecordRef =
      (fun out => (out.1, .zstdDbn ⟨m, out.2⟩)) <$> d.decodeRef D := by
  unfold decodeRecordRef Decoder.decodeRecordRef
  dsimp only
  cases d.decodeRef D <;> rfl

omit [Zstd R Z] in
theorem decodeRecordRef_legacyDbz (m : Metadata D) (d : RecordDecoder Z B) :
    (DynDecoder.legacyDbz (R := R) ⟨d.reader, m, d.fsm⟩).decodeRecordRef =
      (fun out => (out.1, .legacyDbz ⟨out.2.reader, m, out.2.fsm⟩)) <$>
        d.decodeRef D := by
  rcases d with ⟨r, fsm⟩
  unfold decodeRecordRef Dbz.Decoder.decodeRecordRef
  dsimp only
  cases (⟨r, fsm⟩ : RecordDecoder Z B).decodeRef D <;> rfl

omit [Zstd R Z] in
theorem yields_of {X : Type} [Read X]
    {wrap : RecordDecoder X B -> DynDecoder R Z B D}
    (hwrap : forall d, (wrap d).decodeRecordRef =
      (fun out => (out.1, wrap out.2)) <$> d.decodeRef D)
    {m : Metadata D} {images : List (List UInt8)} {d : RecordDecoder X B}
    (hmetadata : (wrap d).metadata = m)
    (hrecords : forall n, exists d', decodeRefs D n d =
      .ret ((images.map (fun image => Except.ok (some image))).take n ++
        List.replicate (n - images.length) (Except.ok none), d')) :
    (wrap d).Yields m images := by
  refine ⟨hmetadata, ?_⟩
  intro n
  rcases hrecords n with ⟨d', hd'⟩
  refine ⟨wrap d', ?_⟩
  rw [decodeRecordRefs_of hwrap, hd']
  rfl

/-!
## The encodings of a stream
-/

variable [LawfulBuffer B] {holds : R -> List UInt8 -> Prop}
  {holdsZstd : Z -> List UInt8 -> Prop} {policy : VersionUpgradePolicy}
  {stream : List UInt8} {m : Metadata D} {images : List (List UInt8)}

omit [Zstd R Z] in
theorem uncompressed_yields (hhonest : Honest holds) {r : R}
    (h : holds r stream) (hstart : StartsWhole r)
    (hdecodes : DecodesTo B D policy stream m images) :
    exists d : DynDecoder R Z B D,
      uncompressed r policy = .ret (Except.ok d) ∧ d.Yields m images := by
  rcases decoder_of_honest hhonest h hstart hdecodes with
    ⟨⟨m', d⟩, hd, hm, hrecords⟩
  refine ⟨.dbn ⟨m', d⟩, ?_, ?_⟩
  · unfold uncompressed
    rw [hd]
    rfl
  · apply yields_of (decodeRecordRef_dbn m') hm
    intro n
    rcases hrecords n with ⟨d', hd', _⟩
    exact ⟨d', hd'⟩

theorem compressed_yields (hhonest : Honest holdsZstd) {r : R}
    {bytes : List UInt8} (h : holds r bytes)
    (hzstd : Zstd.Decompresses holds holdsZstd bytes stream)
    (hstart : forall z : Z, holdsZstd z stream -> StartsWhole z)
    (hdecodes : DecodesTo B D policy stream m images) :
    exists d : DynDecoder R Z B D,
      compressed r policy = .ret (Except.ok d) ∧ d.Yields m images := by
  rcases hzstd r h with ⟨z, hz, hstream⟩
  rcases decoder_of_honest hhonest hstream (hstart z hstream) hdecodes with
    ⟨⟨m', d⟩, hd, hm, hrecords⟩
  refine ⟨.zstdDbn ⟨m', d⟩, ?_, ?_⟩
  · unfold compressed
    rw [hz]
    dsimp only
    rw [hd]
    rfl
  · apply yields_of (decodeRecordRef_zstdDbn m') hm
    intro n
    rcases hrecords n with ⟨d', hd', _⟩
    exact ⟨d', hd'⟩

end Calls

/-!
## Telling encodings apart
-/

section FirstBytes

variable {bytes : List UInt8}

theorem leNat_of_dbnPrefix (h : bytes.take dbnPrefix.length = dbnPrefix) :
    leNat (bytes.take 4) % 2 ^ 24 = 0x4E4244 := by
  have hsplit : bytes.take 4 =
      [0x44, 0x42, 0x4E] ++ (bytes.drop 3).take 1 := by
    have hstarts : bytes.take 3 = [0x44, 0x42, 0x4E] := h
    rw [← hstarts, ← List.take_add]
  rw [hsplit]
  show (68 + 256 * (66 + 256 * (78 + 256 * leNat ((bytes.drop 3).take 1)))) %
    2 ^ 24 = 0x4E4244
  omega

theorem not_dbz_of_magic
    (h : ¬ Dbz.InSkippableMagicRange (leNat (bytes.take 4))) :
    Dbz.startsWithPrefix bytes = false := by
  unfold Dbz.startsWithPrefix
  rw [if_pos h]
  exact ite_self _

theorem not_dbz_of_dbnPrefix (h : bytes.take dbnPrefix.length = dbnPrefix) :
    Dbz.startsWithPrefix bytes = false := by
  have hmagic := leNat_of_dbnPrefix h
  apply not_dbz_of_magic
  unfold Dbz.InSkippableMagicRange
  omega

theorem startsWithPrefix_of_dbnPrefix
    (h : bytes.take dbnPrefix.length = dbnPrefix)
    (hlength : dbnPrefix.length < bytes.length) :
    startsWithPrefix bytes = true := by
  unfold startsWithPrefix
  rw [h, decide_eq_true hlength]
  rfl

theorem not_dbz_of_zstd (h : leNat (bytes.take 4) = Zstd.magicNumber) :
    Dbz.startsWithPrefix bytes = false := by
  apply not_dbz_of_magic
  rw [h]
  decide

theorem not_dbn_of_zstd (h : leNat (bytes.take 4) = Zstd.magicNumber) :
    startsWithPrefix bytes = false := by
  have hstarts : bytes.take dbnPrefix.length ≠ dbnPrefix := by
    intro hstarts
    have hmagic := leNat_of_dbnPrefix hstarts
    rw [h] at hmagic
    exact absurd hmagic (by decide)
  unfold startsWithPrefix
  rw [beq_false_of_ne hstarts, Bool.and_false]

theorem zstd_startsWithPrefix {k : Nat} (hk : 4 ≤ k)
    (hle : k ≤ bytes.length) (h : leNat (bytes.take 4) = Zstd.magicNumber) :
    Zstd.startsWithPrefix (bytes.take k) = true := by
  unfold Zstd.startsWithPrefix
  rw [List.length_take_of_le hle, if_neg (Nat.not_lt.mpr hk), List.take_take,
    Nat.min_eq_left hk, h]
  rfl

end FirstBytes

/-!
## A sample
-/

namespace Sample

/-- A reader that returns a block at a time. -/
def blockReader (bytes : List UInt8) : ShortReader :=
  ⟨bytes, fun _ => 2 ^ 17⟩

/-- The library that knows stored frames. -/
scoped instance : Zstd (BufReader ShortReader) ShortReader where
  withBuffer r := (Zstd.decodeStored (r.buffered ++ r.inner.rest)).map blockReader
  newSlice := Zstd.newStored

/-- The bytes of a buffered reader. -/
def holds : BufReader ShortReader -> List UInt8 -> Prop :=
  BufReader.Holds (fun r bytes => r.rest = bytes)

def holdsZstd (z : ShortReader) (bytes : List UInt8) : Prop :=
  z = blockReader bytes

theorem honestBuf : HonestBuf holds :=
  BufReader.honestBuf honest_shortReader

theorem honestZstd : Honest holdsZstd := by
  intro z bytes space h
  cases h
  exact ⟨_, _, rfl, ShortReader.amount_le_space _ space,
    ShortReader.amount_le_rest _ space, ShortReader.amount_eq_zero.mp, rfl⟩

theorem holds_new (bytes : List UInt8) :
    holds (BufReader.new (blockReader bytes)) bytes :=
  ⟨bytes, rfl, rfl⟩

theorem decompresses {bytes content : List UInt8}
    (h : Zstd.decodeStored bytes = Except.ok content) :
    Zstd.Decompresses holds holdsZstd bytes content := by
  rintro r ⟨rest, hrest, rfl⟩
  rw [← hrest] at h
  exact ⟨blockReader content, congrArg (Except.map blockReader) h, rfl⟩

theorem startsWhole {bytes : List UInt8}
    (h : metadataPreludeLen ≤ bytes.length) (z : ShortReader)
    (hz : holdsZstd z bytes) : StartsWhole z := by
  cases hz
  refine ⟨_, _, rfl, ?_⟩
  rw [ShortReader.length_take_amount]
  have hamount : metadataPreludeLen ≤ 2 ^ 17 := by decide
  have hspace : metadataPreludeLen ≤ defaultBufSize := by decide
  exact Nat.le_min.mpr ⟨Nat.le_trans hamount (Nat.le_max_right _ _),
    Nat.le_min.mpr ⟨hspace, h⟩⟩

/-- A new buffered reader shows the first bytes. -/
theorem shows_new {bytes : List UInt8} {n : Nat} (h : n ≤ bytes.length)
    (hn : n ≤ BufReader.capacity) :
    Shows (BufReader.new (blockReader bytes)) n := by
  refine ⟨_, _, rfl, ?_⟩
  rw [ShortReader.length_take_amount]
  have hamount : BufReader.capacity ≤ 2 ^ 17 := by decide
  exact Nat.le_min.mpr
    ⟨Nat.le_trans hn (Nat.le_trans hamount (Nat.le_max_right _ _)),
      Nat.le_min.mpr ⟨hn, h⟩⟩

/-- Metadata of version 1 and a heartbeat. -/
def heartbeatStream : List UInt8 :=
  MetadataEncoder.encodedBytes (sampleMetadata 1 22) ++ heartbeatV1

theorem blockAt_heartbeatStream :
    BlockAt .upgradeToV3 heartbeatStream 1
      (MetadataEncoder.blockBytes (sampleMetadata 1 22)).length
      (sampleMetadata 1 22) := by
  have hencodable : MetadataEncoder.Encodable (sampleMetadata 1 22) := by
    decide +kernel
  exact (rereads_of_encodable hencodable).blockAt (by decide)
    (by decide +kernel) heartbeatV1

end Sample

/-!
## Inferred encodings
-/

section Inferred

variable {R Z B D : Type} [BufRead R] [Read Z] [Zstd R Z] [Buffer B]
  [LawfulBuffer B] [CalendarDate D] {holds : R -> List UInt8 -> Prop}
  {holdsZstd : Z -> List UInt8 -> Prop} {policy : VersionUpgradePolicy}
  {stream bytes : List UInt8} {m : Metadata D} {images : List (List UInt8)}

theorem acceptsPrelude_of_decodesTo
    (h : DecodesTo B D policy stream m images) :
    exists version length, AcceptsPrelude policy stream version length := by
  rcases h.asynchronous (wholeReader stream) rfl with ⟨md, d, hdecode, _⟩
  rcases reading_of_asyncMetadata hdecode with
    ⟨fed, fsm, hreading, hprocess⟩
  rcases hreading.process_metadata hprocess with
    ⟨version, length, haccepts, _⟩
  exact ⟨version, length, haccepts⟩

theorem inferred_uncompressed (hhonest : HonestBuf holds) {r : R}
    (h : holds r stream) (hshows : Shows r metadataPreludeLen)
    (hdecodes : DecodesTo B D policy stream m images) :
    exists d : DynDecoder R Z B D,
      inferredWithBuffer r policy = .ret (Except.ok d) ∧
      d.Yields m images := by
  rcases acceptsPrelude_of_decodesTo hdecodes with ⟨_, _, haccepts⟩
  rcases hshows.fillBuf hhonest h with ⟨k, r', hfill, hk, hle, hr', hread⟩
  have hlength : (stream.take k).length = k := List.length_take_of_le hle
  have hstarts : (stream.take k).take dbnPrefix.length = dbnPrefix := by
    rw [List.take_take, Nat.min_eq_left (Nat.le_trans (by decide) hk)]
    exact haccepts.magic
  have hstart : StartsWhole r' := by
    rcases hread defaultBufSize with ⟨r'', hread⟩
    refine ⟨_, r'', hread, ?_⟩
    rw [List.length_take_of_le (Nat.le_trans (Nat.min_le_left _ _) hle)]
    exact Nat.le_min.mpr ⟨hk, by decide⟩
  have hlong : dbnPrefix.length < (stream.take k).length := by
    rw [hlength]
    exact Nat.lt_of_lt_of_le (m := metadataPreludeLen) (by decide) hk
  have hinferred : inferredWithBuffer (Z := Z) (B := B) (D := D) r policy =
      uncompressed r' policy := by
    unfold inferredWithBuffer
    rw [hfill]
    dsimp only
    rw [not_dbz_of_dbnPrefix hstarts,
      startsWithPrefix_of_dbnPrefix hstarts hlong]
    rfl
  rw [hinferred]
  exact uncompressed_yields hhonest.honest hr' hstart hdecodes

theorem inferred_compressed (hhonest : HonestBuf holds)
    (hhonestZstd : Honest holdsZstd) {r : R} (h : holds r bytes)
    (hshows : Shows r 4) (hmagic : leNat (bytes.take 4) = Zstd.magicNumber)
    (hzstd : Zstd.Decompresses holds holdsZstd bytes stream)
    (hstart : forall z : Z, holdsZstd z stream -> StartsWhole z)
    (hdecodes : DecodesTo B D policy stream m images) :
    exists d : DynDecoder R Z B D,
      inferredWithBuffer r policy = .ret (Except.ok d) ∧
      d.Yields m images := by
  rcases hshows.fillBuf hhonest h with ⟨k, r', hfill, hk, hle, hr', _⟩
  have hfirst : leNat ((bytes.take k).take 4) = Zstd.magicNumber := by
    rw [List.take_take, Nat.min_eq_left hk]
    exact hmagic
  have hinferred : inferredWithBuffer (Z := Z) (B := B) (D := D) r policy =
      compressed r' policy := by
    unfold inferredWithBuffer
    rw [hfill]
    dsimp only
    rw [not_dbz_of_zstd hfirst, not_dbn_of_zstd hfirst,
      zstd_startsWithPrefix hk hle hmagic]
    rfl
  rw [hinferred]
  exact compressed_yields hhonestZstd hr' hzstd hstart hdecodes

/--
A valid stream yields the same metadata and records when it is compressed and
when it is not, and when that is inferred and when it is given.  The first piece
must hold what the encoding is told by, and the first read the prelude.
-/
theorem encodings_yield (hhonest : HonestBuf holds)
    (hhonestZstd : Honest holdsZstd) {version length : Nat}
    {records : List (List UInt8)}
    (hblock : BlockAt policy stream version length m)
    (hstream : stream.drop (metadataPreludeLen + length) = records.flatten)
    (hrecords : forall rec, rec ∈ records ->
      WellFormedRecord version policy m.tsOut rec) :
    (forall r : R, holds r stream ->
      (StartsWhole r -> exists d : DynDecoder R Z B D,
        withBuffer r .none policy = .ret (Except.ok d) ∧
        d.Yields (m.upgrade policy)
          (records.map (upgradedImage version policy m.tsOut))) ∧
      (Shows r metadataPreludeLen -> exists d : DynDecoder R Z B D,
        inferredWithBuffer r policy = .ret (Except.ok d) ∧
        d.Yields (m.upgrade policy)
          (records.map (upgradedImage version policy m.tsOut)))) ∧
    (forall (r : R) bytes, holds r bytes ->
      Zstd.Decompresses holds holdsZstd bytes stream ->
      (forall z : Z, holdsZstd z stream -> StartsWhole z) ->
      (exists d : DynDecoder R Z B D,
        withBuffer r .zstd policy = .ret (Except.ok d) ∧
        d.Yields (m.upgrade policy)
          (records.map (upgradedImage version policy m.tsOut))) ∧
      (leNat (bytes.take 4) = Zstd.magicNumber -> Shows r 4 ->
        exists d : DynDecoder R Z B D,
          inferredWithBuffer r policy = .ret (Except.ok d) ∧
          d.Yields (m.upgrade policy)
            (records.map (upgradedImage version policy m.tsOut)))) := by
  have hdecodes := hblock.decodesTo (B := B) hstream hrecords
  constructor
  · intro r h
    constructor
    · intro hstart
      exact uncompressed_yields hhonest.honest h hstart hdecodes
    · intro hshows
      exact inferred_uncompressed hhonest h hshows hdecodes
  · intro r bytes h hzstd hstart
    constructor
    · exact compressed_yields hhonestZstd h hzstd hstart hdecodes
    · intro hmagic hshows
      exact inferred_compressed hhonest hhonestZstd h hshows hmagic hzstd
        hstart hdecodes

open Sample in
/-- Metadata of version 1 and a heartbeat, as they are and in a frame. -/
theorem encodings_yield_stored :
    exists d d' : DynDecoder (BufReader ShortReader) ShortReader VecBuffer
        GregorianDate,
      newInferred (blockReader heartbeatStream) .upgradeToV3 =
        .ret (Except.ok d) ∧
      newInferred (blockReader (Zstd.storedFrame heartbeatStream)) .upgradeToV3 =
        .ret (Except.ok d') ∧
      d.Yields ((sampleMetadata 1 22).upgrade .upgradeToV3)
        ([heartbeatV1].map (upgradedImage 1 .upgradeToV3 false)) ∧
      d'.Yields ((sampleMetadata 1 22).upgrade .upgradeToV3)
        ([heartbeatV1].map (upgradedImage 1 .upgradeToV3 false)) := by
  have hrecords : forall rec, rec ∈ [heartbeatV1] ->
      WellFormedRecord 1 .upgradeToV3 (sampleMetadata 1 22).tsOut rec := by
    decide +kernel
  have hyield := encodings_yield (B := VecBuffer) honestBuf honestZstd
    blockAt_heartbeatStream (by decide +kernel) hrecords
  rcases (hyield.1 _ (holds_new heartbeatStream)).2
      (shows_new (by decide +kernel) (by decide)) with ⟨d, hd, hyields⟩
  rcases (hyield.2 _ _ (holds_new (Zstd.storedFrame heartbeatStream))
      (decompresses (by decide +kernel))
      (startsWhole (by decide +kernel))).2 (by decide +kernel)
      (shows_new (by decide +kernel) (by decide)) with ⟨d', hd', hyields'⟩
  exact ⟨d, d', hd, hd', hyields, hyields'⟩

/-!
## Legacy files
-/

section Legacy

open Dbz (dbzFile dbnStream InSkippableMagicRange)
open Dbz.MetadataDecoder (ValidHeader dbnBlock legacy)

variable {frame varBuffer body : List UInt8} {magic : Nat}
  {records : List (List UInt8)}

omit [BufRead R] [Read Z] [Zstd R Z] [Buffer B] [LawfulBuffer B] in
/-- The first bytes of a legacy file. -/
theorem dbz_startsWithPrefix {k : Nat} (hk : 12 ≤ k)
    (hmagic : InSkippableMagicRange magic)
    (hframe : Dbz.fixedMetadataLen ≤ frame.length)
    (hvalid : ValidHeader frame)
    (hversion : uintAt 1 frame 3 = Dbz.schemaVersion)
    (hlength : k ≤ (dbzFile magic frame body).length) :
    Dbz.startsWithPrefix ((dbzFile magic frame body).take k) = true := by
  have hmagicLt : magic < 256 ^ 4 := Nat.lt_trans hmagic.2 (by decide)
  have hfirst : ((dbzFile magic frame body).take k).take 4 =
      leBytes 4 magic := by
    rw [List.take_take, Nat.min_eq_left (by omega)]
    rfl
  have hstarts : (((dbzFile magic frame body).take k).drop 8).take 3 =
      Dbz.dbzPrefix := by
    have hdrop : (dbzFile magic frame body).drop 8 = frame ++ body := rfl
    rw [List.drop_take, List.take_take, Nat.min_eq_left (by omega), hdrop,
      List.take_append_of_le_length (Nat.le_trans (by decide) hframe)]
    exact hvalid.magic
  have hbyte : leNat ((((dbzFile magic frame body).take k).drop 11).take 1) =
      Dbz.schemaVersion := by
    have hdrop : (dbzFile magic frame body).drop 11 =
        (frame ++ body).drop 3 := rfl
    rw [List.drop_take, List.take_take, Nat.min_eq_left (by omega), hdrop,
      ← hversion]
    exact uintAt_append (Nat.le_trans (by decide) hframe) body
  unfold Dbz.startsWithPrefix
  rw [List.length_take_of_le hlength, if_neg (Nat.not_lt.mpr hk), hfirst,
    leNat_leBytes_of_lt hmagicLt, if_neg (not_not.mpr hmagic), hstarts, hbyte]
  rfl

theorem inferred_legacy (hhonest : HonestBuf holds)
    (hhonestZstd : Honest holdsZstd) {r : R}
    (h : holds r (dbzFile magic frame body)) (hshows : Shows r 12)
    (hmagic : InSkippableMagicRange magic)
    (hframe : Dbz.fixedMetadataLen ≤ frame.length)
    (hlength : frame.length < 2 ^ 32)
    (hversion : uintAt 1 frame 3 = Dbz.schemaVersion)
    (hdecode : Dbz.MetadataDecoder.decode (Zstd.newSlice R Z) frame =
      Res.ok m)
    (hvalid : ValidHeader frame)
    (hbody : Zstd.Decompresses holds holdsZstd body records.flatten)
    (hrecords : forall rec, rec ∈ records ->
      WellFormedRecord 1 policy false rec) :
    exists d : DynDecoder R Z B D,
      inferredWithBuffer r policy = .ret (Except.ok d) ∧
      d.Yields (m.upgrade policy)
        (records.map (upgradedImage 1 policy false)) := by
  rcases hshows.fillBuf hhonest h with ⟨k, r', hfill, hk, hle, hr', _⟩
  rcases Dbz.decoder_of_dbzFile (B := B) policy hhonest.honest hr' hmagic
    hframe hlength hdecode hbody with ⟨z, fsm, hd, hz, hbuild⟩
  refine ⟨.legacyDbz ⟨z, m.upgrade policy, fsm⟩, ?_, ?_⟩
  · unfold inferredWithBuffer
    rw [hfill]
    dsimp only
    rw [dbz_startsWithPrefix hk hmagic hframe hvalid hversion hle, if_pos rfl,
      hd]
  · apply yields_of (decodeRecordRef_legacyDbz (m.upgrade policy))
      (d := ⟨z, fsm⟩) rfl
    intro n
    have hshort : forall schedule, DecodesRecords D
        (records.map (upgradedImage 1 policy false))
        (⟨⟨records.flatten, schedule⟩, fsm⟩ :
          RecordDecoder ShortReader B) := by
      intro schedule
      have hbuffers := Dbz.buffers_of_build hbuild
        ⟨records.flatten ++ [], schedule⟩
      have hdecodes := hbuffers.decodesRecords (D := D) hrecords
        (Or.inl (by decide))
      rw [List.append_nil] at hdecodes
      exact hdecodes
    rcases decodes_records hhonestZstd hz hshort n with ⟨d', hd', _⟩
    exact ⟨d', hd'⟩

omit [CalendarDate D] in
/-- Metadata of version 1 is upgraded to that of later versions. -/
theorem upgrade_legacy (hversion : m.version = 1)
    (hend : m.endTs = NonZeroU64.new (UInt64.ofNat (uintAt 8 frame 30)))
    (hpolicy : policy ≠ .asIs) :
    (legacy frame m).upgrade policy = m.upgrade policy := by
  have hlegacy : (legacy frame m).version < 2 := Nat.zero_lt_two
  unfold Metadata.upgrade
  rw [if_pos hlegacy, if_pos (by omega)]
  unfold legacy
  rw [← hend]
  cases policy with
  | asIs => exact absurd rfl hpolicy
  | upgradeToV2 => rfl
  | upgradeToV3 => rfl

/--
A legacy file yields the records of the DBN stream of version 1 with its
content, and its metadata, which is the same unless the version is kept or the
end is the value that stands for no end in DBN.  The first piece of the file
must hold its prefix, and that of the stream its prelude.
-/
theorem legacy_yields (hhonest : HonestBuf holds)
    (hhonestZstd : Honest holdsZstd) (hmagic : InSkippableMagicRange magic)
    (hframe : Dbz.fixedMetadataLen ≤ frame.length)
    (hframeLt : frame.length < 2 ^ 32) (hvalid : ValidHeader frame)
    (hversion : uintAt 1 frame 3 = Dbz.schemaVersion)
    (hvar : Zstd.newSlice R Z (frame.drop Dbz.fixedMetadataLen) =
      Except.ok (Except.ok varBuffer))
    (hlength : metadataFixedLen + varBuffer.length < 2 ^ 32)
    (hok : decodeMetadataImpl 1 (dbnBlock frame varBuffer) = Res.ok m)
    (hbody : Zstd.Decompresses holds holdsZstd body records.flatten)
    (hrecords : forall rec, rec ∈ records ->
      WellFormedRecord 1 policy false rec) :
    (forall r, holds r (dbzFile magic frame body) -> Shows r 12 ->
      exists d : DynDecoder R Z B D,
        inferredWithBuffer r policy = .ret (Except.ok d) ∧
        d.Yields ((legacy frame m).upgrade policy)
          (records.map (upgradedImage 1 policy false))) ∧
    (forall r, holds r (dbnStream frame varBuffer records) ->
      Shows r metadataPreludeLen ->
      exists d : DynDecoder R Z B D,
        inferredWithBuffer r policy = .ret (Except.ok d) ∧
        d.Yields (m.upgrade policy)
          (records.map (upgradedImage 1 policy false))) ∧
    (policy ≠ .asIs -> uintAt 8 frame 30 ≠ undefTimestamp ->
      (legacy frame m).upgrade policy = m.upgrade policy) := by
  have hmax : metadataFixedLen + varBuffer.length ≤ isizeMax :=
    Nat.le_trans (Nat.le_of_lt hlength) (by decide)
  have hdecode : Dbz.MetadataDecoder.decode (Zstd.newSlice R Z) frame =
      Res.ok (legacy frame m) :=
    (Dbz.MetadataDecoder.decode_eq_ok_iff hframe hvar hmax).mpr
      ⟨hvalid, m, hok, rfl⟩
  have htsOut : m.tsOut = false :=
    Dbz.MetadataDecoder.tsOut_of_decode (m := legacy frame m) hframe hdecode
  refine ⟨?_, ?_, ?_⟩
  · intro r h hshows
    exact inferred_legacy hhonest hhonestZstd h hshows hmagic hframe hframeLt
      hversion hdecode hvalid hbody hrecords
  · intro r h hshows
    have hblock := Dbz.blockAt_dbnStream policy hframe hlength hok records
    rw [← htsOut] at hrecords ⊢
    apply inferred_uncompressed hhonest h hshows
    apply hblock.decodesTo _ hrecords
    have hdrop : (dbnStream frame varBuffer records).drop metadataPreludeLen =
        dbnBlock frame varBuffer ++ records.flatten := rfl
    rw [← List.drop_drop, hdrop, List.drop_left]
  · intro hpolicy hend
    exact upgrade_legacy (version_of_decodeMetadataImpl hok)
      (Dbz.MetadataDecoder.endTs_of_dbnBlock hframe hvalid hok hend) hpolicy

open Sample in
open Dbz.MetadataDecoder (sampleFields sampleVariable sampleFrame) in
/-- A legacy file with the metadata of the sample and a heartbeat. -/
theorem legacy_yields_stored :
    exists d : DynDecoder (BufReader ShortReader) ShortReader VecBuffer
        GregorianDate,
      newInferred (blockReader (dbzFile 0x184D2A51 sampleFrame
        (Zstd.storedFrame heartbeatV1))) .upgradeToV3 = .ret (Except.ok d) ∧
      d.Yields (sampleFields.upgrade .upgradeToV3)
        ([heartbeatV1].map (upgradedImage 1 .upgradeToV3 false)) := by
  have hok : decodeMetadataImpl 1 (dbnBlock sampleFrame sampleVariable) =
      Res.ok sampleFields := by
    decide +kernel
  have hmagic : Dbz.InSkippableMagicRange 0x184D2A51 := by
    decide
  have hvar : Zstd.newSlice (BufReader ShortReader) ShortReader
      (sampleFrame.drop Dbz.fixedMetadataLen) =
      Except.ok (Except.ok sampleVariable) := by
    decide +kernel
  have hbody : Zstd.decodeStored (Zstd.storedFrame heartbeatV1) =
      Except.ok [heartbeatV1].flatten := by
    decide +kernel
  have hrecords : forall rec, rec ∈ [heartbeatV1] ->
      WellFormedRecord 1 .upgradeToV3 false rec := by
    decide +kernel
  have hyield := legacy_yields (B := VecBuffer) honestBuf honestZstd hmagic
    (by decide +kernel) (by decide +kernel)
    ⟨by decide +kernel, by decide +kernel, by decide +kernel,
      by decide +kernel, by decide +kernel⟩
    (by decide +kernel) hvar (by decide +kernel) hok (decompresses hbody)
    hrecords
  rw [hyield.2.2 (by decide) (by decide +kernel)] at hyield
  exact hyield.1 _ (holds_new _) (shows_new (by decide +kernel) (by decide))

end Legacy

end Inferred

end DynDecoder

end Dbn
