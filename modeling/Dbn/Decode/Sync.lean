import Dbn.Decode.Fsm
import Dbn.Lib.Io

/-!
# Synchronous decoders

`MetadataDecoder` and `RecordDecoder` over a reader: the state machine with
the loops that read into its space.  The asynchronous `RecordDecoder` has the
same code, with reads that are awaited.
-/

namespace Dbn

open Lib

variable {R B D : Type} [Read R] [Buffer B]

/--
`reader.read(fsm.space())`: returns the number of bytes, with the bytes in the
space of the machine.
-/
def readSpace (reader : R) (fsm : DbnFsm B) :
    Except IoErrorKind Nat × R × DbnFsm B :=
  match Read.read reader fsm.spaceLen with
  | (Except.ok bytes, reader) =>
      (Except.ok bytes.length, reader, fsm.writeSpace bytes)
  | (Except.error e, reader) => (Except.error e, reader, fsm)

/-!
## Metadata
-/

/-- Type for decoding metadata. -/
structure MetadataDecoder (R B : Type) where
  reader : R
  fsm : DbnFsm B

namespace MetadataDecoder

def ioErr (e : IoErrorKind) : Error :=
  Error.io e "decoding metadata"

/-- A decoder with the default buffer size and the given policy. -/
def withUpgradePolicy (reader : R) (policy : VersionUpgradePolicy) :
    Result (MetadataDecoder R B) := do
  let fsm ← { (default : DbnFsmBuilder) with
    compatSize := some 0
    upgradePolicy := policy }.build
  Res.ok ⟨reader, fsm⟩

/--
The loop that reads at least `n` bytes, `total` of which have been read.
Each round reads at least a byte.
-/
def readLoop (n : Nat) :
    Nat -> Nat -> R -> DbnFsm B -> Outcome (Except Error Unit × R × DbnFsm B)
  | 0, _, _, _ => .timeout
  | fuel + 1, total, reader, fsm =>
      match readSpace reader fsm with
      | (Except.error e, reader, fsm) =>
          .ret (Except.error (ioErr e), reader, fsm)
      | (Except.ok read, reader, fsm) =>
          if read = 0 then
            .ret (Except.error (ioErr .unexpectedEof), reader, fsm)
          else
            let fsm := fsm.fill read
            if total + read ≥ n then .ret (Except.ok (), reader, fsm)
            else readLoop n fuel (total + read) reader fsm

/-- The second call of `process` in `decode`. -/
def decodeBlock [CalendarDate D] (reader : R) (fsm : DbnFsm B) :
    Outcome (Except Error (Metadata D) × MetadataDecoder R B) :=
  match fsm.process (D := D) with
  | .timeout => .timeout
  | .panic p => .panic p
  | .ret (.metadata metadata, fsm) => .ret (Except.ok metadata, ⟨reader, fsm⟩)
  | .ret (.err error, fsm) => .ret (Except.error error, ⟨reader, fsm⟩)
  -- "read requested number of bytes"
  | .ret (.readMore _, _) => .panic Panic.unreachable
  -- "metadata precedes records"
  | .ret (.record _, _) => .panic Panic.unreachable

/-- Decodes and returns the metadata. -/
def decode [CalendarDate D] (d : MetadataDecoder R B) :
    Outcome (Except Error (Metadata D) × MetadataDecoder R B) :=
  match readSpace d.reader d.fsm with
  | (Except.error e, reader, fsm) =>
      .ret (Except.error (ioErr e), ⟨reader, fsm⟩)
  | (Except.ok nbytes, reader, fsm) =>
      match (fsm.fill nbytes).process (D := D) with
      | .timeout => .timeout
      | .panic p => .panic p
      | .ret (.readMore n, fsm) =>
          match readLoop n (n + 1) 0 reader fsm with
          | .timeout => .timeout
          | .panic p => .panic p
          | .ret (Except.error e, reader, fsm) =>
              .ret (Except.error e, ⟨reader, fsm⟩)
          | .ret (Except.ok (), reader, fsm) => decodeBlock reader fsm
      | .ret (.metadata metadata, fsm) =>
          .ret (Except.ok metadata, ⟨reader, fsm⟩)
      -- "metadata precedes records"
      | .ret (.record _, _) => .panic Panic.unreachable
      | .ret (.err error, fsm) => .ret (Except.error error, ⟨reader, fsm⟩)

end MetadataDecoder

/-!
## Records
-/

/-- A decoder of records. -/
structure RecordDecoder (R B : Type) where
  reader : R
  fsm : DbnFsm B

namespace RecordDecoder

/-- The record decoder that goes on where a metadata decoder has stopped. -/
def fromMetadataDecoder (d : MetadataDecoder R B) :
    Result (RecordDecoder R B) :=
  match d.fsm.inputDbnVersion with
  | none => Res.panic Panic.unwrapNone
  | some version =>
      if d.fsm.upgradePolicy.isUpgradeSituation version then
        Res.ok ⟨d.reader, d.fsm.growCompat DbnFsm.defaultBufSize⟩
      else Res.ok ⟨d.reader, d.fsm⟩

/-- A decoder of records of the given version, without metadata. -/
def withVersion (reader : R) (version : Nat) (policy : VersionUpgradePolicy)
    (tsOut : Bool) : Result (RecordDecoder R B) := do
  let builder ← { (default : DbnFsmBuilder) with
    compatSize := some maxRecordLen
    skipMetadata := true }.withInputDbnVersion (some version)
  let fsm ← { builder with upgradePolicy := policy, tsOut := tsOut }.build
  Res.ok ⟨reader, fsm⟩

/-- The loop of `decode_ref`, for a number of rounds. -/
def decodeRefLoop (D : Type) [CalendarDate D] :
    Nat -> RecordDecoder R B ->
      Outcome (Except Error (Option RecordRef) × RecordDecoder R B)
  | 0, _ => .timeout
  | fuel + 1, d =>
      match d.fsm.process (D := D) with
      | .timeout => .timeout
      | .panic p => .panic p
      | .ret (.readMore _, fsm) =>
          match readSpace d.reader fsm with
          | (Except.ok nbytes, reader, fsm) =>
              if nbytes = 0 then .ret (Except.ok none, ⟨reader, fsm⟩)
              else decodeRefLoop D fuel ⟨reader, fsm.fill nbytes⟩
          | (Except.error .unexpectedEof, reader, fsm) =>
              .ret (Except.ok none, ⟨reader, fsm⟩)
          | (Except.error e, reader, fsm) =>
              .ret (Except.error (Error.io e "decoding record reference"),
                ⟨reader, fsm⟩)
      | .ret (.record _, fsm) =>
          .ret (Except.ok fsm.lastRecord, ⟨d.reader, fsm⟩)
      | .ret (.err error, fsm) => .ret (Except.error error, ⟨d.reader, fsm⟩)
      -- "skipped metadata"
      | .ret (.metadata _, _) => .panic Panic.unreachable

/--
Tries to decode a generic reference to a record.  No record is longer than
1020 bytes, so a call reads at most as often.
-/
def decodeRef (D : Type) [CalendarDate D] (d : RecordDecoder R B) :
    Outcome (Except Error (Option RecordRef) × RecordDecoder R B) :=
  d.decodeRefLoop D 1021

/--
`skip_bytes`: the bytes that the machine has buffered are dropped first.  The
count that `skip` returns is capped by these.
-/
def skipBytes [SkipBytes R Error] (d : RecordDecoder R B) (nBytes : Nat) :
    Except Error Unit × RecordDecoder R B :=
  let skipped := d.fsm.skipCount nBytes
  let fsm := d.fsm.skip nBytes
  if skipped < nBytes then
    match SkipBytes.skipBytes d.reader (nBytes - skipped) with
    | (res, reader) => (res, ⟨reader, fsm⟩)
  else (Except.ok (), ⟨d.reader, fsm⟩)

end RecordDecoder

end Dbn
