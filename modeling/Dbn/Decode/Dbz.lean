import Dbn.Cli.Encode
import Dbn.Decode.MetadataBlock
import Dbn.Decode.RecordReaders
import Dbn.Lib.BufRead

/-!
# Legacy DBZ

A DBZ file is a skippable Zstandard frame with the metadata, in front of the
compressed records.  The variable part of the metadata is itself compressed.
The Zstandard library is a parameter.
-/

namespace Dbn

open Lib

/-- `Compression::try_from` on a byte. -/
def Cli.Compression.tryFrom : Nat -> Option Cli.Compression
  | 0 => some .none
  | 1 => some .zstd
  | _ => none

/--
The Zstandard library: `Decoder::with_buffer`, and `Decoder::new` on a slice
with what `read_to_end` then returns.
-/
class Zstd (R Z : Type) where
  withBuffer : R -> Except IoErrorKind Z
  newSlice : List UInt8 -> Except IoErrorKind (Except IoErrorKind (List UInt8))

namespace Zstd

/-- The beginning of a Zstandard frame. -/
def magicNumber : Nat := 0xFD2FB528

/-- `zstd::starts_with_prefix`. -/
def startsWithPrefix (bytes : List UInt8) : Bool :=
  if bytes.length < 4 then false
  else magicNumber == leNat (bytes.take 4)

/-- The library decodes the compressed bytes to the stream. -/
def Decompresses {R Z : Type} [Zstd R Z]
    (holds : R -> List UInt8 -> Prop) (holdsZstd : Z -> List UInt8 -> Prop)
    (compressed stream : List UInt8) : Prop :=
  forall r : R, holds r compressed ->
    exists z : Z, Zstd.withBuffer r = Except.ok z ∧ holdsZstd z stream

/-!
## Stored frames

A frame may hold its content as it is, in one block.  Samples use a library
that knows no other frames.
-/

/-- A frame with the content in one raw block. -/
def storedFrame (content : List UInt8) : List UInt8 :=
  leBytes 4 magicNumber ++
    ((if content.length < 256 then 0x20 :: leBytes 1 content.length
      else 0x60 :: leBytes 2 (content.length - 256)) ++
      (leBytes 3 (8 * content.length + 1) ++ content))

/-- The content of the last block, a raw one of `n` bytes. -/
def rawBlock (n : Nat) (bytes : List UInt8) : Option (List UInt8) :=
  if bytes.take 3 = leBytes 3 (8 * n + 1) ∧ (bytes.drop 3).length = n then
    some (bytes.drop 3)
  else none

/-- The content of a frame, whose size has one byte or two. -/
def storedContent (bytes : List UInt8) : Option (List UInt8) :=
  if bytes.take 5 = leBytes 4 magicNumber ++ [0x20] then
    rawBlock (leNat ((bytes.drop 5).take 1)) (bytes.drop 6)
  else if bytes.take 5 = leBytes 4 magicNumber ++ [0x60] then
    rawBlock (leNat ((bytes.drop 5).take 2) + 256) (bytes.drop 7)
  else none

/-- The content of a frame, or an error. -/
def decodeStored (bytes : List UInt8) : Except IoErrorKind (List UInt8) :=
  match storedContent bytes with
  | some content => Except.ok content
  | none => Except.error (.other 0)

/-- `newSlice` of the library that knows stored frames. -/
def newStored (bytes : List UInt8) :
    Except IoErrorKind (Except IoErrorKind (List UInt8)) :=
  Except.ok (decodeStored bytes)

end Zstd

namespace Dbz

open DbnFsm (fromLeSlice slice trimmedUtf8 SymbolLists)

/-- `ZSTD_SKIPPABLE_MAGIC_RANGE`. -/
def InSkippableMagicRange (magic : Nat) : Prop :=
  0x184D2A50 ≤ magic ∧ magic < 0x184D2A60

instance (magic : Nat) : Decidable (InSkippableMagicRange magic) :=
  inferInstanceAs (Decidable (_ ∧ _))

def dbzPrefix : List UInt8 := [0x44, 0x42, 0x5A]

def schemaVersion : Nat := 1

def fixedMetadataLen : Nat := 96

def versionCstrLen : Nat := 4

def reservedLen : Nat := 39

/-- The bytes start with valid DBZ. -/
def startsWithPrefix (bytes : List UInt8) : Bool :=
  if bytes.length < 12 then false
  else if ¬ InSkippableMagicRange (leNat (bytes.take 4)) then false
  -- the frame length doesn't indicate anything
  else (bytes.drop 8).take 3 == dbzPrefix &&
    leNat ((bytes.drop 11).take 1) == schemaVersion

namespace MetadataDecoder

variable {D : Type} [CalendarDate D]

/-!
## The variable part
-/

/-- The loop is that of the state machine, with the same errors. -/
def decodeRepeatedSymbolCstr (buffer : List UInt8) (pos : Nat) :
    Result (List Str × Nat) := do
  let afterCount ← addUsize pos 4
  if afterCount > buffer.length then
    Res.err (Error.decode "unexpected end of metadata buffer")
  else
    let count ← fromLeSlice 4 buffer pos
    let pos := afterCount
    let readSize ← mulUsize count symbolCstrLenV1
    let stop ← addUsize pos readSize
    if stop > buffer.length then
      Res.err (Error.decode "unexpected end of metadata buffer")
    else DbnFsm.decodeSymbolLoop symbolCstrLenV1 buffer count 0 pos

/-- Either date of the interval `i`: the errors call both of them the start. -/
def decodeIntervalDate (i : Nat) (buffer : List UInt8) (pos : Nat) :
    Result (D × Nat) := do
  let rawDate ← fromLeSlice 4 buffer pos
  let pos ← addUsize pos 4
  let date ← (DbnFsm.decodeIso8601 rawDate).mapErr (fun e =>
    Error.decode (e ++ " while parsing start date of mapping interval at index "
      ++ toString i))
  Res.ok (date, pos)

/-- The loop over the intervals of a mapping. -/
def decodeIntervalLoop (buffer : List UInt8) :
    Nat -> Nat -> Nat -> Result (List (MappingInterval D) × Nat)
  | 0, _, pos => Res.ok ([], pos)
  | count + 1, i, pos => do
      let (startDate, pos) ← decodeIntervalDate i buffer pos
      let (endDate, pos) ← decodeIntervalDate i buffer pos
      let (symbol, pos) ←
        (DbnFsm.decodeMetadataSymbol symbolCstrLenV1 buffer pos).mapErr
          (fun e => Error.utf8 e
            ("parsing symbol mapping interval at index " ++ toString i))
      let (rest, pos) ← decodeIntervalLoop buffer count (i + 1) pos
      Res.ok (⟨startDate, endDate, symbol⟩ :: rest, pos)

def decodeSymbolMapping (buffer : List UInt8) (pos : Nat) :
    Result (SymbolMapping D × Nat) := do
  let minSymbolMappingEncodedSize := symbolCstrLenV1 + 4
  let mappingIntervalEncodedSize := 4 * 2 + symbolCstrLenV1
  let minStop ← addUsize pos minSymbolMappingEncodedSize
  if minStop > buffer.length then
    Res.err (Error.decode
      "unexpected end of metadata buffer while parsing symbol mapping")
  else
    let (rawSymbol, pos) ←
      (DbnFsm.decodeMetadataSymbol symbolCstrLenV1 buffer pos).mapErr
        (fun e => Error.utf8 e "parsing raw symbol")
    let intervalCount ← fromLeSlice 4 buffer pos
    let pos ← addUsize pos 4
    let readSize ← mulUsize intervalCount mappingIntervalEncodedSize
    let stop ← addUsize pos readSize
    if stop > buffer.length then
      Res.err (Error.decode ("symbol mapping interval_count (" ++
        toString intervalCount ++ ") doesn't match size of buffer which only " ++
        "contains space for " ++
        toString ((buffer.length - pos) / mappingIntervalEncodedSize) ++
        " intervals"))
    else
      let (intervals, pos) ← decodeIntervalLoop buffer intervalCount 0 pos
      Res.ok (⟨rawSymbol, intervals⟩, pos)

/-- The loop over the symbol mappings. -/
def decodeMappingLoop (buffer : List UInt8) :
    Nat -> Nat -> Result (List (SymbolMapping D) × Nat)
  | 0, pos => Res.ok ([], pos)
  | count + 1, pos => do
      let (mapping, pos) ← decodeSymbolMapping buffer pos
      let (rest, pos) ← decodeMappingLoop buffer count pos
      Res.ok (mapping :: rest, pos)

def decodeSymbolMappings (buffer : List UInt8) (pos : Nat) :
    Result (List (SymbolMapping D) × Nat) := do
  let afterCount ← addUsize pos 4
  if afterCount > buffer.length then
    Res.err (Error.decode ("unexpected end of metadata buffer while decoding " ++
      "symbol mappings"))
  else
    let count ← fromLeSlice 4 buffer pos
    decodeMappingLoop buffer count afterCount

/-- The part of `decode` that reads the decompressed buffer. -/
def decodeVariable (varBuffer : List UInt8) : Result (SymbolLists D) := do
  let schemaDefinitionLength ← fromLeSlice 4 varBuffer 0
  if schemaDefinitionLength ≠ 0 then
    Res.err (Error.decode "DBZ doesn't support schema definitions")
  else
    let pos := 4 + schemaDefinitionLength
    let (symbols, pos) ← decodeRepeatedSymbolCstr varBuffer pos
    let (partialSymbols, pos) ← decodeRepeatedSymbolCstr varBuffer pos
    let (notFound, pos) ← decodeRepeatedSymbolCstr varBuffer pos
    let (mappings, _) ← decodeSymbolMappings varBuffer pos
    Res.ok ⟨symbols, partialSymbols, notFound, mappings⟩

/-!
## The frame
-/

/-- The fields of fixed length. -/
structure FixedFields where
  dataset : Str
  schema : Schema
  start : UInt64
  endTs : UInt64
  limit : Option NonZeroU64
  stypeIn : SType
  stypeOut : SType

def decodeSchema (buffer : List UInt8) (pos : Nat) : Result Schema := do
  let rawSchema ← fromLeSlice 2 buffer pos
  match Schema.tryFrom rawSchema with
  | some schema => Res.ok schema
  | none =>
      Res.err (Error.conversion
        (DbnFsm.debugBytes ((buffer.drop pos).take 2)) "dbn::enums::Schema")

def decodeCompression (buffer : List UInt8) (pos : Nat) :
    Result Cli.Compression := do
  let raw ← fromLeSlice 1 buffer pos
  match Cli.Compression.tryFrom raw with
  | some compression => Res.ok compression
  | none => Res.err (Error.conversion (toString raw) "dbn::enums::Compression")

/-- The part of `decode` that follows the version. -/
def decodeFixedFields (buffer : List UInt8) (pos : Nat) :
    Result (FixedFields × Nat) := do
  let datasetSlice ← slice buffer pos metadataDatasetCstrLen
  let dataset ← (trimmedUtf8 datasetSlice).mapErr
    (fun e => Error.utf8 e "reading dataset from metadata")
  let pos := pos + metadataDatasetCstrLen
  let schema ← decodeSchema buffer pos
  let pos := pos + 2
  let start ← fromLeSlice 8 buffer pos
  let pos := pos + 8
  let endTs ← fromLeSlice 8 buffer pos
  let pos := pos + 8
  let limit ← fromLeSlice 8 buffer pos
  let pos := pos + 8
  -- skip over deprecated record_count
  let pos := pos + 8
  let _ ← decodeCompression buffer pos
  let pos := pos + 1
  let stypeIn ← DbnFsm.decodeSType buffer pos
  let pos := pos + 1
  let stypeOut ← DbnFsm.decodeSType buffer pos
  let pos := pos + 1
  -- skip reserved
  Res.ok
    ({ dataset := dataset
       schema := schema
       start := UInt64.ofNat start
       endTs := UInt64.ofNat endTs
       limit := NonZeroU64.new (UInt64.ofNat limit)
       stypeIn := stypeIn
       stypeOut := stypeOut }, pos + reservedLen)

/-- The metadata with the given fields. -/
def metadataOf (fixed : FixedFields) (lists : SymbolLists D) : Metadata D where
  version := 0
  dataset := fixed.dataset
  schema := some fixed.schema
  start := fixed.start
  endTs := NonZeroU64.new fixed.endTs
  limit := fixed.limit
  stypeIn := some fixed.stypeIn
  stypeOut := fixed.stypeOut
  tsOut := false
  symbolCstrLen := symbolCstrLenV1
  symbols := lists.symbols
  partialSymbols := lists.partialSymbols
  notFound := lists.notFound
  mappings := lists.mappings

variable (newSlice : List UInt8 ->
  Except IoErrorKind (Except IoErrorKind (List UInt8)))

/-- The decompressed variable part. -/
def decompress (bytes : List UInt8) : Result (List UInt8) :=
  match newSlice bytes with
  | Except.error e =>
      Res.err (Error.io e "reading zstd-compressed variable-length metadata")
  | Except.ok (Except.error e) =>
      Res.err (Error.io e "reading variable-length metadata")
  | Except.ok (Except.ok varBuffer) => Res.ok varBuffer

def decode (metadataBuffer : List UInt8) : Result (Metadata D) := do
  let magic ← slice metadataBuffer 0 3
  if magic ≠ dbzPrefix then Res.err (Error.decode "Invalid version string")
  else
    let version ← fromLeSlice 1 metadataBuffer 3
    -- assume not forwards compatible
    if version > schemaVersion then
      Res.err (Error.decode "Can't read newer version of DBZ")
    else
      let (fixed, pos) ← decodeFixedFields metadataBuffer versionCstrLen
      let compressed ← slice metadataBuffer pos (metadataBuffer.length - pos)
      let varBuffer ← decompress newSlice compressed
      let lists ← decodeVariable varBuffer
      Res.ok (metadataOf fixed lists)

/-- Reads the frame and decodes it. -/
def read {R : Type} [Read R] (reader : R) : Result (Metadata D) × R :=
  match readExact reader 8 with
  | (Except.error e, reader) =>
      (Res.err (Error.io e "reading metadata prelude"), reader)
  | (Except.ok prelude, reader) =>
      if ¬ InSkippableMagicRange (leNat (prelude.take 4)) then
        (Res.err (Error.decode "invalid metadata: no zstd magic number"),
          reader)
      else if leNat (prelude.drop 4) < fixedMetadataLen then
        (Res.err (Error.decode
          "frame length cannot be shorter than the fixed metadata size"),
          reader)
      else
        match readExact reader (leNat (prelude.drop 4)) with
        | (Except.error e, reader) =>
            (Res.err (Error.io e "reading metadata"), reader)
        | (Except.ok metadataBuffer, reader) =>
            (decode newSlice metadataBuffer, reader)

end MetadataDecoder

/-!
## The decoder
-/

/-- The decoder of a DBZ file. -/
structure Decoder (Z B D : Type) where
  reader : Z
  metadata : Metadata D
  fsm : DbnFsm B

namespace Decoder

variable {R Z B D : Type} [Read R] [Read Z] [Zstd R Z] [Buffer B]
  [CalendarDate D]

def withUpgradePolicy (reader : R) (policy : VersionUpgradePolicy) :
    Result (Decoder Z B D) :=
  match MetadataDecoder.read (Zstd.newSlice R Z) reader with
  | (Res.err e, _) => Res.err e
  | (Res.panic p, _) => Res.panic p
  | (Res.ok metadata, reader) =>
      -- version 1 records are the same as DBZ
      match (default : DbnFsmBuilder).withInputDbnVersion (some 1) with
      | Res.err _ => Res.panic Panic.unwrapNone
      | Res.panic p => Res.panic p
      | Res.ok builder => do
          let fsm ← { builder with
            tsOut := metadata.tsOut
            upgradePolicy := policy
            skipMetadata := true }.build
          match Zstd.withBuffer reader with
          | Except.error e => Res.err (Error.io e "creating zstd decoder")
          | Except.ok reader =>
              Res.ok ⟨reader, metadata.upgrade policy, fsm⟩

/-- The loop is that of the decoder of DBN records. -/
def decodeRecordRef (d : Decoder Z B D) :
    Outcome (Except Error (Option RecordRef) × Decoder Z B D) :=
  match (⟨d.reader, d.fsm⟩ : RecordDecoder Z B).decodeRef D with
  | .timeout => .timeout
  | .panic p => .panic p
  | .ret (res, ⟨reader, fsm⟩) => .ret (res, { d with reader, fsm })

end Decoder

end Dbz
end Dbn
