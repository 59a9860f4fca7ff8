import Dbn.Lib.LittleEndian
import Dbn.Metadata

/-!
# Decoding metadata

The functions of the state machine that read metadata from a byte slice with a
cursor.  Every slice expression panics when it is out of bounds and the cursor
arithmetic of the variable-length part is checked for overflow.
-/

namespace Dbn
namespace DbnFsm

open Lib

variable {D : Type} [CalendarDate D]

/-- `from_le_slice(&buffer[pos..])` for an integer of `width` bytes. -/
def fromLeSlice (width : Nat) (buffer : List UInt8) (pos : Nat) : Result Nat :=
  if pos + width ≤ buffer.length then
    Res.ok (leNat ((buffer.drop pos).take width))
  else Res.panic Panic.outOfBounds

/-- `&buffer[pos..pos + len]`. -/
def slice {ε : Type} (buffer : List UInt8) (pos len : Nat) :
    Res ε (List UInt8) :=
  if pos + len ≤ buffer.length then Res.ok ((buffer.drop pos).take len)
  else Res.panic Panic.outOfBounds

/-- `from_utf8` on a slice, with trailing NUL bytes removed. -/
def trimmedUtf8 (bytes : List UInt8) : Res Utf8Error Str :=
  match Str.fromUtf8 bytes with
  | Except.ok s => Res.ok s.trimEndNul
  | Except.error e => Res.err e

/-!
## Dates
-/

def decodeIso8601 (raw : Nat) : Res String D :=
  let year := raw / 10000
  let remaining := raw % 10000
  let month := remaining / 100
  if 1 ≤ month ∧ month ≤ 12 then
    let day := remaining % 100
    match CalendarDate.fromCalendarDate (year : Int) month day with
    | Except.ok date => Res.ok date
    | Except.error e =>
        Res.err ("couldn't convert " ++ toString raw ++
          " to a valid date: " ++ e)
  else
    Res.err (CalendarDate.monthError D month ++ " while parsing " ++
      toString raw ++ " into date")

/-!
## Symbols
-/

def decodeMetadataSymbol (symbolCstrLen : Nat) (buffer : List UInt8)
    (pos : Nat) : Res Utf8Error (Str × Nat) := do
  let stop ← addUsize pos symbolCstrLen
  let symbolSlice ← slice buffer pos symbolCstrLen
  let symbol ← trimmedUtf8 symbolSlice
  Res.ok (symbol, stop)

/-- The loop over the symbols of a list, `count` of them from index `i` on. -/
def decodeSymbolLoop (symbolCstrLen : Nat) (buffer : List UInt8) :
    Nat -> Nat -> Nat -> Result (List Str × Nat)
  | 0, _, pos => Res.ok ([], pos)
  | count + 1, i, pos => do
      let (symbol, pos) ←
        (decodeMetadataSymbol symbolCstrLen buffer pos).mapErr
          (fun e => Error.utf8 e ("decoding symbol at index " ++ toString i))
      let (rest, pos) ← decodeSymbolLoop symbolCstrLen buffer count (i + 1) pos
      Res.ok (symbol :: rest, pos)

def decodeMetadataRepeatedSymbolCstr (symbolCstrLen : Nat)
    (buffer : List UInt8) (pos : Nat) : Result (List Str × Nat) := do
  let afterCount ← addUsize pos 4
  if afterCount > buffer.length then
    Res.err (Error.decode "unexpected end of metadata buffer in symbol cstr")
  else
    let count ← fromLeSlice 4 buffer pos
    let pos := afterCount
    let readSize ← mulUsize count symbolCstrLen
    let stop ← addUsize pos readSize
    if stop > buffer.length then
      Res.err (Error.decode "unexpected end of metadata buffer in symbol cstr")
    else decodeSymbolLoop symbolCstrLen buffer count 0 pos

/-!
## Symbol mappings
-/

/-- A date of the interval `i` of the mapping `idx`. -/
def decodeIntervalDate (which : String) (idx i : Nat) (buffer : List UInt8)
    (pos : Nat) : Result (D × Nat) := do
  let rawDate ← fromLeSlice 4 buffer pos
  let pos ← addUsize pos 4
  let date ← (decodeIso8601 rawDate).mapErr (fun e =>
    Error.decode (e ++ " while parsing " ++ which ++
      " date of mapping interval at index " ++ toString i ++
      " within mapping at index " ++ toString idx))
  Res.ok (date, pos)

/-- The loop over the intervals of the mapping `idx`. -/
def decodeIntervalLoop (symbolCstrLen idx : Nat) (buffer : List UInt8) :
    Nat -> Nat -> Nat -> Result (List (MappingInterval D) × Nat)
  | 0, _, pos => Res.ok ([], pos)
  | count + 1, i, pos => do
      let (startDate, pos) ← decodeIntervalDate "start" idx i buffer pos
      let (endDate, pos) ← decodeIntervalDate "end" idx i buffer pos
      let (symbol, pos) ←
        (decodeMetadataSymbol symbolCstrLen buffer pos).mapErr (fun e =>
          Error.utf8 e ("parsing symbol for mapping interval at index " ++
            toString i ++ " within mapping at index " ++ toString idx))
      let (rest, pos) ←
        decodeIntervalLoop symbolCstrLen idx buffer count (i + 1) pos
      Res.ok (⟨startDate, endDate, symbol⟩ :: rest, pos)

def decodeMetadataSymbolMapping (symbolCstrLen idx : Nat)
    (buffer : List UInt8) (pos : Nat) : Result (SymbolMapping D × Nat) := do
  let minSymbolMappingEncodedLen := symbolCstrLen + 4
  let mappingIntervalEncodedLen := 4 * 2 + symbolCstrLen
  let minStop ← addUsize pos minSymbolMappingEncodedLen
  if minStop > buffer.length then
    Res.err (Error.decode ("unexpected end of metadata buffer while parsing " ++
      "symbol mapping at index " ++ toString idx))
  else
    let (rawSymbol, pos) ←
      (decodeMetadataSymbol symbolCstrLen buffer pos).mapErr
        (fun e => Error.utf8 e "parsing raw symbol")
    let intervalCount ← fromLeSlice 4 buffer pos
    let pos ← addUsize pos 4
    let readSize ← mulUsize intervalCount mappingIntervalEncodedLen
    let stop ← addUsize pos readSize
    if stop > buffer.length then
      Res.err (Error.decode ("symbol mapping at index " ++ toString idx ++
        " with `interval_count` " ++ toString intervalCount ++
        " doesn't match size of buffer which only contains space for " ++
        toString ((buffer.length - pos) / mappingIntervalEncodedLen) ++
        " intervals"))
    else
      let (intervals, pos) ←
        decodeIntervalLoop symbolCstrLen idx buffer intervalCount 0 pos
      Res.ok (⟨rawSymbol, intervals⟩, pos)

/-- The loop over the symbol mappings. -/
def decodeMappingLoop (symbolCstrLen : Nat) (buffer : List UInt8) :
    Nat -> Nat -> Nat -> Result (List (SymbolMapping D) × Nat)
  | 0, _, pos => Res.ok ([], pos)
  | count + 1, i, pos => do
      let (mapping, pos) ← decodeMetadataSymbolMapping symbolCstrLen i buffer pos
      let (rest, pos) ← decodeMappingLoop symbolCstrLen buffer count (i + 1) pos
      Res.ok (mapping :: rest, pos)

def decodeMetadataSymbolMappings (symbolCstrLen : Nat) (buffer : List UInt8)
    (pos : Nat) : Result (List (SymbolMapping D) × Nat) := do
  let afterCount ← addUsize pos 4
  if afterCount > buffer.length then
    Res.err (Error.decode "unexpected end of metadata buffer in symbol mapping")
  else
    let count ← fromLeSlice 4 buffer pos
    decodeMappingLoop symbolCstrLen buffer count 0 afterCount

/-!
## The metadata block
-/

/-- The fields of fixed length. -/
structure FixedFields where
  dataset : Str
  schema : Option Schema
  start : UInt64
  endTs : UInt64
  limit : Option NonZeroU64
  stypeIn : Option SType
  stypeOut : SType
  tsOut : Bool
  symbolCstrLen : Nat

/-- The `Debug` text of a byte slice. -/
def debugBytes (bytes : List UInt8) : String :=
  "[" ++ ", ".intercalate (bytes.map (fun b => toString b.toNat)) ++ "]"

def decodeSchema (buffer : List UInt8) (pos : Nat) : Result (Option Schema) := do
  let rawSchema ← fromLeSlice 2 buffer pos
  if rawSchema = nullSchema then Res.ok none
  else
    match Schema.tryFrom rawSchema with
    | some schema => Res.ok (some schema)
    | none =>
        Res.err (Error.conversion (debugBytes ((buffer.drop pos).take 2))
          "dbn::enums::Schema")

def decodeSType (buffer : List UInt8) (pos : Nat) : Result SType := do
  let raw ← fromLeSlice 1 buffer pos
  match SType.tryFrom raw with
  | some stype => Res.ok stype
  | none => Res.err (Error.conversion (toString raw) "dbn::enums::SType")

def decodeOptSType (buffer : List UInt8) (pos : Nat) :
    Result (Option SType) := do
  let raw ← fromLeSlice 1 buffer pos
  if raw = nullStype then Res.ok none
  else
    let stype ← decodeSType buffer pos
    Res.ok (some stype)

/--
The first part of `decode_metadata_impl`, up to `schema_definition_length`.
Returns the fields and the position of the cursor.
-/
def decodeFixedFields (inputVersion : Nat) (buffer : List UInt8) :
    Result (FixedFields × Nat) := do
  let pos := 0
  let datasetSlice ← slice buffer pos metadataDatasetCstrLen
  let dataset ← (trimmedUtf8 datasetSlice).mapErr
    (fun e => Error.utf8 e "reading dataset from metadata")
  let pos := pos + metadataDatasetCstrLen
  let schema ← decodeSchema buffer pos
  let pos := pos + 2
  let start ← fromLeSlice 8 buffer pos
  let pos := pos + 8
  let endTs ← fromLeSlice 8 buffer pos
  let pos := pos + 8
  let limit ← fromLeSlice 8 buffer pos
  let pos := pos + 8
  -- skip deprecated record_count
  let pos := if inputVersion = 1 then pos + 8 else pos
  let stypeIn ← decodeOptSType buffer pos
  let pos := pos + 1
  let stypeOut ← decodeSType buffer pos
  let pos := pos + 1
  let tsOut ← fromLeSlice 1 buffer pos
  let pos := pos + 1
  let symbolCstrLen ←
    if inputVersion = 1 then Res.ok symbolCstrLenV1
    else fromLeSlice 2 buffer pos
  let pos := if inputVersion = 1 then pos else pos + 2
  -- skip reserved
  let pos :=
    pos + (if inputVersion = 1 then metadataReservedLenV1
      else metadataReservedLen)
  Res.ok
    ({ dataset := dataset
       schema := schema
       start := UInt64.ofNat start
       endTs := UInt64.ofNat endTs
       limit := NonZeroU64.new (UInt64.ofNat limit)
       stypeIn := stypeIn
       stypeOut := stypeOut
       tsOut := tsOut != 0
       symbolCstrLen := symbolCstrLen }, pos)

def decodeMetadataImpl (inputVersion : Nat) (buffer : List UInt8) :
    Result (Metadata D) := do
  let (fixed, pos) ← decodeFixedFields inputVersion buffer
  let schemaDefinitionLength ← fromLeSlice 4 buffer pos
  if schemaDefinitionLength ≠ 0 then
    Res.err (Error.decode "this version of dbn can't parse schema definitions")
  else
    let pos := pos + 4 + schemaDefinitionLength
    let (symbols, pos) ←
      decodeMetadataRepeatedSymbolCstr fixed.symbolCstrLen buffer pos
    let (partialSymbols, pos) ←
      decodeMetadataRepeatedSymbolCstr fixed.symbolCstrLen buffer pos
    let (notFound, pos) ←
      decodeMetadataRepeatedSymbolCstr fixed.symbolCstrLen buffer pos
    let (mappings, _) ←
      decodeMetadataSymbolMappings fixed.symbolCstrLen buffer pos
    Res.ok
      { version := inputVersion
        dataset := fixed.dataset
        schema := fixed.schema
        start := fixed.start
        endTs :=
          if fixed.endTs.toNat = undefTimestamp then none
          else NonZeroU64.new fixed.endTs
        limit := fixed.limit
        stypeIn := fixed.stypeIn
        stypeOut := fixed.stypeOut
        tsOut := fixed.tsOut
        symbolCstrLen := fixed.symbolCstrLen
        symbols := symbols
        partialSymbols := partialSymbols
        notFound := notFound
        mappings := mappings }

end DbnFsm
end Dbn
