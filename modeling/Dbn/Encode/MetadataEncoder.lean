import Dbn.Lib.LittleEndian
import Dbn.Lib.Writer
import Dbn.Metadata

/-!
# Encoding metadata

`MetadataEncoder` of the synchronous DBN encoder, over an arbitrary writer.
-/

namespace Dbn
namespace MetadataEncoder

open Lib
open Lib.WriteM (writeAll forEach)

variable {W D : Type} [Write W]

/-- The program type of the encoder. -/
abbrev Encode (W α : Type) := WriteM W Error α

def metadataErr (e : IoErrorKind) : Error :=
  Error.io e "writing DBN metadata"

/-- The declared length and the number of padding bytes at the end. -/
def calcLength (m : Metadata D) : Nat × Nat :=
  let mappingIntervalLen := 4 * 2 + m.symbolCstrLen
  -- schema_definition_length, symbols_count, partial_count, not_found_count,
  -- mappings_count
  let varLenCountsSize := 4 * 5
  let cStrCount :=
    m.symbols.length + m.partialSymbols.length + m.notFound.length
  let neededLen : Nat :=
    (metadataFixedLen + varLenCountsSize + cStrCount * m.symbolCstrLen +
      (m.mappings.map (fun mapping =>
        m.symbolCstrLen + 4 +
          mapping.intervals.length * mappingIntervalLen)).sum) % 2 ^ 32
  let rem := neededLen % 8
  if m.version < 3 ∨ rem = 0 then (neededLen, 0)
  else
    let endPadding := 8 - rem
    -- round up size to keep 8-byte alignment
    ((neededLen + endPadding) % 2 ^ 32, endPadding)

def encodeFixedLenCstr (symbolCstrLen : Nat) (string : Str) : Encode W Unit :=
  if string.isAscii = false then
    WriteM.fail (Error.conversion string.display "ASCII")
  else if string.len ≥ symbolCstrLen then
    -- the message mentions the length minus one, which underflows at zero
    if symbolCstrLen = 0 then WriteM.panic Panic.overflow
    else
      WriteM.fail (Error.encode ("'" ++ string.display ++
        "' is too long to be encoded in DBN; it cannot be longer than " ++
        toString (symbolCstrLen - 1) ++ " characters"))
  else do
    let cstrErr := fun e => Error.io e "writing cstr"
    writeAll cstrErr string.bytes
    -- pad remaining space with null bytes
    forEach (fun _ => writeAll cstrErr [0])
      (List.range (symbolCstrLen - string.len))

def encodeRangeAndCounts (version : Nat) (start : UInt64)
    (endTs limit : Option NonZeroU64) : Encode W Unit := do
  writeAll metadataErr (leBytes 8 start.toNat)
  writeAll metadataErr
    (leBytes 8 ((endTs.map (fun e => e.val.toNat)).getD undefTimestamp))
  writeAll metadataErr
    (leBytes 8 ((limit.map (fun l => l.val.toNat)).getD nullLimit))
  if version = 1 then
    -- backwards compatibility for record_count
    writeAll metadataErr (leBytes 8 nullRecordCount)
  else pure ()

def encodeRepeatedSymbolCstr (symbolCstrLen : Nat) (symbols : List Str) :
    Encode W Unit := do
  writeAll (fun e => Error.io e "writing repeated symbols length")
    (leBytes 4 symbols.length)
  forEach (encodeFixedLenCstr symbolCstrLen) symbols

/-- The integer that a date is written as. -/
def dateInt [CalendarDate D] (date : D) : Nat :=
  ((CalendarDate.year date % 2 ^ 32).toNat * 10000 +
    CalendarDate.month date * 100 + CalendarDate.day date) % 2 ^ 32

def encodeDate [CalendarDate D] (context : String) (date : D) :
    Encode W Unit :=
  writeAll (fun e => Error.io e context) (leBytes 4 (dateInt date))

def encodeMappingInterval [CalendarDate D] (symbolCstrLen : Nat)
    (interval : MappingInterval D) : Encode W Unit := do
  encodeDate "writing start date" interval.startDate
  encodeDate "writing end date" interval.endDate
  encodeFixedLenCstr symbolCstrLen interval.symbol

def encodeSymbolMapping [CalendarDate D] (symbolCstrLen : Nat)
    (symbolMapping : SymbolMapping D) : Encode W Unit := do
  encodeFixedLenCstr symbolCstrLen symbolMapping.rawSymbol
  -- encode interval_count
  writeAll (fun e => Error.io e "writing symbol mapping interval count")
    (leBytes 4 symbolMapping.intervals.length)
  forEach (encodeMappingInterval symbolCstrLen) symbolMapping.intervals

def encodeSymbolMappings [CalendarDate D] (symbolCstrLen : Nat)
    (symbolMappings : List (SymbolMapping D)) : Encode W Unit := do
  -- encode mappings_count
  writeAll (fun e => Error.io e "writing symbol mappings length")
    (leBytes 4 symbolMappings.length)
  forEach (encodeSymbolMapping symbolCstrLen) symbolMappings

/-- The three bytes of the symbology types and the `ts_out` flag. -/
def stypeBytes (m : Metadata D) : List UInt8 :=
  [UInt8.ofNat ((m.stypeIn.map SType.toNat).getD nullStype),
    UInt8.ofNat m.stypeOut.toNat, if m.tsOut then 1 else 0]

/-- Encodes metadata into DBN. -/
def encode [CalendarDate D] (m : Metadata D) : Encode W Unit := do
  writeAll metadataErr dbnPrefix
  if m.version > dbnVersion then
    WriteM.fail (Error.encode ("can't encode Metadata with version " ++
      toString m.version ++
      " which is greater than the maximum supported version " ++
      toString dbnVersion))
  else do
    -- Never write version=0, which denotes legacy DBZ files
    writeAll metadataErr [UInt8.ofNat (max m.version 1)]
    writeAll metadataErr (leBytes 4 (calcLength m).1)
    encodeFixedLenCstr metadataDatasetCstrLen m.dataset
    writeAll metadataErr
      (leBytes 2 ((m.schema.map Schema.toNat).getD nullSchema))
    encodeRangeAndCounts m.version m.start m.endTs m.limit
    writeAll metadataErr (stypeBytes m)
    if m.version > 1 then
      writeAll metadataErr (leBytes 2 m.symbolCstrLen)
    else pure ()
    -- padding
    writeAll metadataErr
      (List.replicate
        (if m.version = 1 then metadataReservedLenV1 else metadataReservedLen) 0)
    -- schema_definition_length
    writeAll metadataErr (leBytes 4 0)
    encodeRepeatedSymbolCstr m.symbolCstrLen m.symbols
    encodeRepeatedSymbolCstr m.symbolCstrLen m.partialSymbols
    encodeRepeatedSymbolCstr m.symbolCstrLen m.notFound
    encodeSymbolMappings m.symbolCstrLen m.mappings
    if (calcLength m).2 > 0 then
      writeAll metadataErr (List.replicate (calcLength m).2 0)
    else pure ()

end MetadataEncoder
end Dbn
