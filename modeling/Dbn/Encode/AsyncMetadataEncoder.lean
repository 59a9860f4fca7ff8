import Dbn.Encode.EncodedMetadata
import Dbn.Lib.Sink

/-!
# Encoding metadata asynchronously

`MetadataEncoder` of the asynchronous DBN encoder, a copy of the synchronous
one in which the writer itself writes integers.  Over writers that never fail
the two append the same bytes and end with the same result.
-/

namespace Dbn
namespace AsyncMetadataEncoder

open Lib
open Lib.WriteM (writeAllAsync writeU8 writeU16Le writeU32Le writeU64Le
  forEach)
open MetadataEncoder (Encode metadataErr calcLength dateInt)

section Encoder

variable {W D : Type} [AsyncWrite W]

def encodeFixedLenCstr (symbolCstrLen : Nat) (string : Str) : Encode W Unit :=
  if string.isAscii = false then
    WriteM.fail (Error.conversion string.display "ASCII")
  else if string.len ≥ symbolCstrLen then
    if symbolCstrLen = 0 then WriteM.panic Panic.overflow
    else
      WriteM.fail (Error.encode ("'" ++ string.display ++
        "' is too long to be encoded in DBN; it cannot be longer than " ++
        toString (symbolCstrLen - 1) ++ " characters"))
  else do
    let cstrErr := fun e => Error.io e "writing cstr"
    writeAllAsync cstrErr string.bytes
    -- pad remaining space with null bytes
    forEach (fun _ => writeU8 cstrErr 0)
      (List.range (symbolCstrLen - string.len))

def encodeRangeAndCounts (version : Nat) (start : UInt64)
    (endTs limit : Option NonZeroU64) : Encode W Unit := do
  writeU64Le metadataErr start.toNat
  writeU64Le metadataErr
    ((endTs.map (fun e => e.val.toNat)).getD undefTimestamp)
  writeU64Le metadataErr ((limit.map (fun l => l.val.toNat)).getD nullLimit)
  if version = 1 then
    -- backwards compatibility with removed metadata field `record_count`
    writeU64Le metadataErr nullRecordCount
  else pure ()

def encodeRepeatedSymbolCstr (symbolCstrLen : Nat) (symbols : List Str) :
    Encode W Unit := do
  writeU32Le (fun e => Error.io e "writing repeated symbols length")
    symbols.length
  forEach (encodeFixedLenCstr symbolCstrLen) symbols

variable [CalendarDate D]

def encodeDate (context : String) (date : D) : Encode W Unit :=
  writeU32Le (fun e => Error.io e context) (dateInt date)

def encodeMappingInterval (symbolCstrLen : Nat)
    (interval : MappingInterval D) : Encode W Unit := do
  encodeDate "writing start date" interval.startDate
  encodeDate "writing end date" interval.endDate
  encodeFixedLenCstr symbolCstrLen interval.symbol

def encodeSymbolMapping (symbolCstrLen : Nat)
    (symbolMapping : SymbolMapping D) : Encode W Unit := do
  encodeFixedLenCstr symbolCstrLen symbolMapping.rawSymbol
  -- encode interval_count
  writeU32Le (fun e => Error.io e "writing symbol mapping interval count")
    symbolMapping.intervals.length
  forEach (encodeMappingInterval symbolCstrLen) symbolMapping.intervals

def encodeSymbolMappings (symbolCstrLen : Nat)
    (symbolMappings : List (SymbolMapping D)) : Encode W Unit := do
  -- encode mappings_count
  writeU32Le (fun e => Error.io e "writing symbol mappings length")
    symbolMappings.length
  forEach (encodeSymbolMapping symbolCstrLen) symbolMappings

/-- Encodes metadata into DBN. -/
def encode (m : Metadata D) : Encode W Unit := do
  writeAllAsync metadataErr dbnPrefix
  if m.version > dbnVersion then
    WriteM.fail (Error.encode ("can't encode Metadata with version " ++
      toString m.version ++
      " which is greater than the maximum supported version " ++
      toString dbnVersion))
  else do
    -- Never write version=0, which denotes legacy DBZ files
    writeAllAsync metadataErr [UInt8.ofNat (max m.version 1)]
    writeU32Le metadataErr (calcLength m).1
    encodeFixedLenCstr metadataDatasetCstrLen m.dataset
    writeU16Le metadataErr ((m.schema.map Schema.toNat).getD nullSchema)
    encodeRangeAndCounts m.version m.start m.endTs m.limit
    writeU8 metadataErr ((m.stypeIn.map SType.toNat).getD nullStype)
    writeU8 metadataErr m.stypeOut.toNat
    writeU8 metadataErr (if m.tsOut then 1 else 0)
    if m.version > 1 then writeU16Le metadataErr m.symbolCstrLen
    else pure ()
    -- padding
    writeAllAsync metadataErr
      (List.replicate
        (if m.version = 1 then metadataReservedLenV1
          else metadataReservedLen) 0)
    -- schema_definition_length
    writeU32Le metadataErr 0
    encodeRepeatedSymbolCstr m.symbolCstrLen m.symbols
    encodeRepeatedSymbolCstr m.symbolCstrLen m.partialSymbols
    encodeRepeatedSymbolCstr m.symbolCstrLen m.notFound
    encodeSymbolMappings m.symbolCstrLen m.mappings
    if (calcLength m).2 > 0 then
      writeAllAsync metadataErr (List.replicate (calcLength m).2 0)
    else pure ()

end Encoder

/-!
## The synchronous encoder
-/

section SameOutput

open Lib.WriteM (Outputs SameOutput)

variable {W W' D : Type} [Sink W] [AsyncSink W']

theorem sameOutput_encodeFixedLenCstr (len : Nat) (s : Str) :
    SameOutput (MetadataEncoder.encodeFixedLenCstr len s : Encode W Unit)
      (encodeFixedLenCstr len s : Encode W' Unit) := by
  apply SameOutput.ite
  · intro _
    exact SameOutput.of_fail _
  intro _
  apply SameOutput.ite
  · intro _
    apply SameOutput.ite
    · intro _
      exact SameOutput.of_panic _
    · intro _
      exact SameOutput.of_fail _
  intro _
  apply SameOutput.bind
  · exact SameOutput.of_writeAll _ s.bytes
  · intro _
    apply SameOutput.forEach
    intro _
    exact SameOutput.of_writeUintLe _ rfl

theorem sameOutput_encodeRangeAndCounts (version : Nat) (start : UInt64)
    (endTs limit : Option NonZeroU64) :
    SameOutput
      (MetadataEncoder.encodeRangeAndCounts version start endTs limit :
        Encode W Unit)
      (encodeRangeAndCounts version start endTs limit : Encode W' Unit) := by
  apply SameOutput.bind (SameOutput.of_writeUintLe _ rfl)
  intro _
  apply SameOutput.bind (SameOutput.of_writeUintLe _ rfl)
  intro _
  apply SameOutput.bind (SameOutput.of_writeUintLe _ rfl)
  intro _
  apply SameOutput.ite
  · intro _
    exact SameOutput.of_writeUintLe _ rfl
  · intro _
    exact SameOutput.of_pure ()

theorem sameOutput_encodeRepeatedSymbolCstr (len : Nat) (symbols : List Str) :
    SameOutput
      (MetadataEncoder.encodeRepeatedSymbolCstr len symbols : Encode W Unit)
      (encodeRepeatedSymbolCstr len symbols : Encode W' Unit) := by
  apply SameOutput.bind (SameOutput.of_writeUintLe _ rfl)
  intro _
  exact SameOutput.forEach (sameOutput_encodeFixedLenCstr len) symbols

theorem stypeBytes_eq (m : Metadata D) :
    MetadataEncoder.stypeBytes m =
      leBytes 1 ((m.stypeIn.map SType.toNat).getD nullStype) ++
        (leBytes 1 m.stypeOut.toNat ++
          leBytes 1 (if m.tsOut then 1 else 0)) := by
  unfold MetadataEncoder.stypeBytes
  cases m.tsOut <;> rfl

/-- The synchronous encoder writes the three bytes in one call. -/
theorem SameOutput.bind_stypeBytes (m : Metadata D)
    {f : Unit -> Encode W Unit} {g : Unit -> Encode W' Unit}
    (hfg : forall a, SameOutput (f a) (g a)) :
    SameOutput
      (WriteM.writeAll metadataErr (MetadataEncoder.stypeBytes m) >>= f)
      (writeU8 metadataErr ((m.stypeIn.map SType.toNat).getD nullStype) >>=
        fun _ => writeU8 metadataErr m.stypeOut.toNat >>=
        fun _ => writeU8 metadataErr (if m.tsOut then 1 else 0) >>= g) := by
  rcases hfg () with ⟨bytes, res, hf, hg⟩
  refine ⟨MetadataEncoder.stypeBytes m ++ bytes, res,
    (SameOutput.outputs_writeAll metadataErr _).bind hf, ?_⟩
  rw [stypeBytes_eq, List.append_assoc, List.append_assoc]
  have hlast := (SameOutput.outputs_writeUintLe metadataErr 1
    (if m.tsOut then 1 else 0)).bind hg
  have hout := (SameOutput.outputs_writeUintLe metadataErr 1
    m.stypeOut.toNat).bind (f := fun _ => _) hlast
  exact (SameOutput.outputs_writeUintLe metadataErr 1 _).bind
    (f := fun _ => _) hout

variable [CalendarDate D]

theorem sameOutput_encodeMappingInterval (len : Nat)
    (interval : MappingInterval D) :
    SameOutput
      (MetadataEncoder.encodeMappingInterval len interval : Encode W Unit)
      (encodeMappingInterval len interval : Encode W' Unit) := by
  apply SameOutput.bind (SameOutput.of_writeUintLe _ rfl)
  intro _
  apply SameOutput.bind (SameOutput.of_writeUintLe _ rfl)
  intro _
  exact sameOutput_encodeFixedLenCstr len interval.symbol

theorem sameOutput_encodeSymbolMapping (len : Nat)
    (mapping : SymbolMapping D) :
    SameOutput
      (MetadataEncoder.encodeSymbolMapping len mapping : Encode W Unit)
      (encodeSymbolMapping len mapping : Encode W' Unit) := by
  apply SameOutput.bind (sameOutput_encodeFixedLenCstr len mapping.rawSymbol)
  intro _
  apply SameOutput.bind (SameOutput.of_writeUintLe _ rfl)
  intro _
  exact SameOutput.forEach (sameOutput_encodeMappingInterval len) _

theorem sameOutput_encodeSymbolMappings (len : Nat)
    (mappings : List (SymbolMapping D)) :
    SameOutput
      (MetadataEncoder.encodeSymbolMappings len mappings : Encode W Unit)
      (encodeSymbolMappings len mappings : Encode W' Unit) := by
  apply SameOutput.bind (SameOutput.of_writeUintLe _ rfl)
  intro _
  exact SameOutput.forEach (sameOutput_encodeSymbolMapping len) mappings

/--
For every metadata the two encoders append the same bytes, and they end with
the same result, which may be the same error.
-/
theorem encode_sameOutput (m : Metadata D) (w : W) (w' : W') :
    exists bytes,
      Sink.written (MetadataEncoder.encode m w).2 =
        Sink.written w ++ bytes ∧
      AsyncSink.written (encode m w').2 = AsyncSink.written w' ++ bytes ∧
      (MetadataEncoder.encode m w).1 = (encode m w').1 := by
  have hsame : SameOutput (MetadataEncoder.encode m : Encode W Unit)
      (encode m : Encode W' Unit) := by
    apply SameOutput.bind (SameOutput.of_writeAll _ _)
    intro _
    apply SameOutput.ite
    · intro _
      exact SameOutput.of_fail _
    intro _
    apply SameOutput.bind (SameOutput.of_writeAll _ _)
    intro _
    apply SameOutput.bind (SameOutput.of_writeUintLe _ rfl)
    intro _
    apply SameOutput.bind (sameOutput_encodeFixedLenCstr _ _)
    intro _
    apply SameOutput.bind (SameOutput.of_writeUintLe _ rfl)
    intro _
    apply SameOutput.bind (sameOutput_encodeRangeAndCounts _ _ _ _)
    intro _
    apply SameOutput.bind_stypeBytes
    intro _
    apply SameOutput.optional (SameOutput.of_writeUintLe _ rfl)
    apply SameOutput.bind (SameOutput.of_writeAll _ _)
    intro _
    apply SameOutput.bind (SameOutput.of_writeUintLe _ rfl)
    intro _
    apply SameOutput.bind (sameOutput_encodeRepeatedSymbolCstr _ _)
    intro _
    apply SameOutput.bind (sameOutput_encodeRepeatedSymbolCstr _ _)
    intro _
    apply SameOutput.bind (sameOutput_encodeRepeatedSymbolCstr _ _)
    intro _
    apply SameOutput.bind (sameOutput_encodeSymbolMappings _ _)
    intro _
    apply SameOutput.ite
    · intro _
      exact SameOutput.of_writeAll _ _
    · intro _
      exact SameOutput.of_pure ()
  rcases hsame with ⟨bytes, res, hx, hy⟩
  rcases hx w with ⟨hres, hwritten⟩
  rcases hy w' with ⟨hres', hwritten'⟩
  exact ⟨bytes, hwritten, hwritten', hres.trans hres'.symm⟩

end SameOutput
end AsyncMetadataEncoder
end Dbn
