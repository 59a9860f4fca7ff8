import Dbn.Encode.CsvRecord
import Dbn.Lib.Session
import Dbn.Metadata

/-!
# The CSV encoder

The encoder writes a header at most once on its own: when it is built for a
schema, or else before its first record.
-/

namespace Dbn

open Lib

/-- Converts an error of the CSV writer. -/
def Error.fromCsv : CsvError -> Error
  | .io source => .io source "while writing CSV"
  | .unequalLengths expectedLen len =>
      .encode ("unequal CSV row lengths: expected " ++ toString expectedLen ++
        ", found " ++ toString len)
  | .other debug => .encode debug

namespace CsvEncoder

structure Encoder (W : Type) where
  writer : W
  hasWrittenHeader : Bool
  usePrettyPx : Bool
  usePrettyTs : Bool

structure EncoderBuilder (V : Type) where
  writer : V
  usePrettyPx : Bool
  usePrettyTs : Bool
  writeHeader : Bool
  version : UInt8
  schema : Option Schema
  tsOut : Bool
  withSymbol : Bool
  delimiter : UInt8

def EncoderBuilder.new {V : Type} (writer : V) : EncoderBuilder V where
  writer := writer
  usePrettyPx := false
  usePrettyTs := false
  writeHeader := true
  version := UInt8.ofNat dbnVersion
  schema := none
  tsOut := false
  withSymbol := false
  delimiter := 0x2C

variable {V W D : Type} [CsvWriter V W]

/-- A program over the encoder. -/
abbrev Call (W α : Type) := WriteM (Encoder W) Error α

/-!
## Headers
-/

/-- A call of the writer, with its error mapped. -/
def writing (mapErr : CsvError -> Error)
    (call : W -> Except CsvError Unit × W) : Call W Unit :=
  fun self =>
    match call self.writer with
    | (Except.ok (), w) => (Res.ok (), { self with writer := w })
    | (Except.error e, w) => (Res.err (mapErr e), { self with writer := w })

/-- The fields of a row, one by one, and its end. -/
def writeRow (mapErr : CsvError -> Error) (row : Row) : Call W Unit := do
  WriteM.forEach
    (fun field => writing mapErr (fun w => CsvWriter.writeField w field)) row
  writing mapErr CsvWriter.endRecord

def setHasWrittenHeader : Call W Unit :=
  fun self => (Res.ok (), { self with hasWrittenHeader := true })

def headerRow (t : RecordType) (tsOut withSymbol : Bool) : Row :=
  t.serializeHeader tsOut ++
    if withSymbol then [asciiBytes "symbol"] else []

/-- `encode_header::<T>`, or of `WithTsOut<T>`. -/
def encodeHeader (t : RecordType) (tsOut withSymbol : Bool) :
    Call W Unit := do
  writeRow Error.fromCsv (headerRow t tsOut withSymbol)
  setHasWrittenHeader

def encodeHeaderForSchema (version : UInt8) (schema : Schema)
    (tsOut withSymbol : Bool) : Call W Unit := do
  if version < 3 ∧ schema = .definition then
    encodeHeader (.versioned .instrumentDefV2) tsOut withSymbol
  else encodeHeader schema.dispatch tsOut withSymbol
  setHasWrittenHeader

/-- `EncoderBuilder::build`. -/
def EncoderBuilder.build (self : EncoderBuilder V) :
    Result Unit × Encoder W :=
  let encoder : Encoder W :=
    { writer := CsvWriter.fromWriter self.delimiter self.writer
      hasWrittenHeader := true
      usePrettyPx := self.usePrettyPx
      usePrettyTs := self.usePrettyTs }
  if self.writeHeader then
    match self.schema with
    | some schema =>
        encodeHeaderForSchema self.version schema self.tsOut self.withSymbol
          encoder
    | none => (Res.ok (), { encoder with hasWrittenHeader := false })
  else (Res.ok (), encoder)

/-!
## Records
-/

section Records

variable [TimeFormat] (debug : RecordType -> Bool -> List UInt8 -> String)

/-- The errors of `encode_record`; `debug` shows a record. -/
def recordErr (record : String) : CsvError -> Error
  | .io source => .io source ("serializing " ++ record)
  | e => .encode ("failed to serialize " ++ record ++ ": " ++ e.debug)

/-- The row of a record, with `{record:?}` for the errors. -/
def encodeRow (t : RecordType) (tsOut : Bool) (memory : List UInt8) :
    Call W Unit :=
  fun self =>
    writeRow (recordErr (debug t tsOut memory))
      (t.serializeTo self.usePrettyPx self.usePrettyTs tsOut memory) self

/-- `encode_record::<T>`, or of `WithTsOut<T>`. -/
def encodeRecord (t : RecordType) (tsOut : Bool) (memory : List UInt8) :
    Call W Unit :=
  fun self =>
    if !self.hasWrittenHeader then
      (do encodeHeader t tsOut false; encodeRow debug t tsOut memory) self
    else encodeRow debug t tsOut memory self

def encodeRecordRefTsOut (tsOut : Bool) (record : RecordRef) :
    Call W Unit :=
  match HasRtype.rtype record with
  | Except.error e => WriteM.fail e
  | Except.ok rtype =>
      let t := rtype.dispatch (recordSize record.bytes)
      match record.getAs t tsOut with
      | Except.error p => WriteM.panic p
      | Except.ok none => WriteM.panic .unwrapNone
      | Except.ok (some memory) => encodeRecord debug t tsOut memory

def flush : Call W Unit :=
  fun self =>
    match CsvWriter.flush self.writer with
    | (Except.ok (), w) => (Res.ok (), { self with writer := w })
    | (Except.error e, w) =>
        (Res.err (Error.io e "flushing output"), { self with writer := w })

end Records

/-!
## Decoded records
-/

/-- What a call with a loop leaves: its result and the encoder. -/
abbrev Run (W : Type) := Encoder W -> Outcome (Result Unit × Encoder W)

/-- A call after a loop that returned. -/
def andThen (run : Run W) (next : Call W Unit) : Run W :=
  fun self => do
    let (res, self) ← run self
    match res with
    | Res.ok () => .ret (next self)
    | res => .ret (res, self)

section Decoded

variable [TimeFormat] (debug : RecordType -> Bool -> List UInt8 -> String)
  (decode : Pull Error D RecordRef)

/-- The body of the loops, with the check of the record type. -/
def encodeOfRtype (rtype : RType) (tsOut : Bool) (record : RecordRef) :
    Call W Unit :=
  if (HasRtype.rtype record).toOption ≠ some rtype then
    WriteM.fail (mixedSchemas rtype record)
  else encodeRecordRefTsOut debug tsOut record

/-- `while let Some(record) = decoder.decode_record_ref()? { .. }`. -/
def encodeAll (body : RecordRef -> Call W Unit) : Nat -> D -> Run W
  | 0, _, _ => .timeout
  | rounds + 1, decoder, self =>
      match decode decoder with
      | .timeout => .timeout
      | .panic p => .ret (Res.panic p, self)
      | .ret (Except.error e, _) => .ret (Res.err e, self)
      | .ret (Except.ok none, _) => .ret (Res.ok (), self)
      | .ret (Except.ok (some record), decoder) =>
          match body record self with
          | (Res.ok (), self) => encodeAll body rounds decoder self
          | (res, self) => .ret (res, self)

/-- The same loop with a count of the records, left at the limit. -/
def encodeUpTo (limit : Nat) (body : RecordRef -> Call W Unit) :
    Nat -> Nat -> D -> Run W
  | 0, _, _, _ => .timeout
  | rounds + 1, i, decoder, self =>
      match decode decoder with
      | .timeout => .timeout
      | .panic p => .ret (Res.panic p, self)
      | .ret (Except.error e, _) => .ret (Res.err e, self)
      | .ret (Except.ok none, _) => .ret (Res.ok (), self)
      | .ret (Except.ok (some record), decoder) =>
          match body record self with
          | (Res.ok (), self) =>
              let i := i + 1
              if i = limit then .ret (Res.ok (), self)
              else encodeUpTo limit body rounds i decoder self
          | (res, self) => .ret (res, self)


variable {T : Type} (rounds : Nat) (metadata : Metadata T) (decoder : D)

def encodeDecoded : Run W :=
  let tsOut := metadata.tsOut
  match metadata.schema with
  | some schema =>
      let rtype := RType.fromSchema schema
      andThen
        (encodeAll decode (encodeOfRtype debug rtype tsOut) rounds decoder)
        flush
  | none => fun self =>
      .ret (Res.err (Error.encode "can't encode a CSV with mixed schemas"),
        self)

def encodeDecodedWithLimit (limit : NonZeroU64) : Run W :=
  let tsOut := metadata.tsOut
  match metadata.schema with
  | some schema => fun self =>
      match encodeHeader schema.dispatch false false self with
      | (Res.ok (), self) =>
          let rtype := RType.fromSchema schema
          andThen
            (encodeUpTo decode limit.val.toNat
              (encodeOfRtype debug rtype tsOut) rounds 0 decoder)
            flush self
      | (res, self) => .ret (res, self)
  | none => fun self =>
      .ret (Res.err (Error.encode "can't encode a CSV with mixed schemas"),
        self)

end Decoded
end CsvEncoder
end Dbn
