import Dbn.Cli.Encode
import Dbn.Encode.CsvEncoder
import Dbn.Encode.JsonRecord
import Dbn.Encode.RecordEncoder
import Dbn.Lib.InputLoop
import Dbn.Lib.Sink

/-!
# The encoders of records

An encoder of an encoding that is known, and the one whose encoding is set at
runtime.  The operations on many records have default bodies, and an encoder
has its own ones where it says so.
-/

namespace Dbn

open Lib
open Lib.LoopM (andThen whileSome whileSomeUpTo)
open Lib.WriteM (forEach)
open Cli (Encoding)

/-!
## Traits
-/

/-- `EncodeRecord` and `EncodeRecordRef`; a record may have a `ts_out`. -/
class EncodeRecordRef (E : Type) where
  encodeRecord : RecordType -> Bool -> List UInt8 -> WriteM E Error Unit
  encodeRecordRef : RecordRef -> WriteM E Error Unit
  encodeRecordRefTsOut : Bool -> RecordRef -> WriteM E Error Unit
  flush : WriteM E Error Unit

/-- `EncodeDbn`, with its default bodies. -/
class EncodeDbn (E : Type) extends EncodeRecordRef E where
  encodeRecords (t : RecordType) (tsOut : Bool)
      (records : List (List UInt8)) : WriteM E Error Unit := do
    forEach (encodeRecord t tsOut) records
    flush
  encodeStream {S : Type} (next : Pull Error S (List UInt8)) (rounds : Nat)
      (t : RecordType) (tsOut : Bool) (stream : S) : LoopM E Error :=
    andThen (whileSome next (encodeRecord t tsOut) rounds stream) flush
  encodeDecoded {D T : Type} (decode : Pull Error D RecordRef) (rounds : Nat)
      (metadata : Metadata T) (decoder : D) : LoopM E Error :=
    let tsOut := metadata.tsOut
    andThen (whileSome decode (encodeRecordRefTsOut tsOut) rounds decoder)
      flush
  encodeDecodedWithLimit {D T : Type} (decode : Pull Error D RecordRef)
      (rounds : Nat) (metadata : Metadata T) (decoder : D)
      (limit : NonZeroU64) : LoopM E Error :=
    let tsOut := metadata.tsOut
    andThen
      (whileSomeUpTo decode limit.val.toNat (encodeRecordRefTsOut tsOut)
        rounds 0 decoder)
      flush

/-- `rtype_dispatch!(record, ts_out: ts_out, self.encode_record())`. -/
def rtypeDispatch {E : Type}
    (encodeRecord : RecordType -> Bool -> List UInt8 -> WriteM E Error Unit)
    (tsOut : Bool) (record : RecordRef) : WriteM E Error Unit :=
  match HasRtype.rtype record with
  | Except.error e => WriteM.fail e
  | Except.ok rtype =>
      let t := rtype.dispatch (recordSize record.bytes)
      match record.getAs t tsOut with
      | Except.error p => WriteM.panic p
      | Except.ok none => WriteM.panic .unwrapNone
      | Except.ok (some memory) => encodeRecord t tsOut memory

/-- The texts of values in messages. -/
class DebugRecord where
  /-- `{record:?}` of a struct, or of `WithTsOut` of it. -/
  record : RecordType -> Bool -> List UInt8 -> String
  /-- `{record:?}` of a reference, without the address that it shows first. -/
  recordRef : RecordRef -> String
  symbol : Option (List UInt8) -> String

/-- A writer that can be flushed. -/
class FlushWrite (W : Type) extends Write W where
  flush : W -> Except IoErrorKind Unit × W

instance : FlushWrite (List UInt8) where
  flush out := (Except.ok (), out)

variable {W C D T : Type} [FlushWrite W] [DebugRecord]

/-!
## DBN
-/

namespace RecordEncoder

def encodeRecord (t : RecordType) (tsOut : Bool) (memory : List UInt8) :
    WriteM W Error Unit :=
  WriteM.writeAll (fun e =>
    Error.io e ("serializing " ++ DebugRecord.record t tsOut memory)) memory

def flush : WriteM W Error Unit :=
  WriteM.calling (fun e => Error.io e "flushing output") FlushWrite.flush

end RecordEncoder

namespace DbnEncoder

/-- The encoder has only its record encoder, which has only its writer. -/
structure Encoder (W : Type) where
  writer : W

/-- A call of the record encoder. -/
def recordEncoder (call : WriteM W Error Unit) :
    WriteM (Encoder W) Error Unit :=
  fun self => ((call self.writer).1, ⟨(call self.writer).2⟩)

instance : EncodeRecordRef (Encoder W) where
  encodeRecord t tsOut memory :=
    recordEncoder (RecordEncoder.encodeRecord t tsOut memory)
  encodeRecordRef record :=
    recordEncoder
      (RecordEncoder.encodeRecordRef DebugRecord.recordRef record)
  encodeRecordRefTsOut _ record :=
    recordEncoder
      (RecordEncoder.encodeRecordRef DebugRecord.recordRef record)
  flush := recordEncoder RecordEncoder.flush

instance : EncodeDbn (Encoder W) where

end DbnEncoder

/-!
## JSON
-/

/-- The JSON writer, with and without pretty print. -/
class JsonWriter where
  json : Bool -> Json.Doc -> Json.Text

namespace JsonEncoder

structure Encoder (W : Type) where
  writer : W
  buf : Json.Text
  shouldPrettyPrint : Bool
  usePrettyPx : Bool
  usePrettyTs : Bool

def Encoder.new (writer : W)
    (shouldPrettyPrint usePrettyPx usePrettyTs : Bool) : Encoder W where
  writer := writer
  buf := []
  shouldPrettyPrint := shouldPrettyPrint
  usePrettyPx := usePrettyPx
  usePrettyTs := usePrettyTs

/-- Writes the buffer, which is cleared in any case. -/
def writeBuf (handleErr : IoErrorKind -> Error) :
    WriteM (Encoder W) Error Unit :=
  fun self =>
    let out := (WriteM.writeAll handleErr self.buf : WriteM W Error Unit)
      self.writer
    (out.1, { self with writer := out.2, buf := [] })

def flush : WriteM (Encoder W) Error Unit :=
  fun self =>
    let out := (WriteM.calling (fun e => Error.io e "flushing output")
      FlushWrite.flush : WriteM W Error Unit) self.writer
    (out.1, { self with writer := out.2 })

variable [TimeFormat] [JsonWriter]

/-- Writes to the buffer, but not the writer. -/
def encodeToBuf (t : RecordType) (tsOut : Bool) (memory : List UInt8)
    (self : Encoder W) : Encoder W :=
  { self with
    buf := JsonSerialize.toJsonInBuf self.usePrettyPx self.usePrettyTs
      JsonWriter.json self.buf t tsOut memory self.shouldPrettyPrint }

def encodeRecord (t : RecordType) (tsOut : Bool) (memory : List UInt8) :
    WriteM (Encoder W) Error Unit :=
  fun self =>
    writeBuf (fun e =>
      Error.io e ("writing record " ++ DebugRecord.record t tsOut memory))
      (encodeToBuf t tsOut memory self)

instance : EncodeRecordRef (Encoder W) where
  encodeRecord := encodeRecord
  encodeRecordRef := rtypeDispatch encodeRecord false
  encodeRecordRefTsOut := rtypeDispatch encodeRecord
  flush := flush

instance : EncodeDbn (Encoder W) where

/-- `to_json_with_sym_in_buf`. -/
def toJsonWithSymInBuf (prettyPx prettyTs : Bool) (buf : Json.Text)
    (t : RecordType) (tsOut : Bool) (memory : List UInt8)
    (shouldPrettyPrint : Bool) (symbol : Option (List UInt8)) : Json.Text :=
  let members := JsonSerialize.toJson prettyPx prettyTs t tsOut memory ++
    [("symbol", (symbol.map Json.Doc.string).getD .null)]
  buf ++ JsonWriter.json shouldPrettyPrint
    (.object (Json.Members.ofList members)) ++ [0x0A]

def encodeRecordWithSym (symbol : Option (List UInt8)) (t : RecordType)
    (tsOut : Bool) (memory : List UInt8) : WriteM (Encoder W) Error Unit :=
  fun self =>
    writeBuf (fun e =>
      Error.io e ("writing record " ++ DebugRecord.record t tsOut memory ++
        " with symbol " ++ DebugRecord.symbol symbol))
      { self with
        buf := toJsonWithSymInBuf self.usePrettyPx self.usePrettyTs self.buf t
          tsOut memory self.shouldPrettyPrint symbol }

end JsonEncoder

/-!
## CSV
-/

namespace CsvEncoder

variable [CsvWriter W C] [TimeFormat]

/-- Encodes a record and its symbol, which may have to be the empty one. -/
def encodeRecordWithSym (symbol : Option (List UInt8)) (t : RecordType)
    (tsOut : Bool) (memory : List UInt8) : Call C Unit :=
  fun self =>
    let encodeRow : Call C Unit :=
      writeRow (recordErr (DebugRecord.record t tsOut memory))
        (t.serializeTo self.usePrettyPx self.usePrettyTs tsOut memory ++
          [symbol.getD []])
    if !self.hasWrittenHeader then
      (do encodeHeader t tsOut true; encodeRow) self
    else encodeRow self

instance : EncodeRecordRef (Encoder C) where
  encodeRecord := encodeRecord DebugRecord.record
  encodeRecordRef := encodeRecordRefTsOut DebugRecord.record false
  encodeRecordRefTsOut := encodeRecordRefTsOut DebugRecord.record
  flush := flush

instance : EncodeDbn (Encoder C) where
  encodeRecords t tsOut records := do
    forEach (encodeRecord DebugRecord.record t tsOut) records
    flush
  encodeStream next rounds t tsOut stream :=
    LoopM.andThen
      (whileSome next (encodeRecord DebugRecord.record t tsOut) rounds stream)
      flush
  encodeDecoded decode rounds metadata decoder :=
    encodeDecoded DebugRecord.record decode rounds metadata decoder
  encodeDecodedWithLimit decode rounds metadata decoder limit :=
    encodeDecodedWithLimit DebugRecord.record decode rounds metadata decoder
      limit

end CsvEncoder

/-!
## The encoder with an encoding set at runtime
-/

/-- `W` is the writer and `C` the CSV writer over it. -/
inductive DynEncoderImpl (W C : Type) where
  | dbn (encoder : DbnEncoder.Encoder W)
  | csv (encoder : CsvEncoder.Encoder C)
  | json (encoder : JsonEncoder.Encoder W)

structure DynEncoder (W C : Type) where
  impl : DynEncoderImpl W C

variable [CsvWriter W C] [TimeFormat] [JsonWriter]

open EncodeRecordRef EncodeDbn LoopM

namespace DynEncoderImpl

instance : EncodeRecordRef (DynEncoderImpl W C) where
  encodeRecord t tsOut memory
    | dbn enc => within dbn (encodeRecord t tsOut memory enc)
    | csv enc => within csv (encodeRecord t tsOut memory enc)
    | json enc => within json (encodeRecord t tsOut memory enc)
  encodeRecordRef record
    | dbn enc => within dbn (encodeRecordRef record enc)
    | csv enc => within csv (encodeRecordRef record enc)
    | json enc => within json (encodeRecordRef record enc)
  encodeRecordRefTsOut tsOut record
    | dbn enc => within dbn (encodeRecordRefTsOut tsOut record enc)
    | csv enc => within csv (encodeRecordRefTsOut tsOut record enc)
    | json enc => within json (encodeRecordRefTsOut tsOut record enc)
  flush
    | dbn enc => within dbn (flush enc)
    | csv enc => within csv (flush enc)
    | json enc => within json (flush enc)

/-- The operation with a limit is not forwarded. -/
instance : EncodeDbn (DynEncoderImpl W C) where
  encodeRecords t tsOut records
    | dbn enc => within dbn (encodeRecords t tsOut records enc)
    | csv enc => within csv (encodeRecords t tsOut records enc)
    | json enc => within json (encodeRecords t tsOut records enc)
  encodeStream next rounds t tsOut stream
    | dbn enc => wrapped dbn (encodeStream next rounds t tsOut stream enc)
    | csv enc => wrapped csv (encodeStream next rounds t tsOut stream enc)
    | json enc => wrapped json (encodeStream next rounds t tsOut stream enc)
  encodeDecoded decode rounds metadata decoder
    | dbn enc =>
        wrapped dbn (encodeDecoded decode rounds metadata decoder enc)
    | csv enc =>
        wrapped csv (encodeDecoded decode rounds metadata decoder enc)
    | json enc =>
        wrapped json (encodeDecoded decode rounds metadata decoder enc)

/-- Encodes a record with its symbol, which DBN does not support. -/
def encodeRecordWithSym (symbol : Option (List UInt8)) (t : RecordType)
    (tsOut : Bool) (memory : List UInt8) :
    WriteM (DynEncoderImpl W C) Error Unit
  | dbn enc => within dbn (encodeRecord t tsOut memory enc)
  | csv enc =>
      within csv (CsvEncoder.encodeRecordWithSym symbol t tsOut memory enc)
  | json enc =>
      within json (JsonEncoder.encodeRecordWithSym symbol t tsOut memory enc)

end DynEncoderImpl

namespace DynEncoder

/-- A call of the field. -/
def forward (call : WriteM (DynEncoderImpl W C) Error Unit) :
    WriteM (DynEncoder W C) Error Unit :=
  fun self => within mk (call self.impl)

instance : EncodeRecordRef (DynEncoder W C) where
  encodeRecord t tsOut memory := forward (encodeRecord t tsOut memory)
  encodeRecordRef record := forward (encodeRecordRef record)
  encodeRecordRefTsOut tsOut record :=
    forward (encodeRecordRefTsOut tsOut record)
  flush := forward flush

/-- The operation with a limit is not forwarded here either. -/
instance : EncodeDbn (DynEncoder W C) where
  encodeRecords t tsOut records := forward (encodeRecords t tsOut records)
  encodeStream next rounds t tsOut stream self :=
    wrapped mk (encodeStream next rounds t tsOut stream self.impl)
  encodeDecoded decode rounds metadata decoder self :=
    wrapped mk (encodeDecoded decode rounds metadata decoder self.impl)

def encodeHeader (t : RecordType) (tsOut withSymbol : Bool) :
    WriteM (DynEncoder W C) Error Unit
  | ⟨.csv enc⟩ =>
      within (fun enc => ⟨.csv enc⟩)
        (CsvEncoder.encodeHeader t tsOut withSymbol enc)
  | self => (Res.ok (), self)

def encodeHeaderForSchema (version : UInt8) (schema : Schema)
    (tsOut withSymbol : Bool) : WriteM (DynEncoder W C) Error Unit
  | ⟨.csv enc⟩ =>
      within (fun enc => ⟨.csv enc⟩)
        (CsvEncoder.encodeHeaderForSchema version schema tsOut withSymbol enc)
  | self => (Res.ok (), self)

def encodeRecordWithSym (symbol : Option (List UInt8)) (t : RecordType)
    (tsOut : Bool) (memory : List UInt8) :
    WriteM (DynEncoder W C) Error Unit :=
  forward (DynEncoderImpl.encodeRecordWithSym symbol t tsOut memory)

end DynEncoder

/-- The writer is the one that may compress. -/
structure DynEncoderBuilder (W T : Type) where
  writer : W
  encoding : Encoding
  metadata : Metadata T
  writeHeader : Bool
  shouldPrettyPrint : Bool
  usePrettyPx : Bool
  usePrettyTs : Bool
  withSymbol : Bool
  delimiter : UInt8

namespace DynEncoderBuilder

def new (writer : W) (encoding : Encoding) (metadata : Metadata T) :
    DynEncoderBuilder W T where
  writer := writer
  encoding := encoding
  metadata := metadata
  writeHeader := true
  shouldPrettyPrint := false
  usePrettyPx := false
  usePrettyTs := false
  withSymbol := false
  delimiter := 0x2C

/-- The settings of the CSV encoder. -/
def csvBuilder (self : DynEncoderBuilder W T) :
    CsvEncoder.EncoderBuilder W where
  writer := self.writer
  usePrettyPx := self.usePrettyPx
  usePrettyTs := self.usePrettyTs
  writeHeader := self.writeHeader
  version := UInt8.ofNat self.metadata.version
  schema := self.metadata.schema
  tsOut := self.metadata.tsOut
  withSymbol := self.withSymbol
  delimiter := self.delimiter

def build [CalendarDate T] (self : DynEncoderBuilder W T) :
    Result (DynEncoder W C) :=
  match self.encoding with
  | .dbn =>
      let out := (MetadataEncoder.encode self.metadata : WriteM W Error Unit)
        self.writer
      out.1.bind (fun _ => Res.ok ⟨.dbn ⟨out.2⟩⟩)
  | .csv =>
      let out : Result Unit × CsvEncoder.Encoder C := self.csvBuilder.build
      out.1.bind (fun _ => Res.ok ⟨.csv out.2⟩)
  | .json =>
      Res.ok ⟨.json (JsonEncoder.Encoder.new self.writer
        self.shouldPrettyPrint self.usePrettyPx self.usePrettyTs)⟩

end DynEncoderBuilder

/-!
## Operations
-/

/-- The operations of `EncodeDbn`, with all that they are called with. -/
inductive Operation where
  | encodeRecords (t : RecordType) (tsOut : Bool)
      (records : List (List UInt8))
  | encodeStream {S : Type} (next : Pull Error S (List UInt8)) (rounds : Nat)
      (t : RecordType) (tsOut : Bool) (stream : S)
  | encodeDecoded {D T : Type} (decode : Pull Error D RecordRef)
      (rounds : Nat) (metadata : Metadata T) (decoder : D)
  | encodeDecodedWithLimit {D T : Type} (decode : Pull Error D RecordRef)
      (rounds : Nat) (metadata : Metadata T) (decoder : D)
      (limit : NonZeroU64)

def Operation.run {E : Type} [EncodeDbn E] : Operation -> LoopM E Error
  | encodeRecords t tsOut records =>
      fun self => .ret (EncodeDbn.encodeRecords t tsOut records self)
  | encodeStream next rounds t tsOut stream =>
      EncodeDbn.encodeStream next rounds t tsOut stream
  | encodeDecoded decode rounds metadata decoder =>
      EncodeDbn.encodeDecoded decode rounds metadata decoder
  | encodeDecodedWithLimit decode rounds metadata decoder limit =>
      EncodeDbn.encodeDecodedWithLimit decode rounds metadata decoder limit

end Dbn
