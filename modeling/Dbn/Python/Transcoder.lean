import Dbn.Decode.Process
import Dbn.Encode.EncodeDbn
import Dbn.Metadata.SymbolSpans

/-!
# The transcoder

`Transcoder` decodes a stream that is written to it in pieces and encodes what
it decodes in DBN, CSV or JSON.  It finds symbols in a timeseries map, or in a
map that it updates from the records of a live stream.
-/

namespace Dbn

open Lib
open Cli (Encoding)

namespace Lib.WriteM

variable {W W' ε ε' α : Type}

/-- `map_err`. -/
def mapErr (f : ε -> ε') (x : WriteM W ε α) : WriteM W ε' α :=
  fun w => ((x w).1.mapErr f, (x w).2)

/-- A call of a field. -/
def focus (get : W -> W') (set : W -> W' -> W) (x : WriteM W' ε α) :
    WriteM W ε α :=
  fun w => ((x (get w)).1, set w (x (get w)).2)

/-- `?` on a value that was computed before. -/
def ofResult (res : Res ε α) : WriteM W ε α :=
  fun w => (res, w)

end Lib.WriteM

open Lib.WriteM (mapErr focus ofResult)

/-- The errors that a caller from Python gets. -/
inductive PyErr where
  | value (msg : String)
  | runtime (msg : String)
  | dbn (e : Error)
  | io (e : IoErrorKind)

/-!
## Symbols
-/

namespace Transcoder

inductive SymbolMap (D : Type) [LinearOrder D] where
  | historical (map : TsSymbolMap D)
  | live (map : PitSymbolMap)

namespace SymbolMap

variable {D : Type} [LinearOrder D] [DayCalendar D]

def getForRec (self : SymbolMap D) (record : RecordRef) :
    Except Panic (Option Str) :=
  match self with
  | .historical map => map.getForRec record
  | .live map => Except.ok (map.getForRec record)

omit [DayCalendar D] in
def isEmpty (self : SymbolMap D) : Bool :=
  match self with
  | .historical map => map.entries.isEmpty
  | .live map => map.entries.isEmpty

/-- Updates a live map; an error is ignored. -/
def updateLive {ε : Type} (rec : RecordRef) : WriteM (SymbolMap D) ε Unit
  | .live map =>
      match PitSymbolMap.onRecord rec map with
      | (Res.panic p, map) => (Res.panic p, .live map)
      | (_, map) => (Res.ok (), .live map)
  | self => (Res.ok (), self)

instance : Inhabited (SymbolMap D) := ⟨.historical ∅⟩

/-- `metadata.symbol_map()`, whose loops never run out of rounds. -/
def ofMetadata (metadata : Metadata D) : Result (SymbolMap D) :=
  match (TsSymbolMap.fromMetadata metadata).run with
  | .ret (Except.ok map) => Res.ok (.historical map)
  | .ret (Except.error e) => Res.err e
  | .panic p => Res.panic p
  | .timeout => Res.panic .explicit

theorem ofMetadata_not_isPanic [LawfulDayCalendar D] (metadata : Metadata D) :
    ¬ (ofMetadata metadata).IsPanic := by
  have hadds := TsSymbolMap.adds_fromMetadata metadata
  unfold ofMetadata
  cases hspans : metadata.spans with
  | ok spans =>
      rw [hspans] at hadds
      rcases hadds with ⟨ts, hret, _⟩
      rw [hret]
      exact Res.ok_not_isPanic _
  | error e =>
      rw [hspans] at hadds
      unfold TsSymbolMap.Adds at hadds
      rw [hadds]
      exact Res.err_not_isPanic _

end SymbolMap

/-!
## State
-/

/-- What is encoded into, and how. -/
structure Target (W D : Type) [LinearOrder D] where
  output : W
  usePrettyPx : Bool
  usePrettyTs : Bool
  mapSymbols : Bool
  symbolMap : SymbolMap D
  schema : Option Schema

/-- `W` is the writer that may compress. -/
structure Inner (B W D : Type) [LinearOrder D] where
  fsm : DbnFsm B
  target : Target W D

variable {B W C D : Type} [Buffer B] [FlushWrite W] [DropCsvWriter W C]
  [DebugRecord] [TimeFormat] [JsonWriter] [CalendarDate D] [LinearOrder D]
  [DayCalendar D]

/-- `rtype_dispatch!(record, ts_out: ts_out, self.encode_record_with_sym(..))`. -/
def encodeRefTsOutWithSym {E : Type}
    (encodeRecordWithSym : Option (List UInt8) -> RecordType -> Bool ->
      List UInt8 -> WriteM E Error Unit)
    (tsOut : Bool) (symbol : Option Str) (record : RecordRef) :
    WriteM E Error Unit :=
  rtypeDispatch (encodeRecordWithSym (symbol.map Str.bytes)) tsOut record

namespace Target

/-- A call of `self.output`. -/
def onOutput {ε α : Type} : WriteM W ε α -> WriteM (Target W D) ε α :=
  focus output (fun self output => { self with output := output })

/-- A call of `self.symbol_map`. -/
def onSymbolMap {ε α : Type} :
    WriteM (SymbolMap D) ε α -> WriteM (Target W D) ε α :=
  focus symbolMap (fun self map => { self with symbolMap := map })

/-!
## Records
-/

def encodeDbn (rec : RecordRef) : WriteM (Target W D) Error Unit :=
  onOutput (RecordEncoder.encodeRecordRef DebugRecord.recordRef rec)

/-- The rest of `encode_csv`, with the encoder that it has built. -/
def encodeCsvWith (usePretty : Target W D) (tsOut : Bool) (rec : RecordRef) :
    WriteM (CsvEncoder.Encoder C × SymbolMap D) Error Unit := do
  if usePretty.mapSymbols then
    focus Prod.snd (fun s map => (s.1, map)) (SymbolMap.updateLive rec)
  let encoding := focus Prod.fst (fun s encoder => (encoder, s.2))
  -- filter by rtype based on metadata schema or schema parameter
  match HasRtype.rtype rec, usePretty.schema with
  | Except.error _, _ => pure ()
  | Except.ok _, none => WriteM.panic .unwrapNone
  | Except.ok rtype, some schema =>
      if rtype = RType.fromSchema schema then
        if usePretty.mapSymbols then
          fun s =>
            match s.2.getForRec rec with
            | Except.error p => (Res.panic p, s)
            | Except.ok symbol =>
                encoding (encodeRefTsOutWithSym
                  CsvEncoder.encodeRecordWithSym tsOut symbol rec) s
        else
          encoding (CsvEncoder.encodeRecordRefTsOut DebugRecord.record tsOut
            rec)
      else pure ()

def encodeCsv (C : Type) [DropCsvWriter W C] (tsOut : Bool)
    (rec : RecordRef) : WriteM (Target W D) Error Unit :=
  fun self =>
    let builder : CsvEncoder.EncoderBuilder W :=
      { CsvEncoder.EncoderBuilder.new self.output with
        usePrettyPx := self.usePrettyPx
        usePrettyTs := self.usePrettyTs
        writeHeader := false }
    let built : Result Unit × CsvEncoder.Encoder C := builder.build
    let out := (do
      ofResult built.1
      encodeCsvWith self tsOut rec) (built.2, self.symbolMap)
    -- the encoder goes out of scope
    (out.1,
      { self with
        output := DropCsvWriter.drop out.2.1.writer
        symbolMap := out.2.2 })

def encodeJson (tsOut : Bool) (rec : RecordRef) :
    WriteM (Target W D) Error Unit :=
  fun self =>
    let encoding (call : WriteM (JsonEncoder.Encoder W) Error Unit) :
        WriteM (Target W D) Error Unit :=
      focus (fun self => JsonEncoder.Encoder.new self.output false
          self.usePrettyPx self.usePrettyTs)
        (fun self encoder => { self with output := encoder.writer }) call
    if self.mapSymbols then
      (do
        onSymbolMap (SymbolMap.updateLive rec)
        fun self =>
          match self.symbolMap.getForRec rec with
          | Except.error p => (Res.panic p, self)
          | Except.ok symbol =>
              encoding (encodeRefTsOutWithSym JsonEncoder.encodeRecordWithSym
                tsOut symbol rec) self) self
    else
      encoding (EncodeRecordRef.encodeRecordRefTsOut tsOut rec) self

/-- What `encode` does with a record. -/
def encodeRecord (C : Type) [DropCsvWriter W C] (outputEnc : Encoding)
    (tsOut : Bool) (rec : RecordRef) : WriteM (Target W D) Error Unit :=
  match outputEnc with
  | .dbn => encodeDbn rec
  | .csv => encodeCsv C tsOut rec
  | .json => encodeJson tsOut rec

/-!
## Metadata and headers
-/

/-- The calls on the encoder that writes a header. -/
def encodeHeader (C : Type) [DropCsvWriter W C]
    (usePrettyPx usePrettyTs : Bool) (version : UInt8) (schema : Schema)
    (tsOut mapSymbols : Bool) : WriteM W Error Unit :=
  fun output =>
    let builder : CsvEncoder.EncoderBuilder W :=
      { CsvEncoder.EncoderBuilder.new output with
        usePrettyPx := usePrettyPx
        usePrettyTs := usePrettyTs }
    let built : Result Unit × CsvEncoder.Encoder C := builder.build
    let out := (do
      ofResult built.1
      CsvEncoder.encodeHeaderForSchema version schema tsOut mapSymbols)
      built.2
    (out.1, DropCsvWriter.drop out.2.writer)

def encodeHeaderIfCsv (C : Type) [DropCsvWriter W C] (outputEnc : Encoding)
    (usePrettyPx usePrettyTs tsOut mapSymbols : Bool)
    (upgradePolicy : VersionUpgradePolicy) (inputVersion : Option Nat)
    (schema : Option Schema) : WriteM W PyErr Unit :=
  match outputEnc with
  | .csv =>
      match inputVersion with
      | none =>
          WriteM.fail (.value
            "must specify input_version when has_metadata=False")
      | some inputVersion =>
          let outputVersion := upgradePolicy.outputVersion inputVersion
          match schema with
          | none =>
              WriteM.fail (.value ("A schema must be specified when " ++
                "transcoding mixed schema DBN to CSV"))
          | some schema =>
              mapErr .dbn (encodeHeader C usePrettyPx usePrettyTs
                (UInt8.ofNat outputVersion) schema tsOut mapSymbols)
  | _ => pure ()

/-- Sets the schema if it was not set. -/
def setSchema (schema : Option Schema) : WriteM (Target W D) PyErr Unit :=
  fun self =>
    (Res.ok (), { self with schema := self.schema.or schema })

/-- The symbol map after the metadata of a stream that is encoded as text. -/
def takeSymbols (metadata : Metadata D) : WriteM (Target W D) PyErr Unit :=
  fun self =>
    if self.mapSymbols then
      if metadata.schema.isSome then
        -- historical: only read the mappings of the metadata if no
        -- `symbol_map` was passed in
        if self.symbolMap.isEmpty then
          onSymbolMap (fun map =>
            match SymbolMap.ofMetadata metadata with
            | Res.ok map => (Res.ok (), map)
            | Res.err e => (Res.err (.dbn e), map)
            | Res.panic p => (Res.panic p, map)) self
        else (Res.ok (), self)
      -- live
      else (Res.ok (), { self with symbolMap := .live ∅ })
    else (Res.ok (), self)

/-- `encode_metadata`, with what it asks the machine for. -/
def encodeMetadata (C : Type) [DropCsvWriter W C] (outputEnc : Encoding)
    (tsOut : Bool) (upgradePolicy : VersionUpgradePolicy)
    (inputVersion : Option Nat) (metadata : Metadata D) :
    WriteM (Target W D) PyErr Unit := do
  setSchema metadata.schema
  match outputEnc with
  | .dbn => onOutput (mapErr .dbn (MetadataEncoder.encode metadata))
  | _ => takeSymbols metadata
  -- the metadata and the header are both decoded once at the beginning
  fun self =>
    onOutput (encodeHeaderIfCsv C outputEnc self.usePrettyPx self.usePrettyTs
      tsOut self.mapSymbols upgradePolicy inputVersion self.schema) self

end Target

/-!
## Calls
-/

namespace Inner

/-- A call of the other fields. -/
def onTarget {ε α : Type} (call : WriteM (Target W D) ε α) :
    WriteM (Inner B W D) ε α :=
  focus target (fun self target => { self with target := target }) call

def encodeMetadata (C : Type) [DropCsvWriter W C] (outputEnc : Encoding)
    (metadata : Metadata D) : WriteM (Inner B W D) PyErr Unit :=
  fun self =>
    onTarget (Target.encodeMetadata C outputEnc self.fsm.tsOut
      self.fsm.upgradePolicy self.fsm.inputDbnVersion metadata) self

/-- `encode_dbn`, `encode_csv` or `encode_json`. -/
def encodeRecord (C : Type) [DropCsvWriter W C] (outputEnc : Encoding) :
    WriteM (Inner B W D) PyErr Unit :=
  fun self =>
    match self.fsm.lastRecord with
    | none => (Res.panic .unwrapNone, self)
    | some rec =>
        onTarget (mapErr .dbn
          (Target.encodeRecord C outputEnc self.fsm.tsOut rec)) self

/-- A round of the loop of `encode`. -/
def encodeRound (C : Type) [DropCsvWriter W C] (outputEnc : Encoding)
    (self : Inner B W D) : Outcome (Turn (Inner B W D) PyErr) :=
  match self.fsm.process (D := D) with
  | .timeout => .timeout
  | .panic p => .panic p
  | .ret (.readMore _, fsm) => .ret (.done (Res.ok ()) { self with fsm := fsm })
  | .ret (.err e, fsm) =>
      .ret (.done (Res.err (.dbn e)) { self with fsm := fsm })
  | .ret (.metadata metadata, fsm) =>
      .ret (.after (encodeMetadata C outputEnc metadata
        { self with fsm := fsm }))
  | .ret (.record (), fsm) =>
      .ret (.after (encodeRecord C outputEnc { self with fsm := fsm }))

/-- Every round but the last consumes a byte. -/
def encode (C : Type) [DropCsvWriter W C] (outputEnc : Encoding) :
    LoopM (Inner B W D) PyErr :=
  fun self => pump (encodeRound C outputEnc) (self.fsm.data.length + 1) self

def write (C : Type) [DropCsvWriter W C] (outputEnc : Encoding)
    (bytes : List UInt8) : LoopM (Inner B W D) PyErr :=
  fun self => encode C outputEnc { self with fsm := self.fsm.writeAll bytes }

def flush (C : Type) [DropCsvWriter W C] (outputEnc : Encoding) :
    LoopM (Inner B W D) PyErr :=
  LoopM.andThen (encode C outputEnc)
    (onTarget (Target.onOutput (WriteM.calling .io FlushWrite.flush)))

def buffer (self : Inner B W D) : List UInt8 :=
  self.fsm.data

/-- The settings of a new transcoder. -/
structure Settings (D : Type) [LinearOrder D] where
  prettyPx : Bool
  prettyTs : Bool
  mapSymbols : Option Bool
  hasMetadata : Bool
  tsOut : Bool
  symbolMap : Option (TsSymbolMap D)
  schema : Option Schema
  inputVersion : Option Nat
  upgradePolicy : VersionUpgradePolicy

/-- The builder of the machine. -/
def Settings.fsmBuilder (settings : Settings D) : Result DbnFsmBuilder := do
  let builder : DbnFsmBuilder :=
    { (default : DbnFsmBuilder) with
      skipMetadata := !settings.hasMetadata }
  let builder ← builder.withInputDbnVersion settings.inputVersion
  Res.ok
    { builder with
      upgradePolicy := settings.upgradePolicy
      tsOut := settings.tsOut }

/-- The fields besides the machine, before a header is written. -/
def Settings.target (settings : Settings D) (output : W) : Target W D where
  output := output
  usePrettyPx := settings.prettyPx
  usePrettyTs := settings.prettyTs
  mapSymbols := settings.mapSymbols.getD true
  symbolMap := (settings.symbolMap.map SymbolMap.historical).getD default
  schema := settings.schema

def new (C : Type) [DropCsvWriter W C] (outputEnc : Encoding) (output : W)
    (settings : Settings D) : Res PyErr (Inner B W D) :=
  if outputEnc = .dbn ∧ settings.mapSymbols.getD false then
    Res.err (.value "map_symbols=True is incompatible with DBN encoding")
  else do
    let builder ← settings.fsmBuilder.mapErr .dbn
    let fsm ← (builder.build : Result (DbnFsm B)).mapErr .dbn
    let target := settings.target output
    if !settings.hasMetadata then
      -- with metadata the header is encoded when the metadata is processed
      let out := Target.onOutput (Target.encodeHeaderIfCsv C outputEnc
        settings.prettyPx settings.prettyTs settings.tsOut target.mapSymbols
        settings.upgradePolicy settings.inputVersion settings.schema) target
      out.1.bind (fun _ => Res.ok ⟨fsm, out.2⟩)
    else Res.ok ⟨fsm, target⟩

end Inner
end Transcoder
end Dbn
