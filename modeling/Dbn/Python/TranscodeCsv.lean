import Dbn.Encode.CsvRows
import Dbn.Python.TranscodeText

/-!
# Transcoding to CSV

Each row is written by an encoder of its own, so that no row is refused.  The
header is written once, and each record of the schema becomes a row.
-/

namespace Dbn

open Lib
open CsvEncoder (rowsOf writeRow)

/-!
## One row
-/

namespace CsvEncoder

variable {V C : Type} [RowOutput V C] {self : Encoder C}

/-- The output that the writer of an encoder was made from. -/
def originOf (self : Encoder C) : V :=
  RowOutput.origin self.writer

theorem keeps_writing (mapErr : CsvError -> Error)
    {call : C -> Except CsvError Unit × C}
    (hcall : forall w, RowOutput.origin (call w).2 = RowOutput.origin w) :
    WriteM.Keeps (originOf : Encoder C -> V) (writing mapErr call) := by
  intro self
  have horigin := hcall self.writer
  unfold writing
  split
  · next w heq =>
      rw [heq] at horigin
      exact horigin
  · next e w heq =>
      rw [heq] at horigin
      exact horigin

theorem keeps_writeRow (mapErr : CsvError -> Error) (row : Row) :
    WriteM.Keeps (originOf : Encoder C -> V) (writeRow mapErr row) :=
  (WriteM.keeps_forEach (fun field => keeps_writing mapErr (fun w =>
    RowOutput.origin_writeField w field)) row).bind
      (fun _ => keeps_writing mapErr RowOutput.origin_endRecord)

/-- A new encoder writes any row. -/
theorem writeRow_new (mapErr : CsvError -> Error) (row : Row)
    (hnew : rowsOf self = Rows.empty) :
    exists w, writeRow mapErr row self =
        (Res.ok (), { self with writer := w }) ∧
      RowWriter.rows w = ⟨[row], []⟩ ∧
      RowOutput.origin w = RowOutput.origin self.writer := by
  have hclosed : (rowsOf self).row = [] := by
    rw [hnew]
    rfl
  rcases rowWritten_writeRow mapErr row hclosed with ⟨w, res, hret, hwritten⟩
  have horigin := keeps_writeRow mapErr row self
  rw [hret] at horigin
  cases hwritten with
  | ended fits rows =>
      rw [hnew] at rows
      exact ⟨w, hret, rows, horigin⟩
  | refused unfit rows =>
      rw [hnew] at unfit
      exact absurd (fun first hfirst => by cases hfirst) unfit

/-- The type whose header a schema has. -/
def headerType (version : UInt8) (schema : Schema) : RecordType :=
  if version < 3 ∧ schema = .definition then .versioned .instrumentDefV2
  else schema.dispatch

theorem encodeHeader_new (t : RecordType) (tsOut withSymbol : Bool)
    (hnew : rowsOf self = Rows.empty) :
    exists w, encodeHeader t tsOut withSymbol self =
        (Res.ok (), { self with writer := w, hasWrittenHeader := true }) ∧
      RowWriter.rows w = ⟨[headerRow t tsOut withSymbol], []⟩ ∧
      RowOutput.origin w = RowOutput.origin self.writer := by
  rcases writeRow_new Error.fromCsv (headerRow t tsOut withSymbol) hnew with
    ⟨w, hret, hrows, horigin⟩
  exact ⟨w, (WriteM.bind_of_ok hret).trans rfl, hrows, horigin⟩

theorem encodeHeaderForSchema_new (version : UInt8) (schema : Schema)
    (tsOut withSymbol : Bool) (hnew : rowsOf self = Rows.empty) :
    exists w, encodeHeaderForSchema version schema tsOut withSymbol self =
        (Res.ok (), { self with writer := w, hasWrittenHeader := true }) ∧
      RowWriter.rows w =
        ⟨[headerRow (headerType version schema) tsOut withSymbol], []⟩ ∧
      RowOutput.origin w = RowOutput.origin self.writer := by
  rcases encodeHeader_new (headerType version schema) tsOut withSymbol hnew
    with ⟨w, hret, hrows, horigin⟩
  refine ⟨w, ?_, hrows, horigin⟩
  unfold headerType at hret
  unfold encodeHeaderForSchema
  split
  · next hold =>
      rw [if_pos hold] at hret
      exact (WriteM.bind_of_ok hret).trans rfl
  · next hold =>
      rw [if_neg hold] at hret
      exact (WriteM.bind_of_ok hret).trans rfl

end CsvEncoder

namespace Transcoder

open Cli (Encoding)
open Lib.WriteM (mapErr focus ofResult)
open CsvEncoder (headerRow headerType)

variable {B V C D : Type} [FlushWrite V] [RowOutput V C] [DebugRecord]
  [TimeFormat] [JsonWriter] [LinearOrder D] [DayCalendar D]

/-!
## Rows of records
-/

/-- The row of a struct. -/
def csvStruct (usePrettyPx usePrettyTs tsOut : Bool)
    (column : Option (Option Str)) (t : RecordType) (memory : List UInt8) :
    Row :=
  t.serializeTo usePrettyPx usePrettyTs tsOut memory ++
    match column with
    | none => []
    | some symbol => [(symbol.map Str.bytes).getD []]

/-- The row of a record of the schema; others have none. -/
def csvRows (usePrettyPx usePrettyTs tsOut : Bool) (schema : Option Schema)
    (column : Option (Option Str)) (bytes : List UInt8) : List Row :=
  match HasRtype.rtype (⟨bytes⟩ : RecordRef), schema with
  | Except.ok rtype, some schema =>
      if rtype = RType.fromSchema schema then
        let t := rtype.dispatch (recordSize bytes)
        [csvStruct usePrettyPx usePrettyTs tsOut column t
          (bytes.take (t.size + tsOutLen tsOut))]
      else []
  | _, _ => []

def csvHeader (version : Nat) (tsOut mapSymbols : Bool)
    (schema : Option Schema) : List Row :=
  match schema with
  | none => []
  | some schema =>
      [headerRow (headerType (UInt8.ofNat version) schema) tsOut mapSymbols]

def csvTexts (version : Nat)
    (usePrettyPx usePrettyTs tsOut mapSymbols : Bool) : Texts Row where
  header := csvHeader version tsOut mapSymbols
  record := csvRows usePrettyPx usePrettyTs tsOut

/-- The call that encodes a struct, with a symbol or without. -/
def encodeCsvStruct (column : Option (Option Str)) :
    RecordType -> Bool -> List UInt8 -> CsvEncoder.Call C Unit :=
  match column with
  | none => CsvEncoder.encodeRecord DebugRecord.record
  | some symbol => CsvEncoder.encodeRecordWithSym (symbol.map Str.bytes)

omit [FlushWrite V] [JsonWriter] in
theorem encodeCsvStruct_new (column : Option (Option Str)) (t : RecordType)
    (tsOut : Bool) (memory : List UInt8) {self : CsvEncoder.Encoder C}
    (hnew : CsvEncoder.rowsOf self = Rows.empty)
    (hheader : self.hasWrittenHeader = true) :
    exists w, encodeCsvStruct column t tsOut memory self =
        (Res.ok (), { self with writer := w }) ∧
      RowWriter.rows w = ⟨[csvStruct self.usePrettyPx self.usePrettyTs tsOut
        column t memory], []⟩ ∧
      RowOutput.origin w = RowOutput.origin self.writer := by
  have hcall : exists mapErr, encodeCsvStruct column t tsOut memory self =
      writeRow mapErr (csvStruct self.usePrettyPx self.usePrettyTs tsOut
        column t memory) self := by
    cases column with
    | none =>
        unfold encodeCsvStruct CsvEncoder.encodeRecord csvStruct
        dsimp only
        rw [hheader, List.append_nil]
        exact ⟨_, rfl⟩
    | some symbol =>
        unfold encodeCsvStruct CsvEncoder.encodeRecordWithSym csvStruct
        dsimp only
        rw [hheader]
        exact ⟨_, rfl⟩
  rcases hcall with ⟨mapErr, hcall⟩
  rw [hcall]
  exact CsvEncoder.writeRow_new mapErr _ hnew

/-- The encoder of a record, before a row is written. -/
def newEncoder (C : Type) [RowOutput V C] (target : Target V D) :
    CsvEncoder.Encoder C where
  writer := CsvWriter.fromWriter 0x2C target.output
  hasWrittenHeader := true
  usePrettyPx := target.usePrettyPx
  usePrettyTs := target.usePrettyTs

/-- What is left when the encoder goes out of scope. -/
def dropped (target : Target V D)
    (out : Result Unit × CsvEncoder.Encoder C × SymbolMap D) :
    Result Unit × Target V D :=
  (out.1,
    { target with
      output := DropCsvWriter.drop out.2.1.writer
      symbolMap := out.2.2 })

omit [FlushWrite V] [JsonWriter] in
theorem encodeCsv_eq (tsOut : Bool) (rec : RecordRef) (target : Target V D) :
    Target.encodeCsv C tsOut rec target =
      dropped target (Target.encodeCsvWith target tsOut rec
        (newEncoder C target, target.symbolMap)) :=
  rfl

omit [FlushWrite V] [DebugRecord] [TimeFormat] [JsonWriter] [DayCalendar D] in
theorem rowsOf_newEncoder (target : Target V D) :
    CsvEncoder.rowsOf (newEncoder C target) = Rows.empty :=
  RowWriter.rows_fromWriter _ _

omit [FlushWrite V] [DebugRecord] [TimeFormat] [JsonWriter] [DayCalendar D] in
/-- The output gets what was written to the new encoder. -/
theorem received_drop_new {target : Target V D} {w : C} {ended : List Row}
    (hrows : RowWriter.rows w = ⟨ended, []⟩)
    (horigin : RowOutput.origin w =
      RowOutput.origin (newEncoder C target).writer) :
    RowOutput.received C (DropCsvWriter.drop w) =
      RowOutput.received C target.output ++ ended := by
  have hnew : RowOutput.origin (newEncoder C target).writer = target.output :=
    RowOutput.origin_fromWriter _ _
  have hclosed : (RowWriter.rows w).row = [] := by rw [hrows]
  refine (RowOutput.received_drop w hclosed).trans ?_
  rw [hrows, horigin, hnew]

omit [FlushWrite V] [JsonWriter] [DayCalendar D] in
/-- A record of the schema is one row of the new encoder. -/
theorem rtypeDispatch_csv {column : Option (Option Str)} {tsOut : Bool}
    {bytes : List UInt8} {target : Target V D} {rtype : RType}
    (hrtype : HasRtype.rtype (⟨bytes⟩ : RecordRef) = Except.ok rtype)
    {res : Result Unit} {encoder : CsvEncoder.Encoder C}
    (h : rtypeDispatch (encodeCsvStruct column) tsOut ⟨bytes⟩
      (newEncoder C target) = (res, encoder)) (hpanic : ¬ res.IsPanic) :
    RowOutput.received C (DropCsvWriter.drop encoder.writer) =
      RowOutput.received C target.output ++
        [csvStruct target.usePrettyPx target.usePrettyTs tsOut column
          (rtype.dispatch (recordSize bytes))
          (bytes.take ((rtype.dispatch (recordSize bytes)).size +
            tsOutLen tsOut))] := by
  rcases rtypeDispatch_cases h hpanic with
    ⟨e, herror, _⟩ | ⟨rtype', hrtype', hencode⟩
  · rw [hrtype] at herror
    cases herror
  rw [hrtype] at hrtype'
  cases hrtype'
  rcases encodeCsvStruct_new column (rtype.dispatch (recordSize bytes)) tsOut
    (bytes.take ((rtype.dispatch (recordSize bytes)).size + tsOutLen tsOut))
    (rowsOf_newEncoder (C := C) target) rfl with ⟨w, hret, hrows, horigin⟩
  rw [hret] at hencode
  cases hencode
  exact received_drop_new hrows horigin

/-- The row of a record of the schema, with the symbol that the map has. -/
def encodeWithColumn (mapSymbols tsOut : Bool) (rec : RecordRef) :
    WriteM (CsvEncoder.Encoder C × SymbolMap D) Error Unit :=
  fun s =>
    let encoding (column : Option (Option Str)) :=
      focus Prod.fst (fun s encoder => (encoder, s.2))
        (rtypeDispatch (encodeCsvStruct column) tsOut rec) s
    if mapSymbols then
      match s.2.getForRec rec with
      | Except.error p => (Res.panic p, s)
      | Except.ok symbol => encoding (some symbol)
    else encoding none

/-- `encode_csv` after the map was updated. -/
def encodeOfSchema (usePretty : Target V D) (tsOut : Bool) (rec : RecordRef) :
    WriteM (CsvEncoder.Encoder C × SymbolMap D) Error Unit :=
  match HasRtype.rtype rec, usePretty.schema with
  | Except.error _, _ => pure ()
  | Except.ok _, none => WriteM.panic .unwrapNone
  | Except.ok rtype, some schema =>
      if rtype = RType.fromSchema schema then
        encodeWithColumn usePretty.mapSymbols tsOut rec
      else pure ()

omit [FlushWrite V] [JsonWriter] in
theorem encodeCsvWith_eq (usePretty : Target V D) (tsOut : Bool)
    (rec : RecordRef) :
    (Target.encodeCsvWith usePretty tsOut rec :
      WriteM (CsvEncoder.Encoder C × SymbolMap D) Error Unit) =
      if usePretty.mapSymbols then
        focus Prod.snd (fun s map => (s.1, map)) (SymbolMap.updateLive rec) >>=
          fun _ => encodeOfSchema usePretty tsOut rec
      else encodeOfSchema usePretty tsOut rec := by
  unfold Target.encodeCsvWith encodeOfSchema encodeWithColumn
  cases usePretty.mapSymbols <;> rfl

omit [FlushWrite V] [JsonWriter] in
theorem encodeWithColumn_cases {tsOut : Bool} {bytes : List UInt8}
    {target : Target V D} {map : SymbolMap D} {rtype : RType}
    (hrtype : HasRtype.rtype (⟨bytes⟩ : RecordRef) = Except.ok rtype)
    {res : Result Unit} {out : CsvEncoder.Encoder C × SymbolMap D}
    (h : encodeWithColumn target.mapSymbols tsOut ⟨bytes⟩
      (newEncoder C target, map) = (res, out)) (hpanic : ¬ res.IsPanic) :
    out.2 = map ∧
      RowOutput.received C (DropCsvWriter.drop out.1.writer) =
        RowOutput.received C target.output ++
          [csvStruct target.usePrettyPx target.usePrettyTs tsOut
            (map.column target.mapSymbols bytes)
            (rtype.dispatch (recordSize bytes))
            (bytes.take ((rtype.dispatch (recordSize bytes)).size +
              tsOutLen tsOut))] := by
  have hencoding : forall column, focus Prod.fst
      (fun (s : CsvEncoder.Encoder C × SymbolMap D) encoder => (encoder, s.2))
      (rtypeDispatch (encodeCsvStruct column) tsOut ⟨bytes⟩)
      (newEncoder C target, map) = (res, out) ->
      out.2 = map ∧
      RowOutput.received C (DropCsvWriter.drop out.1.writer) =
        RowOutput.received C target.output ++
          [csvStruct target.usePrettyPx target.usePrettyTs tsOut column
            (rtype.dispatch (recordSize bytes))
            (bytes.take ((rtype.dispatch (recordSize bytes)).size +
              tsOutLen tsOut))] := by
    intro column hcall
    unfold focus at hcall
    cases hdispatch : rtypeDispatch (encodeCsvStruct column) tsOut ⟨bytes⟩
      (newEncoder C target) with
    | mk res' encoder =>
        rw [hdispatch] at hcall
        cases hcall
        exact ⟨rfl, rtypeDispatch_csv hrtype hdispatch hpanic⟩
  unfold encodeWithColumn at h
  unfold SymbolMap.column
  by_cases hmap : target.mapSymbols = true
  · rw [if_pos hmap] at h
    rw [if_pos hmap]
    cases hget : map.getForRec ⟨bytes⟩ with
    | error p =>
        rw [hget] at h
        cases h
        exact absurd (Res.panic_isPanic p) hpanic
    | ok symbol =>
        rw [hget] at h
        exact hencoding (some symbol) h
  · rw [if_neg hmap] at h
    rw [if_neg hmap]
    exact hencoding none h

omit [FlushWrite V] [JsonWriter] in
theorem encodeOfSchema_cases {tsOut : Bool} {bytes : List UInt8}
    {target : Target V D} {map : SymbolMap D} {res : Result Unit}
    {out : CsvEncoder.Encoder C × SymbolMap D}
    (h : encodeOfSchema target tsOut ⟨bytes⟩ (newEncoder C target, map) =
      (res, out)) (hpanic : ¬ res.IsPanic) :
    out.2 = map ∧
      RowOutput.received C (DropCsvWriter.drop out.1.writer) =
        RowOutput.received C target.output ++
          csvRows target.usePrettyPx target.usePrettyTs tsOut target.schema
            (map.column target.mapSymbols bytes) bytes := by
  have hempty : RowOutput.received C
      (DropCsvWriter.drop (newEncoder C target).writer) =
      RowOutput.received C target.output ++ [] :=
    received_drop_new (rowsOf_newEncoder target) rfl
  unfold encodeOfSchema at h
  unfold csvRows
  cases hrtype : HasRtype.rtype (⟨bytes⟩ : RecordRef) with
  | error e =>
      rw [hrtype] at h
      cases h
      exact ⟨rfl, hempty⟩
  | ok rtype =>
      rw [hrtype] at h
      cases hschema : target.schema with
      | none =>
          rw [hschema] at h
          cases h
          exact absurd (Res.panic_isPanic _) hpanic
      | some schema =>
          rw [hschema] at h
          dsimp only at h ⊢
          by_cases hsame : rtype = RType.fromSchema schema
          · rw [if_pos hsame] at h ⊢
            exact encodeWithColumn_cases hrtype h hpanic
          · rw [if_neg hsame] at h ⊢
            cases h
            exact ⟨rfl, hempty⟩

omit [FlushWrite V] [JsonWriter] in
theorem encodeCsv_view {usePrettyPx usePrettyTs mapSymbols tsOut : Bool}
    {version : Nat} {bytes : List UInt8} {target target' : Target V D}
    {res : Result Unit}
    (huses : Uses usePrettyPx usePrettyTs mapSymbols target)
    (h : Target.encodeCsv C tsOut ⟨bytes⟩ target = (res, target'))
    (hpanic : ¬ res.IsPanic) :
    Uses usePrettyPx usePrettyTs mapSymbols target' ∧
      viewOf (RowOutput.received C) target' =
        (viewOf (RowOutput.received C) target).step
          (csvTexts version usePrettyPx usePrettyTs tsOut mapSymbols)
          mapSymbols (.record bytes) := by
  cases huses with
  | mk hpx hts hmap =>
  subst hpx hts hmap
  rw [encodeCsv_eq] at h
  cases hout : Target.encodeCsvWith target tsOut ⟨bytes⟩
    (newEncoder C target, target.symbolMap) with
  | mk res' out =>
  rw [hout] at h
  cases h
  refine ⟨⟨rfl, rfl, rfl⟩, ?_⟩
  have hcases : out.2 = target.symbolMap.next target.mapSymbols bytes ∧
      RowOutput.received C (DropCsvWriter.drop out.1.writer) =
        RowOutput.received C target.output ++
          csvRows target.usePrettyPx target.usePrettyTs tsOut target.schema
            (SymbolMap.column target.mapSymbols
              (target.symbolMap.next target.mapSymbols bytes) bytes) bytes := by
    rw [encodeCsvWith_eq] at hout
    by_cases hmap : target.mapSymbols = true
    swap
    · rw [if_neg hmap] at hout
      have hnext : target.symbolMap.next target.mapSymbols bytes =
          target.symbolMap := if_neg hmap
      rw [hnext]
      exact encodeOfSchema_cases hout hpanic
    rw [if_pos hmap] at hout
    rcases WriteM.bind_cases hout with ⟨_, s₁, hupdate, hrest⟩ |
      ⟨e, hupdate, rfl⟩ | ⟨p, hupdate, rfl⟩
    · unfold focus at hupdate
      cases hlive : (SymbolMap.updateLive ⟨bytes⟩ target.symbolMap :
        Result Unit × SymbolMap D) with
      | mk res' map =>
          rw [hlive] at hupdate
          cases hupdate
          rcases updateLive_cases hlive (Res.ok_not_isPanic _) with ⟨_, rfl⟩
          rw [hmap]
          have hcases := encodeOfSchema_cases hrest hpanic
          rw [hmap] at hcases
          exact hcases
    · unfold focus at hupdate
      cases hlive : (SymbolMap.updateLive ⟨bytes⟩ target.symbolMap :
        Result Unit × SymbolMap D) with
      | mk res' map =>
          rw [hlive] at hupdate
          cases hupdate
          rcases updateLive_cases hlive (Res.err_not_isPanic e) with ⟨hok, _⟩
          cases hok
    · exact absurd (Res.panic_isPanic p) hpanic
  unfold viewOf View.step
  dsimp only
  rw [hcases.1, hcases.2]
  rfl

/-!
## Headers
-/

omit [FlushWrite V] [DebugRecord] [TimeFormat] [JsonWriter] [DayCalendar D]
  [LinearOrder D] in
theorem received_encodeHeader (usePrettyPx usePrettyTs : Bool)
    (version : UInt8) (schema : Schema) (tsOut mapSymbols : Bool)
    (output : V) :
    exists output', Target.encodeHeader C usePrettyPx usePrettyTs version
        schema tsOut mapSymbols output = (Res.ok (), output') ∧
      RowOutput.received C output' = RowOutput.received C output ++
        [headerRow (headerType version schema) tsOut mapSymbols] := by
  have hnew : CsvEncoder.rowsOf (⟨CsvWriter.fromWriter 0x2C output, false,
      usePrettyPx, usePrettyTs⟩ : CsvEncoder.Encoder C) = Rows.empty :=
    RowWriter.rows_fromWriter _ _
  have hsame : RowOutput.origin (CsvWriter.fromWriter 0x2C output : C) =
      output := RowOutput.origin_fromWriter _ _
  rcases CsvEncoder.encodeHeaderForSchema_new version schema tsOut mapSymbols
    hnew with ⟨w, hret, hrows, horigin⟩
  have hcall : Target.encodeHeader C usePrettyPx usePrettyTs version schema
      tsOut mapSymbols output =
      (fun out : Result Unit × CsvEncoder.Encoder C =>
        (out.1, DropCsvWriter.drop out.2.writer))
        (CsvEncoder.encodeHeaderForSchema version schema tsOut mapSymbols
          ⟨CsvWriter.fromWriter 0x2C output, false, usePrettyPx,
            usePrettyTs⟩) := rfl
  refine ⟨DropCsvWriter.drop w, ?_, ?_⟩
  · rw [hcall, hret]
  · have hclosed : (RowWriter.rows w).row = [] := by rw [hrows]
    refine (RowOutput.received_drop w hclosed).trans ?_
    rw [hrows, horigin]
    dsimp only
    rw [hsame]

omit [FlushWrite V] [DebugRecord] [TimeFormat] [JsonWriter] [DayCalendar D]
  [LinearOrder D] in
theorem received_encodeHeaderIfCsv {usePrettyPx usePrettyTs tsOut mapSymbols :
    Bool} {policy : VersionUpgradePolicy} {version : Nat}
    {schema : Option Schema} {output output' : V} {res : Res PyErr Unit}
    (h : Target.encodeHeaderIfCsv C .csv usePrettyPx usePrettyTs tsOut
      mapSymbols policy (some version) schema output = (res, output')) :
    RowOutput.received C output' = RowOutput.received C output ++
      csvHeader (policy.outputVersion version) tsOut mapSymbols schema := by
  cases schema with
  | none =>
      cases h
      exact (List.append_nil _).symm
  | some schema =>
      rcases received_encodeHeader (C := C) usePrettyPx usePrettyTs
        (UInt8.ofNat (policy.outputVersion version)) schema tsOut mapSymbols
        output with ⟨output'', hret, hreceived⟩
      have hcall : mapErr PyErr.dbn (Target.encodeHeader C usePrettyPx
          usePrettyTs (UInt8.ofNat (policy.outputVersion version)) schema
          tsOut mapSymbols) output = (res, output') := h
      unfold mapErr at hcall
      rw [hret] at hcall
      cases hcall
      exact hreceived

/-!
## Items
-/

variable [CalendarDate D] {policy : VersionUpgradePolicy}

/-- The texts of a stream. -/
def csvTextsOf (s : ValidStream D policy)
    (usePrettyPx usePrettyTs mapSymbols : Bool) : Texts Row :=
  csvTexts (policy.outputVersion s.version) usePrettyPx usePrettyTs s.tsOut
    mapSymbols

theorem act_csv_view (hflush : forall (output : V),
      RowOutput.received C (FlushWrite.flush output).2 =
        RowOutput.received C output)
    (s : ValidStream D policy) {usePrettyPx usePrettyTs mapSymbols : Bool}
    {item : Option (Item D)} {target target' : Target V D}
    {res : Res PyErr Unit} (h : act C .csv s item target = (res, target'))
    (hpanic : ¬ res.IsPanic)
    (huses : Uses usePrettyPx usePrettyTs mapSymbols target) :
    Uses usePrettyPx usePrettyTs mapSymbols target' ∧
      viewOf (RowOutput.received C) target' =
        (viewOf (RowOutput.received C) target).stepOption
          (csvTextsOf s usePrettyPx usePrettyTs mapSymbols) mapSymbols
          item := by
  cases item with
  | none =>
      have hcall : (Target.onOutput (WriteM.calling PyErr.io
          FlushWrite.flush) : WriteM (Target V D) PyErr Unit) target =
          (res, target') := h
      have hsame := hflush target.output
      unfold Target.onOutput focus WriteM.calling at hcall
      cases hout : FlushWrite.flush target.output with
      | mk out output' =>
          rw [hout] at hcall hsame
          have huses' : Uses usePrettyPx usePrettyTs mapSymbols
              { target with output := output' } :=
            ⟨huses.usePrettyPx, huses.usePrettyTs, huses.mapSymbols⟩
          have hview : viewOf (RowOutput.received C)
              { target with output := output' } =
              viewOf (RowOutput.received C) target := by
            unfold viewOf
            dsimp only
            rw [← hsame]
          cases out with
          | ok u =>
              cases hcall
              exact ⟨huses', hview⟩
          | error e =>
              cases hcall
              exact ⟨huses', hview⟩
  | some item =>
  cases item with
  | record bytes =>
      have hcall : mapErr PyErr.dbn (Target.encodeCsv C s.tsOut ⟨bytes⟩)
          target = (res, target') := h
      unfold mapErr at hcall
      cases hout : Target.encodeCsv C s.tsOut ⟨bytes⟩ target with
      | mk res' target'' =>
          rw [hout] at hcall
          cases hcall
          exact encodeCsv_view huses hout
            (fun hp => hpanic (Res.mapErr_isPanic.mpr hp))
  | metadata m =>
      cases huses with
      | mk hpx hts hmap =>
      subst hpx hts hmap
      have hcall : Target.encodeMetadata C .csv s.tsOut policy
          (some s.version) m target = (res, target') := h
      unfold View.stepOption View.step viewOf
      dsimp only [Option.elim]
      rcases encodeMetadata_cases (by decide) hcall hpanic with
        ⟨map, hmap, hheader⟩ | ⟨e, hmap, rfl⟩
      · rw [hmap]
        dsimp only
        unfold Target.onOutput focus at hheader
        dsimp only at hheader
        cases hout : Target.encodeHeaderIfCsv C .csv target.usePrettyPx
          target.usePrettyTs s.tsOut target.mapSymbols policy
          (some s.version) (target.schema.or m.schema) target.output with
        | mk res' output' =>
            rw [hout] at hheader
            cases hheader
            refine ⟨⟨rfl, rfl, rfl⟩, ?_⟩
            dsimp only
            rw [received_encodeHeaderIfCsv hout]
            rfl
      · refine ⟨⟨rfl, rfl, rfl⟩, ?_⟩
        rw [hmap]

/-!
## The rows of a stream
-/

variable [Buffer B] [LawfulBuffer B] [LawfulCalendarDate D]

/-- The map after the metadata, if the caller gave one or not. -/
def firstMap (settings : Inner.Settings D)
    (s : ValidStream D settings.upgradePolicy) : Result (SymbolMap D) :=
  let given := (settings.symbolMap.map SymbolMap.historical).getD default
  match s.metadata with
  | none => Res.ok given
  | some m =>
      symbolsAfter (settings.mapSymbols.getD true) given
        (m.upgrade settings.upgradePolicy)

omit [FlushWrite V] [DebugRecord] [TimeFormat] [JsonWriter] [DayCalendar D]
  [LawfulBuffer B] [LawfulCalendarDate D] in
/-- A new transcoder has written a header if there is no metadata. -/
theorem seen_new {output : V} {settings : Inner.Settings D}
    {self : Inner B V D}
    (hnew : Inner.new C .csv output settings = Res.ok self)
    {s : ValidStream D settings.upgradePolicy}
    (hdescribes : Describes settings s) :
    exists output', self.target = settings.target output' ∧
      RowOutput.received C output' = RowOutput.received C output ++
        if s.metadata.isSome then [] else
          csvHeader (settings.upgradePolicy.outputVersion s.version) s.tsOut
            (settings.mapSymbols.getD true) settings.schema := by
  unfold Inner.new at hnew
  split at hnew
  · cases hnew
  rcases Res.bind_eq_ok.mp hnew with ⟨b, _, hnew⟩
  rcases Res.bind_eq_ok.mp hnew with ⟨fsm, _, hnew⟩
  dsimp only at hnew
  rw [hdescribes.hasMetadata] at hnew
  cases hmetadata : s.metadata with
  | some m =>
      rw [hmetadata] at hnew
      cases hnew
      exact ⟨output, rfl, (List.append_nil _).symm⟩
  | none =>
      rcases hdescribes.fragment hmetadata with ⟨hversion, hts⟩
      rw [hmetadata, hversion, hts] at hnew
      rcases Res.bind_eq_ok.mp hnew with ⟨_, hheader, heq⟩
      cases heq
      refine ⟨(Target.encodeHeaderIfCsv C .csv settings.prettyPx
        settings.prettyTs s.tsOut (settings.mapSymbols.getD true)
        settings.upgradePolicy (some s.version) settings.schema output).2,
        rfl, ?_⟩
      exact received_encodeHeaderIfCsv rfl

/--
A stream that is transcoded to CSV, with a symbol map that can be built,
written in any pieces and flushed anywhere: every call returns, and unless one
panics the output receives nothing before the metadata is complete, and then
one header and a row for each record that was tried and has the schema's record
type, in order.  With symbols each row ends with the one that the map has for
its record.  No complete record is left after a call that succeeds.
-/
theorem csv_output (hdebug : ShowsRecord)
    (hflush : forall (output : V),
      RowOutput.received C (FlushWrite.flush output).2 =
        RowOutput.received C output) (output : V)
    {settings : Inner.Settings D} {self : Inner B V D}
    (hnew : Inner.new C .csv output settings = Res.ok self)
    {s : ValidStream D settings.upgradePolicy}
    (hdescribes : Describes settings s) {schema : Schema}
    (hschema : settings.schema.or (s.metadata.bind Metadata.schema) =
      some schema) {map : SymbolMap D} (hmap : firstMap settings s = Res.ok map)
    (hmax : s.bytes.length ≤ isizeMax) (calls : List Call)
    (hcalls : calls.flatMap Call.bytes <+: s.bytes) :
    exists results self', Call.runAll C .csv calls self =
        .ret (results, self') ∧
      ((forall res, res ∈ results -> ¬ res.IsPanic) ->
        (s.metadata.isSome ∧
          RowOutput.received C self'.target.output =
            RowOutput.received C output ∧
          (results.getLast?.getD (Res.ok ()) = Res.ok () ->
            s.complete (calls.flatMap Call.bytes).length = 0)) ∨
        exists j, RowOutput.received C self'.target.output =
            RowOutput.received C output ++
            [headerRow (headerType (UInt8.ofNat
              (settings.upgradePolicy.outputVersion s.version)) schema)
              s.tsOut (settings.mapSymbols.getD true)] ++
            (withSymbols (settings.mapSymbols.getD true) map
              ((s.records.take j).map s.image)).flatMap (fun record =>
                csvRows settings.prettyPx settings.prettyTs s.tsOut
                  (some schema) record.1 record.2) ∧
          (results.getLast?.getD (Res.ok ()) = Res.ok () ->
            j = ValidStream.completeRecords s.records
              ((calls.flatMap Call.bytes).length - s.head.length))) := by
  rcases runAll_new hdebug hnew hdescribes hmax calls hcalls with
    ⟨results, self', hrun, _, hall⟩
  refine ⟨results, self', hrun, ?_⟩
  intro hpanics
  rcases hall hpanics with ⟨_, k, hencoded, hlast⟩
  rcases hencoded.tried with ⟨trace, htrace, htried⟩
  rcases seen_new hnew hdescribes with ⟨output', htarget, hreceived⟩
  have huses : Uses settings.prettyPx settings.prettyTs
      (settings.mapSymbols.getD true) self.target := by
    rw [htarget]
    exact ⟨rfl, rfl, rfl⟩
  have hview := (htried.foldl_view (fun item _ target res target' h hpanic
    hP => act_csv_view hflush s h hpanic hP) huses).2
  rw [View.foldl_stepOption, htrace] at hview
  have hseen : (viewOf (RowOutput.received C) self.target).seen =
      RowOutput.received C output' := by
    rw [htarget]
    rfl
  have hsymbols : View.symbolsOf s (settings.mapSymbols.getD true)
      self.target.symbolMap = Res.ok map := by
    rw [htarget]
    exact hmap
  have hschemaOf : (viewOf (RowOutput.received C) self.target).schemaOf s =
      some schema := by
    rw [← hschema, htarget]
    rfl
  have hrows : forall j, k = s.lead + j ->
      RowOutput.received C self'.target.output =
        RowOutput.received C output ++
        [headerRow (headerType (UInt8.ofNat
          (settings.upgradePolicy.outputVersion s.version)) schema)
          s.tsOut (settings.mapSymbols.getD true)] ++
        (withSymbols (settings.mapSymbols.getD true) map
          ((s.records.take j).map s.image)).flatMap (fun record =>
            csvRows settings.prettyPx settings.prettyTs s.tsOut
              (some schema) record.1 record.2) := by
    intro j hk
    have hitems := View.foldl_items s (csvTextsOf s settings.prettyPx
      settings.prettyTs (settings.mapSymbols.getD true))
      (settings.mapSymbols.getD true)
      (viewOf (RowOutput.received C) self.target) hsymbols j
    rw [← hk, ← hview, hschemaOf, hseen, hreceived] at hitems
    refine hitems.trans ?_
    congr 1
    cases hmetadata : s.metadata with
    | none =>
        rw [hmetadata, Option.bind_none, Option.or_none] at hschema
        rw [hschema]
        exact List.append_nil _
    | some m =>
        show RowOutput.received C output ++ [] ++ _ = _
        rw [List.append_nil]
        rfl
  rcases Nat.lt_or_ge k s.lead with hlt | hge
  · left
    have hone : s.lead ≤ 1 := by
      unfold ValidStream.lead
      exact Option.length_toList_le
    have hk : k = 0 := by omega
    have hsome : s.metadata.isSome = true := by
      unfold ValidStream.lead at hlt
      cases hmetadata : s.metadata with
      | none =>
          rw [hmetadata] at hlt
          cases hlt
      | some m => rfl
    refine ⟨hsome, ?_, fun hok => by rw [← hlast hok, hk]⟩
    rw [hk, List.take_zero, List.foldl_nil] at hview
    have hsame := congrArg View.seen hview
    rw [hseen, hreceived, if_pos hsome, List.append_nil] at hsame
    exact hsame
  · right
    refine ⟨k - s.lead, hrows _ (by omega), ?_⟩
    intro hok
    rw [hlast hok, s.complete_sub_lead]

end Transcoder

namespace Transcoder

section Example

open Sample
open CsvEncoder (headerRow headerType)

/-- An output of rows. -/
local instance : FlushWrite (List Row) where
  writeAll out _ := (Except.ok (), out)
  flush out := (Except.ok (), out)

local instance : RowOutput (List Row) (List Row × Rows) where
  fromWriter _ out := (out, Rows.empty)
  writeField w field := (Except.ok (), (w.1, w.2.addFields [field]))
  endRecord w :=
    if w.2.Fits w.2.row then (Except.ok (), (w.1, w.2.endRow))
    else (Except.error (.other ""), w)
  flush w := (Except.ok (), w)
  rows w := w.2
  rows_fromWriter _ _ := rfl
  writeField_eq _ _ := ⟨_, rfl, rfl⟩
  endRecord_of_fits _ h := ⟨_, if_pos h, rfl⟩
  endRecord_of_not_fits _ h := ⟨_, _, if_neg h, rfl⟩
  flush_eq _ := ⟨_, rfl, rfl⟩
  drop w := w.1 ++ w.2.ended
  received := id
  origin := Prod.fst
  origin_fromWriter _ _ := rfl
  origin_writeField _ _ := rfl
  origin_endRecord w := by
    split <;> rfl
  received_drop _ _ := rfl

/-- Only the trades of a live stream. -/
def tradesOnly : Inner.Settings GregorianDate :=
  { withMetadata GregorianDate with schema := some .trades }

def tradesStream : ValidStream GregorianDate tradesOnly.upgradePolicy :=
  liveStream

theorem csv_output_mappingAndTrade :
    exists results self', Call.runAll (List Row × Rows) .csv
        [.write tradesStream.bytes]
        (⟨(DbnFsm.new DbnFsm.defaultBufSize 0 : DbnFsm VecBuffer),
          tradesOnly.target []⟩) = .ret (results, self') ∧
      ((forall res, res ∈ results -> ¬ res.IsPanic) ->
        (tradesStream.metadata.isSome ∧
          RowOutput.received (List Row × Rows) self'.target.output =
            RowOutput.received (List Row × Rows) [] ∧
          (results.getLast?.getD (Res.ok ()) = Res.ok () ->
            tradesStream.complete
              ([Call.write tradesStream.bytes].flatMap Call.bytes).length =
              0)) ∨
        exists j, RowOutput.received (List Row × Rows) self'.target.output =
            RowOutput.received (List Row × Rows) [] ++
            [headerRow (headerType (UInt8.ofNat
              (tradesOnly.upgradePolicy.outputVersion tradesStream.version))
              .trades) tradesStream.tsOut (tradesOnly.mapSymbols.getD true)] ++
            (withSymbols (D := GregorianDate)
              (tradesOnly.mapSymbols.getD true) (.live ∅)
              ((tradesStream.records.take j).map
                tradesStream.image)).flatMap (fun record =>
                csvRows tradesOnly.prettyPx tradesOnly.prettyTs
                  tradesStream.tsOut (some .trades) record.1 record.2) ∧
          (results.getLast?.getD (Res.ok ()) = Res.ok () ->
            j = ValidStream.completeRecords tradesStream.records
              (([Call.write tradesStream.bytes].flatMap Call.bytes).length -
                tradesStream.head.length))) := by
  have hdebug : ShowsRecord := fun _ _ => rfl
  have hnew : Inner.new (List Row × Rows) .csv [] tradesOnly =
      Res.ok (⟨(DbnFsm.new DbnFsm.defaultBufSize 0 : DbnFsm VecBuffer),
        tradesOnly.target []⟩ : Inner _ _ _) := rfl
  have hdescribes : Describes tradesOnly tradesStream :=
    ⟨rfl, fun hnone => by cases hnone⟩
  have hpiece : [Call.write tradesStream.bytes].flatMap Call.bytes <+:
      tradesStream.bytes :=
    ⟨[], (List.append_nil _).trans (List.append_nil _)⟩
  exact csv_output hdebug (fun _ => rfl) [] hnew hdescribes rfl rfl
    (by decide +kernel) _ hpiece

end Example
end Transcoder
end Dbn
