import Dbn.CChars
import Dbn.Encode.Dispatch
import Dbn.Lib.Release
import Dbn.Metadata.SymbolMap
import Dbn.UpgradeMeaning

/-!
# Symbols of records

The symbol of a record is found by its instrument ID and, in a timeseries map,
by the date of its primary timestamp.  A point-in-time map follows a live
stream: it is updated from the symbol mapping records.
-/

namespace Dbn

open Lib
open Conversion (instrumentId tsEvent)
open DbnFsm (requiredSize)

/-!
## The primary timestamp
-/

/-- The field with the attribute `index_ts`; in every struct it is this one. -/
def RecordType.indexTsField (t : RecordType) : Option FieldDesc :=
  t.fields.find? (fun f => f.name = "ts_recv")

/-- `raw_index_ts` of a struct. -/
def RecordType.rawIndexTs (t : RecordType) (memory : List UInt8) : Nat :=
  match t.indexTsField with
  | some f => leNat (f.get t.fields memory)
  | none => tsEvent memory

namespace RecordRef

/-- `header().instrument_id`. -/
def instrumentId (record : RecordRef) : UInt32 :=
  UInt32.ofNat (Conversion.instrumentId record.bytes)

/-- `raw_index_ts`; panics on a record that is too short for its type. -/
def rawIndexTs (record : RecordRef) : Except Panic Nat :=
  match HasRtype.rtype record with
  | Except.error _ => Except.ok (tsEvent record.bytes)
  | Except.ok rtype =>
      let t := rtype.dispatch (Dbn.recordSize record.bytes)
      match record.getAs t false with
      | Except.error p => Except.error p
      | Except.ok none => Except.error .unwrapNone
      | Except.ok (some memory) => Except.ok (t.rawIndexTs memory)

/-- `index_date`: the date of `ts_to_dt`. -/
def indexDate (D : Type) [DayCalendar D] (record : RecordRef) :
    Except Panic (Option D) := do
  let ts ← record.rawIndexTs
  if ts = undefTimestamp then Except.ok none
  else Except.ok (some (DayCalendar.ofUnixNanos ts))

end RecordRef

/-!
## Lookups
-/

variable {D : Type} [LinearOrder D] [DayCalendar D]

def TsSymbolMap.getForRec (self : TsSymbolMap D) (record : RecordRef) :
    Except Panic (Option Str) := do
  let date ← record.indexDate D
  Except.ok (date.bind (fun date => self.get date record.instrumentId))

def PitSymbolMap.getForRec (self : PitSymbolMap) (record : RecordRef) :
    Option Str :=
  self.get record.instrumentId

/-!
## Updates
-/

/-- A text field of a versioned struct, by `c_chars_to_str`. -/
def RecordStruct.text (s : RecordStruct) (f : Field) (memory : List UInt8) :
    Result Str :=
  Dbn.cCharsToStr (n := s.layout.width f)
    ⟨resize (s.layout.width f) (s.layout.get memory f), length_resize _ _⟩

namespace PitSymbolMap

/-- A call that inserts a text that was read from the record. -/
def insertText (record : List UInt8) (text : Result Str) :
    WriteM PitSymbolMap Error Unit :=
  fun self =>
    match text with
    | Res.ok symbol =>
        (Res.ok (),
          AList.insert (UInt32.ofNat (instrumentId record)) symbol self)
    | Res.err e => (Res.err e, self)
    | Res.panic p => (Res.panic p, self)

/-- `on_symbol_mapping`, of a struct for symbol mappings. -/
def onSymbolMapping (s : RecordStruct) (symbolMapping : List UInt8) :
    WriteM PitSymbolMap Error Unit :=
  insertText symbolMapping (s.text .stypeOutSymbol symbolMapping)

/-- `on_instrument_def`, of a struct for definitions. -/
def onInstrumentDef (s : RecordStruct) (instrumentDef : List UInt8) :
    WriteM PitSymbolMap Error Unit :=
  insertText instrumentDef (s.text .rawSymbol instrumentDef)

def onRecord (record : RecordRef) : WriteM PitSymbolMap Error Unit :=
  match HasRtype.rtype record with
  | Except.ok .symbolMapping =>
      if recordSize record.bytes ≥ RecordStruct.symbolMappingV2.size then
        -- `>=` to allow `WithTsOut`
        onSymbolMapping .symbolMappingV2
          (record.bytes.take RecordStruct.symbolMappingV2.size)
      else
        match record.get .symbolMappingV1 false with
        | Except.error p => WriteM.panic p
        | Except.ok none => WriteM.panic .unwrapNone
        | Except.ok (some memory) => onSymbolMapping .symbolMappingV1 memory
  | _ => pure ()

end PitSymbolMap

/-!
## What a record says about symbols
-/

/-- The struct of a symbol mapping record, by its size. -/
def mappingStruct (size : Nat) : RecordStruct :=
  if size ≥ RecordStruct.symbolMappingV2.size then .symbolMappingV2
  else .symbolMappingV1

/-- The symbol that a symbol mapping record has for its instrument. -/
def symbolOf (bytes : List UInt8) : Result Str :=
  (mappingStruct (recordSize bytes)).text .stypeOutSymbol bytes

/-- The mapping that a record announces, if it announces one. -/
def announced (bytes : List UInt8) : Option (UInt32 × Str) :=
  if rtypeOf bytes = Rtype.symbolMapping then
    match symbolOf bytes with
    | Res.ok symbol => some (UInt32.ofNat (instrumentId bytes), symbol)
    | _ => none
  else none

/-- A symbol mapping record that is not too short for its type. -/
def FitsMapping (bytes : List UInt8) : Prop :=
  rtypeOf bytes = Rtype.symbolMapping ->
    RecordStruct.symbolMappingV1.size ≤ recordSize bytes

instance (bytes : List UInt8) : Decidable (FitsMapping bytes) :=
  inferInstanceAs (Decidable (_ -> _))

/-!
### Texts of fields
-/

theorem cCharsToStr_not_isPanic {n : Nat} (chars : CChars n) :
    ¬ (Dbn.cCharsToStr chars).IsPanic := by
  unfold Dbn.cCharsToStr
  split
  · split <;> simp
  · simp

/-- The two readings of a text agree. -/
theorem cCharsToStr_eq_ok_iff {n : Nat} {chars : CChars n} {s : Str} :
    Dbn.cCharsToStr chars = Res.ok s <->
      Conversion.cCharsToStr chars.bytes = some s.bytes := by
  unfold Dbn.cCharsToStr Conversion.cCharsToStr
  by_cases hnul : 0 ∈ chars.bytes
  swap
  · rw [if_neg hnul, if_neg hnul]
    constructor <;> intro h <;> cases h
  rw [if_pos hnul, if_pos hnul]
  by_cases hvalid : IsUtf8 (chars.bytes.takeWhile (· ≠ 0))
  · rw [Str.fromUtf8_of_valid hvalid]
    dsimp only
    rw [if_pos hvalid]
    constructor
    · intro h
      cases h
      rfl
    · intro h
      exact congrArg Res.ok (Str.ext (Option.some.inj h))
  · rcases Str.fromUtf8_of_not_valid hvalid with ⟨e, he⟩
    rw [he]
    dsimp only
    rw [if_neg hvalid]
    constructor <;> intro h <;> cases h

namespace RecordStruct

variable {s : RecordStruct} {f : Field} {memory : List UInt8}

theorem text_not_isPanic (s : RecordStruct) (f : Field)
    (memory : List UInt8) : ¬ (s.text f memory).IsPanic :=
  cCharsToStr_not_isPanic _

/-- A text does not depend on what is behind the struct. -/
theorem text_take (s : RecordStruct) (f : Field) (memory : List UInt8) :
    s.text f (memory.take s.size) = s.text f memory := by
  unfold text
  simp only [size, Layout.get_take]

theorem text_eq_ok_iff {symbol : Str} (hlen : s.size ≤ memory.length) :
    s.text f memory = Res.ok symbol <->
      Conversion.cCharsToStr (s.layout.get memory f) = some symbol.bytes := by
  have hget : (s.layout.get memory f).length = s.layout.width f :=
    Layout.length_get hlen f
  unfold text
  rw [cCharsToStr_eq_ok_iff]
  dsimp only
  rw [resize_of_length hget]

end RecordStruct

/-!
### One update
-/

theorem rtype_eq_symbolMapping {record : RecordRef} :
    HasRtype.rtype record = Except.ok .symbolMapping <->
      rtypeOf record.bytes = Rtype.symbolMapping := by
  have hfrom : RType.tryFrom (rtypeOf record.bytes) = some .symbolMapping <->
      RType.symbolMapping.toUInt8 = rtypeOf record.bytes :=
    RType.tryFrom_eq_some
  unfold HasRtype.rtype
  constructor
  · intro h
    split at h
    · next rtype htry =>
        cases h
        exact (hfrom.mp htry).symm
    · cases h
  · intro h
    have htry : RType.tryFrom (HasRtype.rawRtype record) =
        some .symbolMapping := hfrom.mpr h.symm
    rw [htry]

theorem instrumentId_take {n : Nat} (h : 8 ≤ n) (bytes : List UInt8) :
    instrumentId (bytes.take n) = instrumentId bytes := by
  have hmin : min 4 (n - 4) = 4 := Nat.min_eq_left (by omega)
  unfold instrumentId
  rw [List.drop_take, List.take_take, hmin]

namespace PitSymbolMap

variable {record : RecordRef} {self self' : PitSymbolMap}

theorem onRecord_of_other (h : rtypeOf record.bytes ≠ Rtype.symbolMapping) :
    onRecord record = pure () := by
  have hne : HasRtype.rtype record ≠ Except.ok .symbolMapping := by
    intro hrtype
    exact h (rtype_eq_symbolMapping.mp hrtype)
  unfold onRecord
  split
  · next hrtype => exact absurd hrtype hne
  · rfl

/-- A symbol mapping record is read by the struct that its size says. -/
theorem onRecord_of_mapping
    (hrtype : rtypeOf record.bytes = Rtype.symbolMapping) :
    onRecord record =
      if FitsMapping record.bytes then
        insertText record.bytes (symbolOf record.bytes)
      else WriteM.panic .assertion := by
  unfold onRecord symbolOf mappingStruct
  rw [rtype_eq_symbolMapping.mpr hrtype]
  dsimp only
  by_cases hnew : recordSize record.bytes ≥ RecordStruct.symbolMappingV2.size
  · have hfits : FitsMapping record.bytes :=
      fun _ => Nat.le_trans (by decide) hnew
    rw [if_pos hnew, if_pos hfits, if_pos hnew]
    unfold onSymbolMapping insertText
    rw [RecordStruct.text_take, instrumentId_take (by decide)]
  · have hget : record.get .symbolMappingV1 false =
        if recordSize record.bytes ≥ RecordStruct.symbolMappingV1.size then
          Except.ok (some
            (record.bytes.take RecordStruct.symbolMappingV1.size))
        else Except.error Panic.assertion := if_pos hrtype
    rw [if_neg hnew, if_neg hnew, hget]
    by_cases hold : recordSize record.bytes ≥
        RecordStruct.symbolMappingV1.size
    · have hfits : FitsMapping record.bytes := fun _ => hold
      rw [if_pos hold, if_pos hfits]
      unfold onSymbolMapping insertText
      dsimp only
      rw [RecordStruct.text_take, instrumentId_take (by decide)]
    · have hfits : ¬ FitsMapping record.bytes := fun h => hold (h hrtype)
      rw [if_neg hold, if_neg hfits]

/-- Only a symbol mapping record that is too short panics. -/
theorem onRecord_isPanic_iff (record : RecordRef) (self : PitSymbolMap) :
    (onRecord record self).1.IsPanic <-> ¬ FitsMapping record.bytes := by
  by_cases hrtype : rtypeOf record.bytes = Rtype.symbolMapping
  swap
  · rw [onRecord_of_other hrtype]
    constructor
    · intro h
      exact absurd h (Res.ok_not_isPanic _)
    · intro h
      exact absurd (fun hmapping => absurd hmapping hrtype) h
  rw [onRecord_of_mapping hrtype]
  by_cases hfits : FitsMapping record.bytes
  · rw [if_pos hfits]
    have hpanic := RecordStruct.text_not_isPanic
      (mappingStruct (recordSize record.bytes)) .stypeOutSymbol record.bytes
    unfold insertText symbolOf
    constructor
    · intro h
      exfalso
      split at h
      · exact Res.ok_not_isPanic _ h
      · exact Res.err_not_isPanic _ h
      · next p heq =>
          rw [heq] at hpanic
          exact hpanic (Res.panic_isPanic p)
    · intro h
      exact absurd hfits h
  · rw [if_neg hfits]
    constructor
    · intro _
      exact hfits
    · intro _
      exact Res.panic_isPanic _

/-- A record changes the map by the mapping that it announces. -/
theorem get_onRecord (hfits : FitsMapping record.bytes) (iid : UInt32) :
    (onRecord record self).2.get iid =
      (HashMap.lastValue (announced record.bytes).toList iid).or
        (self.get iid) := by
  by_cases hrtype : rtypeOf record.bytes = Rtype.symbolMapping
  swap
  · rw [onRecord_of_other hrtype]
    unfold announced
    rw [if_neg hrtype]
    rfl
  rw [onRecord_of_mapping hrtype, if_pos hfits]
  unfold insertText announced
  rw [if_pos hrtype]
  cases symbolOf record.bytes with
  | ok symbol =>
      rw [show (some (UInt32.ofNat (instrumentId record.bytes), symbol)).toList =
        [] ++ [(UInt32.ofNat (instrumentId record.bytes), symbol)] from rfl,
        ← HashMap.lookup_ofEntries_eq_lastValue]
      unfold get HashMap.ofEntries
      rw [List.nil_append, List.foldl_cons, List.foldl_nil]
      dsimp only
      by_cases hiid : iid = UInt32.ofNat (instrumentId record.bytes)
      · rw [hiid, AList.lookup_insert, AList.lookup_insert]
        rfl
      · rw [AList.lookup_insert_ne hiid, AList.lookup_insert_ne hiid]
        rfl
  | err e => rfl
  | panic p => rfl

end PitSymbolMap
end Dbn
