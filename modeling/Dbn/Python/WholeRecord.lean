import Dbn.Python.Transcoder

/-!
# Calls read only the record

A record reference points into a buffer that has more records behind it.  The
encoders and the symbol maps read the bytes of the record and no others.
-/

namespace Dbn

open Lib
open RecordStruct (headerLen)

/-- The record alone. -/
def RecordRef.whole (r : RecordRef) : RecordRef := ⟨r.asRef⟩

/--
The text of a record for messages, up to the address in it, shows the header of
the record and nothing behind it.
-/
def ShowsRecord [DebugRecord] : Prop :=
  forall r : RecordRef, headerLen ≤ r.asRef.length ->
    DebugRecord.recordRef r = DebugRecord.recordRef r.whole

namespace RecordRef

variable {r : RecordRef}

theorem take_whole {n : Nat} (h : n ≤ Dbn.recordSize r.bytes) :
    r.whole.bytes.take n = r.bytes.take n := by
  unfold whole asRef
  rw [List.take_take, Nat.min_eq_left h]

section Header

variable (h : headerLen ≤ r.asRef.length)

include h

theorem headerLen_le_recordSize : headerLen ≤ Dbn.recordSize r.bytes := by
  unfold asRef at h
  rw [List.length_take] at h
  omega

theorem recordSize_whole :
    Dbn.recordSize r.whole.bytes = Dbn.recordSize r.bytes := by
  have hsize := headerLen_le_recordSize h
  exact recordSize_take (Nat.lt_of_lt_of_le (by decide) hsize) r.bytes

theorem rtypeOf_whole : rtypeOf r.whole.bytes = rtypeOf r.bytes := by
  have htwo : 2 ≤ r.asRef.length := Nat.le_trans (by decide) h
  show rtypeOf r.asRef = _
  rw [← rtypeOf_append (b := r.bytes.drop (Dbn.recordSize r.bytes)) htwo]
  unfold asRef
  rw [List.take_append_drop]

theorem asRef_whole : r.whole.asRef = r.asRef := by
  have hsize := recordSize_whole h
  unfold asRef at hsize ⊢
  rw [hsize, take_whole (Nat.le_refl _)]

theorem rtype_whole : HasRtype.rtype r.whole = HasRtype.rtype r := by
  unfold HasRtype.rtype
  have hraw : HasRtype.rawRtype r.whole = HasRtype.rawRtype r :=
    rtypeOf_whole h
  rw [hraw]

theorem getAs_whole (t : RecordType) (tsOut : Bool) :
    r.whole.getAs t tsOut = r.getAs t tsOut := by
  unfold getAs
  rw [rtypeOf_whole h, recordSize_whole h]
  by_cases hroom : Dbn.recordSize r.bytes ≥ t.size + tsOutLen tsOut
  · rw [take_whole hroom]
  · rw [if_neg hroom, if_neg hroom]

theorem get_whole (s : RecordStruct) (tsOut : Bool) :
    r.whole.get s tsOut = r.get s tsOut := by
  unfold get
  rw [rtypeOf_whole h, recordSize_whole h]
  by_cases hroom : Dbn.recordSize r.bytes ≥ s.size + tsOutLen tsOut
  · rw [take_whole hroom]
  · rw [if_neg hroom, if_neg hroom]

/-- The fields of the header. -/
theorem header_whole {start len : Nat} (hend : start + len ≤ headerLen) :
    (r.whole.bytes.drop start).take len = (r.bytes.drop start).take len := by
  have hsize := headerLen_le_recordSize h
  have hslice : forall bytes : List UInt8, (bytes.drop start).take len =
      (bytes.take (start + len)).drop start := by
    intro bytes
    rw [List.drop_take, Nat.add_sub_cancel_left]
  rw [hslice, hslice, take_whole (Nat.le_trans hend hsize)]

theorem instrumentId_whole : r.whole.instrumentId = r.instrumentId :=
  congrArg (fun bytes => UInt32.ofNat (leNat bytes))
    (header_whole h (by decide))

theorem rawIndexTs_whole : r.whole.rawIndexTs = r.rawIndexTs := by
  have hevent : Conversion.tsEvent r.whole.bytes =
      Conversion.tsEvent r.bytes :=
    congrArg leNat (header_whole h (by decide))
  unfold rawIndexTs
  rw [rtype_whole h, recordSize_whole h, hevent]
  simp only [getAs_whole h]

theorem indexDate_whole (D : Type) [DayCalendar D] :
    r.whole.indexDate D = r.indexDate D := by
  unfold indexDate
  rw [rawIndexTs_whole h]

end Header
end RecordRef

/-!
## Callers
-/

section Callers

variable {r : RecordRef} (h : headerLen ≤ r.asRef.length)

include h

theorem rtypeDispatch_whole {E : Type}
    (encodeRecord : RecordType -> Bool -> List UInt8 -> WriteM E Error Unit)
    (tsOut : Bool) :
    rtypeDispatch encodeRecord tsOut r.whole =
      rtypeDispatch encodeRecord tsOut r := by
  unfold rtypeDispatch
  rw [RecordRef.rtype_whole h, RecordRef.recordSize_whole h]
  simp only [RecordRef.getAs_whole h]

theorem CsvEncoder.encodeRecordRefTsOut_whole {V W : Type} [CsvWriter V W]
    [TimeFormat] (debug : RecordType -> Bool -> List UInt8 -> String)
    (tsOut : Bool) :
    (encodeRecordRefTsOut debug tsOut r.whole : Call W Unit) =
      encodeRecordRefTsOut debug tsOut r := by
  unfold encodeRecordRefTsOut
  rw [RecordRef.rtype_whole h, RecordRef.recordSize_whole h]
  simp only [RecordRef.getAs_whole h]

theorem PitSymbolMap.onRecord_whole : onRecord r.whole = onRecord r := by
  unfold onRecord
  rw [RecordRef.rtype_whole h, RecordRef.recordSize_whole h,
    RecordRef.get_whole h]
  by_cases hnew : recordSize r.bytes ≥ RecordStruct.symbolMappingV2.size
  · rw [RecordRef.take_whole hnew]
  · rw [if_neg hnew, if_neg hnew]

variable {D : Type} [LinearOrder D] [DayCalendar D]

namespace Transcoder

theorem SymbolMap.getForRec_whole (map : SymbolMap D) :
    map.getForRec r.whole = map.getForRec r := by
  unfold getForRec
  cases map with
  | historical map =>
      dsimp only
      unfold TsSymbolMap.getForRec
      rw [RecordRef.indexDate_whole h, RecordRef.instrumentId_whole h]
  | live map =>
      dsimp only
      unfold PitSymbolMap.getForRec
      rw [RecordRef.instrumentId_whole h]

omit [DayCalendar D] in
theorem SymbolMap.updateLive_whole {ε : Type} :
    (updateLive r.whole : WriteM (SymbolMap D) ε Unit) = updateLive r := by
  funext map
  unfold updateLive
  rw [PitSymbolMap.onRecord_whole h]

variable {W C : Type} [FlushWrite W] [DropCsvWriter W C] [DebugRecord]
  [TimeFormat] [JsonWriter]

omit [DebugRecord] [TimeFormat] [JsonWriter] in
theorem encodeRefTsOutWithSym_whole {E : Type}
    (encodeRecordWithSym : Option (List UInt8) -> RecordType -> Bool ->
      List UInt8 -> WriteM E Error Unit)
    (tsOut : Bool) (symbol : Option Str) :
    encodeRefTsOutWithSym encodeRecordWithSym tsOut symbol r.whole =
      encodeRefTsOutWithSym encodeRecordWithSym tsOut symbol r :=
  rtypeDispatch_whole h _ tsOut

namespace Target

omit [FlushWrite W] [JsonWriter] in
theorem encodeCsvWith_whole (usePretty : Target W D) (tsOut : Bool) :
    (encodeCsvWith usePretty tsOut r.whole :
      WriteM (CsvEncoder.Encoder C × SymbolMap D) Error Unit) =
      encodeCsvWith usePretty tsOut r := by
  unfold encodeCsvWith
  simp only [SymbolMap.updateLive_whole h, RecordRef.rtype_whole h,
    SymbolMap.getForRec_whole h, encodeRefTsOutWithSym_whole h,
    CsvEncoder.encodeRecordRefTsOut_whole h]

theorem encodeJson_whole (tsOut : Bool) :
    (encodeJson tsOut r.whole : WriteM (Target W D) Error Unit) =
      encodeJson tsOut r := by
  have hplain : (EncodeRecordRef.encodeRecordRefTsOut tsOut r.whole :
      WriteM (JsonEncoder.Encoder W) Error Unit) =
      EncodeRecordRef.encodeRecordRefTsOut tsOut r :=
    rtypeDispatch_whole h _ tsOut
  unfold encodeJson
  simp only [SymbolMap.updateLive_whole h, SymbolMap.getForRec_whole h,
    encodeRefTsOutWithSym_whole h, hplain]
  rfl

/-- Encoding a record reads only the record. -/
theorem encodeRecord_whole (hdebug : ShowsRecord) (outputEnc : Cli.Encoding)
    (tsOut : Bool) :
    (encodeRecord C outputEnc tsOut r.whole :
      WriteM (Target W D) Error Unit) = encodeRecord C outputEnc tsOut r := by
  cases outputEnc with
  | dbn =>
      show encodeDbn r.whole = encodeDbn r
      unfold encodeDbn RecordEncoder.encodeRecordRef
      rw [RecordRef.asRef_whole h, ← hdebug r h]
  | csv =>
      show encodeCsv C tsOut r.whole = encodeCsv C tsOut r
      unfold encodeCsv
      simp only [encodeCsvWith_whole h]
      rfl
  | json => exact encodeJson_whole h tsOut

end Target
end Transcoder
end Callers
end Dbn
