import Dbn.Encode.CsvDefaultBody
import Dbn.Encode.EncodeDbn

/-!
# The encoder with an encoding set at runtime

An operation that the encoder forwards is the one of the encoder that it wraps.
The one with a limit is not forwarded: its default body makes no difference for
DBN and JSON, which use it as well, but it does for CSV.
-/

namespace Dbn

open Lib
open Lib.LoopM (Keeps LoopKeeps wrapped within)

namespace CsvEncoder

variable {V W D T : Type} [RowWriter V W]

/-!
## Headers that are left to a record
-/

/-- A header that was written, or not asked for, stays so. -/
def Written (encoder : Encoder W) : Prop :=
  encoder.hasWrittenHeader = true

theorem Written.settled {encoder : Encoder W} (h : Written encoder) :
    Settled encoder := by
  intro hpending
  rw [h] at hpending
  cases hpending

section Keeps

theorem keepsWritten_writeRow (mapErr : CsvError -> Error) (row : Row) :
    Keeps Written (writeRow mapErr row : Call W Unit) := by
  intro self h
  rcases rowWritten_append_writeRow mapErr row self with ⟨w, res, hret, _⟩
  rw [hret]
  exact h

theorem keepsWritten_encodeHeader (t : RecordType) (tsOut withSymbol : Bool) :
    Keeps Written (encodeHeader t tsOut withSymbol : Call W Unit) :=
  (keepsWritten_writeRow _ _).bind (fun _ _ => rfl)

theorem keeps_flush : Keeps Settled (flush : Call W Unit) := by
  intro self h hpending
  rcases RowWriter.flush_eq self.writer with ⟨w, hflush, hrows⟩
  have hret : flush self = (Res.ok (), { self with writer := w }) := by
    unfold flush
    rw [hflush]
  rw [hret] at hpending ⊢
  show RowWriter.rows w = _
  rw [hrows]
  exact h hpending

/-- A call after a header, from any state. -/
theorem keeps_header_bind (t : RecordType) (tsOut withSymbol : Bool)
    {y : Call W Unit} (hy : Keeps Written y) :
    Keeps Settled (encodeHeader t tsOut withSymbol >>= fun _ => y) := by
  intro self h
  cases hwritten : self.hasWrittenHeader with
  | true =>
      exact Written.settled
        ((keepsWritten_encodeHeader t tsOut withSymbol).bind hy self hwritten)
  | false =>
      rcases encodeHeader_of_empty (h hwritten) t tsOut withSymbol with
        ⟨self', hret, _, hwritten'⟩
      rw [WriteM.bind_of_ok hret]
      exact Written.settled (hy self' hwritten')

theorem keeps_encodeHeader (t : RecordType) (tsOut withSymbol : Bool) :
    Keeps Settled (encodeHeader t tsOut withSymbol : Call W Unit) := by
  intro self h
  cases hwritten : self.hasWrittenHeader with
  | true =>
      exact Written.settled
        (keepsWritten_encodeHeader t tsOut withSymbol self hwritten)
  | false =>
      rcases encodeHeader_of_empty (h hwritten) t tsOut withSymbol with
        ⟨self', hret, _, hwritten'⟩
      rw [hret]
      exact Written.settled hwritten'

theorem keeps_encodeHeaderForSchema (version : UInt8) (schema : Schema)
    (tsOut withSymbol : Bool) :
    Keeps Settled (encodeHeaderForSchema version schema tsOut withSymbol :
      Call W Unit) := by
  have hset : Keeps Written (setHasWrittenHeader : Call W Unit) :=
    fun _ _ => rfl
  unfold encodeHeaderForSchema
  split
  · exact keeps_header_bind _ _ _ hset
  · exact keeps_header_bind _ _ _ hset

/-- A call that writes a row, and before it a header that is due. -/
theorem keeps_of_header (t : RecordType) (tsOut withSymbol : Bool)
    {x : Call W Unit} {y : Encoder W -> Call W Unit}
    (hy : forall self, Keeps Written (y self))
    (hx : forall self, x self = if !self.hasWrittenHeader then
      (encodeHeader t tsOut withSymbol >>= fun _ => y self) self
        else y self self) :
    Keeps Settled x := by
  intro self h
  rw [hx]
  cases hwritten : self.hasWrittenHeader with
  | true => exact Written.settled (hy self self hwritten)
  | false => exact keeps_header_bind t tsOut withSymbol (hy self) self h

variable [TimeFormat]

theorem keeps_encodeRecord
    (debug : RecordType -> Bool -> List UInt8 -> String) (t : RecordType)
    (tsOut : Bool) (memory : List UInt8) :
    Keeps Settled (encodeRecord debug t tsOut memory : Call W Unit) := by
  apply keeps_of_header t tsOut false
    (y := fun _ => encodeRow debug t tsOut memory)
  · intro _ self h
    exact keepsWritten_writeRow _ _ self h
  · intro self
    rfl

theorem keeps_encodeRecordRefTsOut
    (debug : RecordType -> Bool -> List UInt8 -> String) (tsOut : Bool)
    (record : RecordRef) :
    Keeps Settled (encodeRecordRefTsOut debug tsOut record : Call W Unit) := by
  unfold encodeRecordRefTsOut
  split
  · exact Keeps.fail _ _
  · dsimp only
    split
    · exact Keeps.panic _ _
    · exact Keeps.panic _ _
    · exact keeps_encodeRecord _ _ _ _

theorem keeps_encodeOfRtype
    (debug : RecordType -> Bool -> List UInt8 -> String) (rtype : RType)
    (tsOut : Bool) (record : RecordRef) :
    Keeps Settled (encodeOfRtype debug rtype tsOut record : Call W Unit) := by
  unfold encodeOfRtype
  split
  · exact Keeps.fail _ _
  · exact keeps_encodeRecordRefTsOut debug tsOut record

theorem keeps_encodeRecordWithSym [DebugRecord]
    (symbol : Option (List UInt8)) (t : RecordType) (tsOut : Bool)
    (memory : List UInt8) :
    Keeps Settled (encodeRecordWithSym symbol t tsOut memory :
      Call W Unit) := by
  apply keeps_of_header t tsOut true (y := fun self =>
    writeRow (recordErr (DebugRecord.record t tsOut memory))
      (t.serializeTo self.usePrettyPx self.usePrettyTs tsOut memory ++
        [symbol.getD []]))
  · intro self
    exact keepsWritten_writeRow _ _
  · intro self
    rfl

theorem keeps_encodeDecoded
    (debug : RecordType -> Bool -> List UInt8 -> String)
    (decode : Pull Error D RecordRef) (rounds : Nat) (metadata : Metadata T)
    (d : D) :
    LoopKeeps Settled (encodeDecoded debug decode rounds metadata d :
      Run W) := by
  intro self out h hret
  unfold encodeDecoded at hret
  cases hschema : metadata.schema with
  | none =>
      rw [hschema] at hret
      cases hret
      exact h
  | some schema =>
      rw [hschema] at hret
      dsimp only at hret
      rw [andThen_congr flush (encodeAll_eq_whileSome _)] at hret
      exact ((Keeps.whileSome (keeps_encodeOfRtype debug _ _) rounds
        d).andThen keeps_flush) self out h hret

end Keeps
end CsvEncoder

/-!
## Operations that are forwarded
-/

namespace DynEncoder

section Operations

variable {W C T : Type} [FlushWrite W] [DebugRecord] [RowWriter W C]
  [TimeFormat] [JsonWriter]

/-- The operation of the encoder that is wrapped. -/
def onWrapped (op : Operation) (self : DynEncoder W C) :
    Outcome (Result Unit × DynEncoder W C) :=
  match self with
  | ⟨.dbn enc⟩ => wrapped (fun enc => ⟨.dbn enc⟩) (op.run enc)
  | ⟨.csv enc⟩ => wrapped (fun enc => ⟨.csv enc⟩) (op.run enc)
  | ⟨.json enc⟩ => wrapped (fun enc => ⟨.json enc⟩) (op.run enc)

omit [FlushWrite W] [DebugRecord] [RowWriter W C] [TimeFormat]
  [JsonWriter] in
theorem wrapped_wrapped {S : Type} (wrap : S -> DynEncoderImpl W C)
    (out : Outcome (Result Unit × S)) :
    wrapped mk (wrapped wrap out) =
      wrapped (fun enc => (⟨wrap enc⟩ : DynEncoder W C)) out := by
  cases out <;> rfl

theorem run_encodeRecords (t : RecordType) (tsOut : Bool)
    (records : List (List UInt8)) (self : DynEncoder W C) :
    (Operation.encodeRecords t tsOut records).run self =
      onWrapped (.encodeRecords t tsOut records) self := by
  rcases self with ⟨impl⟩
  cases impl <;> rfl

theorem run_encodeStream {S : Type} (next : Pull Error S (List UInt8))
    (rounds : Nat) (t : RecordType) (tsOut : Bool) (stream : S)
    (self : DynEncoder W C) :
    (Operation.encodeStream next rounds t tsOut stream).run self =
      onWrapped (.encodeStream next rounds t tsOut stream) self := by
  rcases self with ⟨impl⟩
  cases impl <;> exact wrapped_wrapped _ _

variable {D : Type} {decode : Pull Error D RecordRef} {rounds : Nat}
  {metadata : Metadata T} {d : D} {limit : NonZeroU64}

theorem run_encodeDecoded (self : DynEncoder W C) :
    (Operation.encodeDecoded decode rounds metadata d).run self =
      onWrapped (.encodeDecoded decode rounds metadata d) self := by
  rcases self with ⟨impl⟩
  cases impl <;> exact wrapped_wrapped _ _

/-!
## The operation that is not forwarded
-/

/-- The default body over an encoder is the one over what it wraps. -/
theorem defaultBody_wrap {E : Type} [EncodeRecordRef E]
    (wrap : E -> DynEncoder W C)
    (hrecord : forall tsOut r, LoopM.Forwards wrap
      (EncodeRecordRef.encodeRecordRefTsOut tsOut r)
      (EncodeRecordRef.encodeRecordRefTsOut tsOut r))
    (hflush : LoopM.Forwards wrap EncodeRecordRef.flush EncodeRecordRef.flush)
    (self : E) :
    (Operation.encodeDecodedWithLimit decode rounds metadata d limit).run
        (wrap self) =
      wrapped wrap (LoopM.andThen
        (LoopM.whileSomeUpTo decode limit.val.toNat
          (EncodeRecordRef.encodeRecordRefTsOut metadata.tsOut) rounds 0 d)
        EncodeRecordRef.flush self) := by
  apply LoopM.andThen_wrap
  · exact LoopM.whileSomeUpTo_wrap (hrecord metadata.tsOut)
      limit.val.toNat rounds 0 d self
  · exact hflush

theorem run_withLimit_dbn (enc : DbnEncoder.Encoder W) :
    (Operation.encodeDecodedWithLimit decode rounds metadata d limit).run
        (⟨.dbn enc⟩ : DynEncoder W C) =
      onWrapped (.encodeDecodedWithLimit decode rounds metadata d limit)
        ⟨.dbn enc⟩ :=
  defaultBody_wrap (fun enc => ⟨.dbn enc⟩) (fun _ _ _ => rfl) (fun _ => rfl)
    enc

theorem run_withLimit_json (enc : JsonEncoder.Encoder W) :
    (Operation.encodeDecodedWithLimit decode rounds metadata d limit).run
        (⟨.json enc⟩ : DynEncoder W C) =
      onWrapped (.encodeDecodedWithLimit decode rounds metadata d limit)
        ⟨.json enc⟩ :=
  defaultBody_wrap (fun enc => ⟨.json enc⟩) (fun _ _ _ => rfl) (fun _ => rfl)
    enc

/-- The records that the decoder gives go to the CSV encoder unchecked. -/
theorem run_withLimit_csv (hdecode : forall d, decode d ≠ .timeout)
    (hrounds : limit.val.toNat ≤ rounds) (enc : CsvEncoder.Encoder C) :
    (Operation.encodeDecodedWithLimit decode rounds metadata d limit).run
        (⟨.csv enc⟩ : DynEncoder W C) =
      wrapped (fun enc => ⟨.csv enc⟩)
        (.ret (CsvEncoder.defaultBody DebugRecord.record metadata.tsOut
          (taken decode limit.val.toNat d) (ending decode limit.val.toNat d)
          enc)) := by
  unfold CsvEncoder.defaultBody CsvEncoder.after
  rw [← LoopM.andThen_whileSomeUpTo
    (CsvEncoder.encodeRecordRefTsOut DebugRecord.record metadata.tsOut) hdecode
    (CsvEncoder.limit_pos limit) hrounds]
  exact defaultBody_wrap (fun enc => ⟨.csv enc⟩) (fun _ _ _ => rfl)
    (fun _ => rfl) enc

/-!
## States
-/

/-- The calls of an encoder. -/
inductive Request where
  | operation (op : Operation)
  | encodeRecord (t : RecordType) (tsOut : Bool) (memory : List UInt8)
  | encodeRecordRef (record : RecordRef)
  | encodeRecordRefTsOut (tsOut : Bool) (record : RecordRef)
  | encodeRecordWithSym (symbol : Option (List UInt8)) (t : RecordType)
      (tsOut : Bool) (memory : List UInt8)
  | encodeHeader (t : RecordType) (tsOut withSymbol : Bool)
  | encodeHeaderForSchema (version : UInt8) (schema : Schema)
      (tsOut withSymbol : Bool)
  | flush

def Request.run (self : DynEncoder W C) :
    Request -> Outcome (Result Unit × DynEncoder W C)
  | operation op => op.run self
  | encodeRecord t tsOut memory =>
      .ret (EncodeRecordRef.encodeRecord t tsOut memory self)
  | encodeRecordRef record =>
      .ret (EncodeRecordRef.encodeRecordRef record self)
  | encodeRecordRefTsOut tsOut record =>
      .ret (EncodeRecordRef.encodeRecordRefTsOut tsOut record self)
  | encodeRecordWithSym symbol t tsOut memory =>
      .ret (DynEncoder.encodeRecordWithSym symbol t tsOut memory self)
  | encodeHeader t tsOut withSymbol =>
      .ret (DynEncoder.encodeHeader t tsOut withSymbol self)
  | encodeHeaderForSchema version schema tsOut withSymbol =>
      .ret (DynEncoder.encodeHeaderForSchema version schema tsOut withSymbol
        self)
  | flush => .ret (EncodeRecordRef.flush self)

/-- The encoders that can come up: built, and then called any number of times. -/
inductive Reached : DynEncoder W C -> Prop where
  | build {T : Type} [CalendarDate T] {b : DynEncoderBuilder W T}
      {self : DynEncoder W C} (built : b.build = Res.ok self) : Reached self
  | request {self self' : DynEncoder W C} {res : Result Unit}
      (reached : Reached self) (r : Request)
      (ret : r.run self = .ret (res, self')) : Reached self'

/-- A CSV header that has not been written yet is the first row. -/
def Settled : DynEncoder W C -> Prop
  | ⟨.csv enc⟩ => CsvEncoder.Settled enc
  | _ => True

/-- An operation that is forwarded keeps what the CSV encoder keeps. -/
theorem settled_onWrapped (op : Operation)
    (hcsv : LoopKeeps CsvEncoder.Settled (op.run : CsvEncoder.Run C)) :
    LoopKeeps Settled (onWrapped op : LoopM (DynEncoder W C) Error) := by
  intro self out h hret
  rcases self with ⟨impl⟩
  cases impl with
  | dbn enc =>
      change wrapped (fun enc => (⟨.dbn enc⟩ : DynEncoder W C))
        (op.run enc) = _ at hret
      rcases LoopM.exists_of_wrapped hret with ⟨first, _, rfl⟩
      trivial
  | json enc =>
      change wrapped (fun enc => (⟨.json enc⟩ : DynEncoder W C))
        (op.run enc) = _ at hret
      rcases LoopM.exists_of_wrapped hret with ⟨first, _, rfl⟩
      trivial
  | csv enc =>
      change wrapped (fun enc => (⟨.csv enc⟩ : DynEncoder W C))
        (op.run enc) = _ at hret
      rcases LoopM.exists_of_wrapped hret with ⟨first, hfirst, rfl⟩
      exact hcsv enc first h hfirst

omit [FlushWrite W] [DebugRecord] [TimeFormat] [JsonWriter] in
/-- A call that is one of the CSV encoder where that is wrapped. -/
theorem keeps_of_csv {x : WriteM (DynEncoder W C) Error Unit}
    {y : CsvEncoder.Call C Unit}
    (hdbn : forall enc, Settled (x ⟨.dbn enc⟩).2)
    (hjson : forall enc, Settled (x ⟨.json enc⟩).2)
    (hcsv : LoopM.Forwards (fun enc => ⟨.csv enc⟩) y x)
    (hy : Keeps CsvEncoder.Settled y) : Keeps Settled x := by
  intro self h
  rcases self with ⟨impl⟩
  cases impl with
  | dbn enc => exact hdbn enc
  | json enc => exact hjson enc
  | csv enc =>
      rw [hcsv enc]
      exact hy enc h

theorem keeps_encodeRecord (t : RecordType) (tsOut : Bool)
    (memory : List UInt8) :
    Keeps Settled (EncodeRecordRef.encodeRecord t tsOut memory :
      WriteM (DynEncoder W C) Error Unit) :=
  keeps_of_csv (fun _ => trivial) (fun _ => trivial) (fun _ => rfl)
    (CsvEncoder.keeps_encodeRecord DebugRecord.record t tsOut memory)

theorem keeps_encodeRecordRefTsOut (tsOut : Bool) (record : RecordRef) :
    Keeps Settled (EncodeRecordRef.encodeRecordRefTsOut tsOut record :
      WriteM (DynEncoder W C) Error Unit) :=
  keeps_of_csv (fun _ => trivial) (fun _ => trivial) (fun _ => rfl)
    (CsvEncoder.keeps_encodeRecordRefTsOut DebugRecord.record tsOut record)

theorem keeps_encodeRecordRef (record : RecordRef) :
    Keeps Settled (EncodeRecordRef.encodeRecordRef record :
      WriteM (DynEncoder W C) Error Unit) :=
  keeps_of_csv (fun _ => trivial) (fun _ => trivial) (fun _ => rfl)
    (CsvEncoder.keeps_encodeRecordRefTsOut DebugRecord.record false record)

theorem keeps_encodeRecordWithSym (symbol : Option (List UInt8))
    (t : RecordType) (tsOut : Bool) (memory : List UInt8) :
    Keeps Settled (encodeRecordWithSym symbol t tsOut memory :
      WriteM (DynEncoder W C) Error Unit) :=
  keeps_of_csv (fun _ => trivial) (fun _ => trivial) (fun _ => rfl)
    (CsvEncoder.keeps_encodeRecordWithSym symbol t tsOut memory)

omit [FlushWrite W] [DebugRecord] [TimeFormat] [JsonWriter] in
theorem keeps_encodeHeader (t : RecordType) (tsOut withSymbol : Bool) :
    Keeps Settled (encodeHeader t tsOut withSymbol :
      WriteM (DynEncoder W C) Error Unit) :=
  keeps_of_csv (fun _ => trivial) (fun _ => trivial) (fun _ => rfl)
    (CsvEncoder.keeps_encodeHeader t tsOut withSymbol)

omit [FlushWrite W] [DebugRecord] [TimeFormat] [JsonWriter] in
theorem keeps_encodeHeaderForSchema (version : UInt8) (schema : Schema)
    (tsOut withSymbol : Bool) :
    Keeps Settled (encodeHeaderForSchema version schema tsOut withSymbol :
      WriteM (DynEncoder W C) Error Unit) :=
  keeps_of_csv (fun _ => trivial) (fun _ => trivial) (fun _ => rfl)
    (CsvEncoder.keeps_encodeHeaderForSchema version schema tsOut withSymbol)

theorem keeps_flush :
    Keeps Settled (EncodeRecordRef.flush :
      WriteM (DynEncoder W C) Error Unit) :=
  keeps_of_csv (fun _ => trivial) (fun _ => trivial) (fun _ => rfl)
    CsvEncoder.keeps_flush

/-- Every operation keeps the header where it belongs. -/
theorem settled_operation (op : Operation) :
    LoopKeeps Settled (op.run : LoopM (DynEncoder W C) Error) := by
  intro self out h hret
  cases op with
  | encodeRecords t tsOut records =>
      rw [run_encodeRecords] at hret
      refine settled_onWrapped _ ?_ self out h hret
      intro enc out h hret
      cases hret
      exact ((Keeps.forEach
        (CsvEncoder.keeps_encodeRecord DebugRecord.record t tsOut)
        records).bind CsvEncoder.keeps_flush) enc h
  | encodeStream next rounds t tsOut stream =>
      rw [run_encodeStream] at hret
      have hloop : LoopKeeps CsvEncoder.Settled (LoopM.whileSome next
          (CsvEncoder.encodeRecord (W := C) DebugRecord.record t tsOut) rounds
          stream) := Keeps.whileSome
        (CsvEncoder.keeps_encodeRecord DebugRecord.record t tsOut) rounds stream
      exact settled_onWrapped _ (hloop.andThen CsvEncoder.keeps_flush) self out
        h hret
  | encodeDecoded decode rounds metadata decoder =>
      rw [run_encodeDecoded] at hret
      exact settled_onWrapped _ (CsvEncoder.keeps_encodeDecoded
        DebugRecord.record decode rounds metadata decoder) self out h hret
  | encodeDecodedWithLimit decode rounds metadata decoder limit =>
      exact ((Keeps.whileSomeUpTo (keeps_encodeRecordRefTsOut metadata.tsOut)
        limit.val.toNat rounds 0 decoder).andThen keeps_flush) self out h hret

theorem settled_request (r : Request) :
    LoopKeeps Settled (fun self : DynEncoder W C => r.run self) := by
  intro self out h hret
  cases r with
  | operation op => exact settled_operation op self out h hret
  | encodeRecord t tsOut memory =>
      cases hret
      exact keeps_encodeRecord t tsOut memory self h
  | encodeRecordRef record =>
      cases hret
      exact keeps_encodeRecordRef record self h
  | encodeRecordRefTsOut tsOut record =>
      cases hret
      exact keeps_encodeRecordRefTsOut tsOut record self h
  | encodeRecordWithSym symbol t tsOut memory =>
      cases hret
      exact keeps_encodeRecordWithSym symbol t tsOut memory self h
  | encodeHeader t tsOut withSymbol =>
      cases hret
      exact keeps_encodeHeader t tsOut withSymbol self h
  | encodeHeaderForSchema version schema tsOut withSymbol =>
      cases hret
      exact keeps_encodeHeaderForSchema version schema tsOut withSymbol self h
  | flush =>
      cases hret
      exact keeps_flush self h

omit [DebugRecord] [TimeFormat] [JsonWriter] in
theorem settled_build [CalendarDate T] {b : DynEncoderBuilder W T}
    {self : DynEncoder W C} (h : b.build = Res.ok self) : Settled self := by
  unfold DynEncoderBuilder.build at h
  cases hencoding : b.encoding with
  | dbn =>
      rw [hencoding] at h
      rcases Res.bind_eq_ok.mp h with ⟨_, _, hself⟩
      cases hself
      trivial
  | csv =>
      rw [hencoding] at h
      have hbuild : exists encoder : CsvEncoder.Encoder C,
          b.csvBuilder.build = (Res.ok (), encoder) ∧
            CsvEncoder.Built b.csvBuilder encoder :=
        CsvEncoder.build_eq b.csvBuilder
      rcases hbuild with ⟨enc, hbuild, hbuilt⟩
      rcases Res.bind_eq_ok.mp h with ⟨_, _, hself⟩
      rw [hbuild] at hself
      cases hself
      intro hpending
      by_cases hleft : b.csvBuilder.Pending
      · exact (hbuilt.pending hleft).1
      · have hwritten := hbuilt.ready hleft
        rw [hwritten] at hpending
        cases hpending
  | json =>
      rw [hencoding] at h
      cases h
      trivial

theorem Reached.settled {self : DynEncoder W C} (h : Reached self) :
    Settled self := by
  induction h with
  | build built => exact settled_build built
  | request reached r ret ih => exact settled_request r _ _ ih ret

/-!
## When the operations are those of the wrapped encoder
-/

/-- The bytes that were written, or the rows of a CSV writer. -/
def written : DynEncoder W C -> W ⊕ Rows
  | ⟨.dbn enc⟩ => .inl enc.writer
  | ⟨.csv enc⟩ => .inr (CsvEncoder.rowsOf enc)
  | ⟨.json enc⟩ => .inl enc.writer

/-- Both calls return `Ok`, or both an error, with the same output. -/
inductive Same : Outcome (Result Unit × DynEncoder W C) ->
    Outcome (Result Unit × DynEncoder W C) -> Prop where
  | ret {res res' : Result Unit} {self self' : DynEncoder W C}
      (result : SameResult res res') (output : self.written = self'.written) :
      Same (.ret (res, self)) (.ret (res', self'))
  | panic (p : Panic) : Same (.panic p) (.panic p)
  | timeout : Same .timeout .timeout

omit [FlushWrite W] [DebugRecord] [TimeFormat] [JsonWriter] in
theorem Same.of_eq {out out' : Outcome (Result Unit × DynEncoder W C)}
    (h : out = out') : Same out out' := by
  rw [h]
  cases out' with
  | ret out => exact Same.ret (SameResult.refl _) rfl
  | panic p => exact Same.panic p
  | timeout => exact Same.timeout

omit [FlushWrite W] [DebugRecord] [TimeFormat] [JsonWriter] in
theorem same_csv_iff {out out' : Result Unit × CsvEncoder.Encoder C} :
    Same (wrapped (fun enc => (⟨.csv enc⟩ : DynEncoder W C)) (.ret out))
        (wrapped (fun enc => ⟨.csv enc⟩) (.ret out')) <->
      CsvEncoder.Alike out' out := by
  constructor
  · intro h
    cases h with
    | ret result output => exact ⟨result.symm, (Sum.inr.inj output).symm⟩
  · intro h
    exact Same.ret h.1.symm (congrArg Sum.inr h.2.symm)

/-- A decoder that answers every call, asked as often as the limit allows. -/
def Answered : Operation -> Prop
  | .encodeDecodedWithLimit decode rounds _ _ limit =>
      (forall d, decode d ≠ .timeout) ∧ limit.val.toNat ≤ rounds
  | _ => True

/--
With a limit, and for CSV only: without a schema, the first answer of the
decoder is an error or a record of an unknown type.  With one, no header was
written and none has a `ts_out` column, the first record has the columns of
the schema, and no record of another known type is reached.
-/
def Agrees (self : DynEncoder W C) (op : Operation) : Prop :=
  match self, op with
  | ⟨.csv enc⟩, .encodeDecodedWithLimit decode _ metadata decoder limit =>
      let records := taken decode limit.val.toNat decoder
      match metadata.schema with
      | none =>
          match records with
          | [] => (ending decode limit.val.toNat decoder).IsErr
          | first :: _ => exists e, HasRtype.rtype first = Except.error e
      | some schema =>
          enc.hasWrittenHeader = false ∧ metadata.tsOut = false ∧
            (exists first, first ∈ records.head? ∧
              HasRtype.rtype first = Except.ok (RType.fromSchema schema) ∧
              CsvEncoder.leastSize schema ≤ recordSize first.bytes) ∧
            CsvEncoder.Unmixed schema records
  | _, _ => True

theorem same_withLimit_csv_iff (hdecode : forall d, decode d ≠ .timeout)
    (hrounds : limit.val.toNat ≤ rounds) {enc : CsvEncoder.Encoder C}
    (hsettled : CsvEncoder.Settled enc) :
    Same
        ((Operation.encodeDecodedWithLimit decode rounds metadata d limit).run
          (⟨.csv enc⟩ : DynEncoder W C))
        (onWrapped (.encodeDecodedWithLimit decode rounds metadata d limit)
          ⟨.csv enc⟩) <->
      Agrees (⟨.csv enc⟩ : DynEncoder W C)
        (.encodeDecodedWithLimit decode rounds metadata d limit) := by
  rw [run_withLimit_csv hdecode hrounds]
  change Same _ (wrapped (fun enc => (⟨.csv enc⟩ : DynEncoder W C))
    (CsvEncoder.encodeDecodedWithLimit DebugRecord.record decode rounds
      metadata d limit enc)) <-> _
  unfold Agrees
  dsimp only
  cases hschema : metadata.schema with
  | none =>
      have hrefused : CsvEncoder.encodeDecodedWithLimit DebugRecord.record
          decode rounds metadata d limit enc =
            .ret (Res.err (Error.encode
              "can't encode a CSV with mixed schemas"), enc) := by
        unfold CsvEncoder.encodeDecodedWithLimit
        rw [hschema]
      rw [hrefused, same_csv_iff]
      exact CsvEncoder.alike_refusal_iff _ hsettled _ _ _ _
  | some schema =>
      rw [CsvEncoder.encodeDecodedWithLimit_eq hdecode hrounds hschema,
        same_csv_iff]
      exact CsvEncoder.alike_defaultBody_iff _ hsettled _ _ _ _

/--
An operation of an encoder whose encoding is set at runtime is the one of the
encoder that it wraps, but for the exceptions with a limit and CSV.
-/
theorem same_onWrapped_iff {self : DynEncoder W C} (hreached : Reached self)
    {op : Operation} (hop : Answered op) :
    Same (op.run self) (onWrapped op self) <-> Agrees self op := by
  have hsettled := hreached.settled
  have hforwarded : op.run self = onWrapped op self -> Agrees self op ->
      (Same (op.run self) (onWrapped op self) <-> Agrees self op) :=
    fun heq hagrees => ⟨fun _ => hagrees, fun _ => Same.of_eq heq⟩
  rcases self with ⟨impl⟩
  cases op with
  | encodeRecords t tsOut records =>
      apply hforwarded (run_encodeRecords t tsOut records _)
      cases impl <;> trivial
  | encodeStream next rounds t tsOut stream =>
      apply hforwarded (run_encodeStream next rounds t tsOut stream _)
      cases impl <;> trivial
  | encodeDecoded decode rounds metadata decoder =>
      apply hforwarded (run_encodeDecoded _)
      cases impl <;> trivial
  | encodeDecodedWithLimit decode rounds metadata decoder limit =>
      cases impl with
      | dbn enc => exact hforwarded (run_withLimit_dbn enc) trivial
      | json enc => exact hforwarded (run_withLimit_json enc) trivial
      | csv enc => exact same_withLimit_csv_iff hop.1 hop.2 hsettled

end Operations

/-!
## A record of another type with a limit
-/

section Example

open CsvEncoder (ofList ohlcvRecord ohlcvMetadata one)

/-- No timestamp is formatted here. -/
local instance : TimeFormat where
  format _ := none

local instance : DebugRecord where
  record _ _ _ := ""
  recordRef _ := ""
  symbol _ := ""

local instance : JsonWriter where
  json _ _ := []

/-- An output that nothing is kept of. -/
local instance : FlushWrite Unit where
  writeAll _ _ := (Except.ok (), ())
  flush _ := (Except.ok (), ())

/-- Metadata of records with several schemas. -/
def mixedMetadata : Metadata GregorianDate where
  version := dbnVersion
  dataset := ⟨[], isUtf8_nil⟩
  schema := none
  start := 0
  endTs := none
  limit := none
  stypeIn := none
  stypeOut := .instrumentId
  tsOut := false
  symbolCstrLen := symbolCstrLenV3
  symbols := []
  partialSymbols := []
  notFound := []
  mappings := []

/-- `DynEncoder::builder(w, Encoding::Csv, .., &metadata).build()`. -/
def csvEncoder : DynEncoder Unit Rows :=
  ⟨.csv ⟨Rows.empty, false, false, false⟩⟩

theorem reached_csvEncoder : Reached csvEncoder :=
  Reached.build (b := DynEncoderBuilder.new () .csv mixedMetadata) rfl

theorem answers_ofList (d : List RecordRef) : ofList d ≠ .timeout := by
  cases d <;> exact fun h => by cases h

/-- `encode_decoded_with_limit` of records with the schema `Ohlcv1S`. -/
def withLimitOne (records : List RecordRef) : Operation :=
  .encodeDecodedWithLimit ofList 1 ohlcvMetadata records one

theorem same_onWrapped_iff_ohlcvRecord :
    Same ((withLimitOne [ohlcvRecord]).run csvEncoder)
        (onWrapped (withLimitOne [ohlcvRecord]) csvEncoder) <->
      Agrees csvEncoder (withLimitOne [ohlcvRecord]) :=
  same_onWrapped_iff reached_csvEncoder
    ⟨answers_ofList, show one.val.toNat ≤ 1 from Nat.le_refl 1⟩

/-- An `OhlcvMsg` for a minute. -/
def minuteRecord : RecordRef :=
  ⟨[14, 0x21] ++ List.replicate 54 0⟩

/-- The record of another type is written, and refused by the CSV encoder. -/
theorem not_same_minuteRecord :
    Reached csvEncoder ∧ Answered (withLimitOne [minuteRecord]) ∧
    (exists self, (withLimitOne [minuteRecord]).run csvEncoder =
      .ret (Res.ok (), self)) ∧
    ¬ Same ((withLimitOne [minuteRecord]).run csvEncoder)
      (onWrapped (withLimitOne [minuteRecord]) csvEncoder) := by
  have hrounds : one.val.toNat ≤ 1 := Nat.le_refl 1
  have hrtype : HasRtype.rtype minuteRecord =
      Except.ok (RType.fromSchema .ohlcv1M) := rfl
  refine ⟨reached_csvEncoder, ⟨answers_ofList, hrounds⟩, ?_, ?_⟩
  · have hrun : (withLimitOne [minuteRecord]).run csvEncoder =
        wrapped (fun enc => ⟨.csv enc⟩)
          (.ret (CsvEncoder.defaultBody DebugRecord.record false
            [minuteRecord] (Res.ok ()) ⟨Rows.empty, false, false, false⟩)) :=
      run_withLimit_csv answers_ofList hrounds _
    rcases CsvEncoder.defaultBody_single DebugRecord.record
      reached_csvEncoder.settled rfl hrtype (by decide) with ⟨enc, hret⟩
    rw [hrun, hret]
    exact ⟨⟨.csv enc⟩, rfl⟩
  · intro hsame
    have hagrees : Agrees csvEncoder (withLimitOne [minuteRecord]) :=
      (same_withLimit_csv_iff answers_ofList hrounds
        reached_csvEncoder.settled).mp hsame
    rcases hagrees with ⟨_, _, ⟨first, hfirst, htype, _⟩, _⟩
    cases hfirst
    rw [hrtype] at htype
    cases htype

end Example
end DynEncoder
end Dbn
