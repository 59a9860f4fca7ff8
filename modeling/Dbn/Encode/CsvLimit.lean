import Dbn.Encode.CsvRows

/-!
# Encoding with a limit

With and without a limit the CSV encoder runs the same loop.  The header makes
the difference: with a limit it is always written, and only for the current
struct of the schema without `ts_out`.
-/

namespace Dbn
namespace CsvEncoder

open Lib
open Lib.WriteM (forEach)

variable {V W D T : Type}

/-!
## Outputs
-/

namespace EncoderBuilder

/-- The rows that a call leaves behind, from the builder on. -/
def output [RowWriter V W] (self : EncoderBuilder V) (run : Run W) :
    Outcome Rows :=
  match (self.build : Result Unit × Encoder W) with
  | (Res.ok (), encoder) => do
      let (_, encoder) ← run encoder
      .ret (rowsOf encoder)
  | (_, encoder) => .ret (rowsOf encoder)

/-- The header is left to the first record. -/
def Pending (self : EncoderBuilder V) : Prop :=
  self.writeHeader = true ∧ self.schema = none

/-- The number of headers that the configuration asks for. -/
def headerRows (self : EncoderBuilder V) : Nat :=
  if self.writeHeader then 1 else 0

end EncoderBuilder

/-- The rows of column names for a schema. -/
def IsHeader (schema : Schema) (row : Row) : Prop :=
  exists t, t ∈ schema.structs ∧
    exists tsOut withSymbol, row = headerRow t tsOut withSymbol

/--
The output with a limit is the one without, cut after as many records.  No
header is written twice, and it has as many columns as every row.
-/
structure LimitIsPrefix (b : EncoderBuilder V) (schema : Schema) (n : Nat)
    (full limited : Rows) : Prop where
  eq_cut : limited = full.cut (b.headerRows + n)
  once : forall row, row ∈ limited.ended.drop b.headerRows ->
    ¬ IsHeader schema row
  columns : forall row row', row ∈ limited.ended -> row' ∈ limited.ended ->
    row.length = row'.length

/-- The size of the smallest struct with the columns of the current one. -/
def leastSize : Schema -> Nat
  | .statistics => RecordStruct.statV1.size
  | schema => schema.dispatch.size

/-!
## Building the encoder
-/

variable [RowWriter V W]

/-- The first row of an output is never refused. -/
theorem encodeHeader_of_empty {self : Encoder W}
    (hempty : rowsOf self = Rows.empty) (t : RecordType)
    (tsOut withSymbol : Bool) :
    exists self', encodeHeader t tsOut withSymbol self = (Res.ok (), self') ∧
      rowsOf self' = ⟨[headerRow t tsOut withSymbol], []⟩ ∧
      self'.hasWrittenHeader = true := by
  have hclosed : (rowsOf self).row = [] := by
    rw [hempty]
    rfl
  rcases rowWritten_encodeHeader t tsOut withSymbol hclosed with
    ⟨hrow, hwritten⟩
  generalize encodeHeader t tsOut withSymbol self = out at hrow hwritten
  cases hrow with
  | ended fits rows =>
      refine ⟨_, rfl, ?_, hwritten _ rfl⟩
      rw [rows, hempty]
      rfl
  | refused unfit rows =>
      exfalso
      apply unfit
      intro first hfirst
      rw [hempty] at hfirst
      cases hfirst

theorem encodeHeaderForSchema_of_empty {self : Encoder W}
    (hempty : rowsOf self = Rows.empty) (version : UInt8) (schema : Schema)
    (tsOut withSymbol : Bool) :
    exists self' row,
      encodeHeaderForSchema version schema tsOut withSymbol self =
        (Res.ok (), self') ∧
      rowsOf self' = ⟨[row], []⟩ ∧ self'.hasWrittenHeader = true := by
  have hcall : forall t, exists self' row,
      (encodeHeader t tsOut withSymbol >>= fun _ => setHasWrittenHeader)
        self = (Res.ok (), self') ∧
      rowsOf self' = ⟨[row], []⟩ ∧ self'.hasWrittenHeader = true := by
    intro t
    rcases encodeHeader_of_empty hempty t tsOut withSymbol with
      ⟨self', hret, hrows, hwritten⟩
    exact ⟨{ self' with hasWrittenHeader := true }, _,
      WriteM.bind_of_ok hret, hrows, rfl⟩
  unfold encodeHeaderForSchema
  split
  · exact hcall _
  · exact hcall _

/-- The encoder that `build` returns. -/
structure Built (b : EncoderBuilder V) (encoder : Encoder W) : Prop where
  closed : (rowsOf encoder).row = []
  pending : b.Pending ->
    rowsOf encoder = Rows.empty ∧ encoder.hasWrittenHeader = false
  ready : ¬ b.Pending -> encoder.hasWrittenHeader = true
  length : (rowsOf encoder).ended.length ≤ b.headerRows

theorem build_eq (b : EncoderBuilder V) :
    exists encoder : Encoder W, b.build = (Res.ok (), encoder) ∧
      Built b encoder := by
  have hfresh : forall written : Bool, rowsOf ({
      writer := CsvWriter.fromWriter b.delimiter b.writer
      hasWrittenHeader := written
      usePrettyPx := b.usePrettyPx
      usePrettyTs := b.usePrettyTs } : Encoder W) = Rows.empty :=
    fun _ => RowWriter.rows_fromWriter b.delimiter b.writer
  unfold EncoderBuilder.build
  dsimp only
  cases hheader : b.writeHeader with
  | false =>
      refine ⟨_, rfl, ?_, ?_, fun _ => rfl, ?_⟩
      · rw [hfresh]
        rfl
      · intro hpending
        rw [hpending.1] at hheader
        cases hheader
      · rw [hfresh]
        exact Nat.zero_le _
  | true =>
      have hone : b.headerRows = 1 := if_pos hheader
      rw [if_pos rfl]
      cases hschema : b.schema with
      | none =>
          refine ⟨_, rfl, ?_, ?_, ?_, ?_⟩
          · rw [hfresh]
            rfl
          · intro _
            exact ⟨hfresh false, rfl⟩
          · intro hpending
            exact absurd ⟨hheader, hschema⟩ hpending
          · rw [hfresh]
            exact Nat.zero_le _
      | some schema =>
          rcases encodeHeaderForSchema_of_empty (hfresh true) b.version schema
            b.tsOut b.withSymbol with ⟨encoder, row, hret, hrows, hwritten⟩
          refine ⟨encoder, hret, ?_, ?_, fun _ => hwritten, ?_⟩
          · rw [hrows]
          · intro hpending
            rw [hpending.2] at hschema
            cases hschema
          · rw [hrows, hone]
            exact Nat.le_refl 1

/-!
## The outputs as rows
-/

theorem limit_pos (limit : NonZeroU64) : 0 < limit.val.toNat := by
  apply Nat.pos_of_ne_zero
  intro hzero
  exact limit.property (UInt64.toNat.inj hzero)

section Limit

variable [TimeFormat] {debug : RecordType -> Bool -> List UInt8 -> String}
  {decode : Pull Error D RecordRef} {b : EncoderBuilder V}
  {metadata : Metadata T} {schema : Schema} {d : D} {rs : List RecordRef}
  {stop : Option Error} {rounds : Nat} {limit : NonZeroU64}
  {encoder : Encoder W}

theorem output_encodeDecoded (hbuild : b.build = (Res.ok (), encoder))
    (hschema : metadata.schema = some schema)
    (hreads : Reads decode d rs stop) (hrounds : rs.length < rounds) :
    b.output (encodeDecoded debug decode rounds metadata d : Run W) =
      .ret (rowsOf ((forEach
        (encodeOfRtype debug (RType.fromSchema schema) metadata.tsOut) rs >>=
          fun _ => finish stop) encoder).2) := by
  have hall := encodeAll_eq
    (encodeOfRtype debug (RType.fromSchema schema) metadata.tsOut)
    hreads hrounds encoder
  rcases andThen_flush hall with ⟨out, hret, hrows⟩
  have hcall : encodeDecoded debug decode rounds metadata d encoder =
      .ret out := by
    unfold encodeDecoded
    rw [hschema]
    exact hret
  unfold EncoderBuilder.output
  rw [hbuild]
  dsimp only
  rw [hcall, ← hrows]
  rfl

theorem output_encodeDecodedWithLimit
    (hbuild : b.build = (Res.ok (), encoder))
    (hschema : metadata.schema = some schema)
    (hreads : Reads decode d rs stop) (hrounds : rs.length < rounds)
    (hlimit : limit.val.toNat ≤ rs.length) :
    b.output (encodeDecodedWithLimit debug decode rounds metadata d limit :
        Run W) =
      .ret (rowsOf ((encodeHeader schema.dispatch false false >>= fun _ =>
        forEach (encodeOfRtype debug (RType.fromSchema schema) metadata.tsOut)
          (rs.take limit.val.toNat)) encoder).2) := by
  have hpos := limit_pos limit
  have hcall : exists out,
      encodeDecodedWithLimit debug decode rounds metadata d limit encoder =
        .ret out ∧
      rowsOf out.2 = rowsOf ((encodeHeader schema.dispatch false false >>=
        fun _ => forEach
          (encodeOfRtype debug (RType.fromSchema schema) metadata.tsOut)
          (rs.take limit.val.toNat)) encoder).2 := by
    unfold encodeDecodedWithLimit
    rw [hschema]
    show exists out, _ ∧ _ = rowsOf (WriteM.bind
      (encodeHeader schema.dispatch false false) _ encoder).2
    unfold WriteM.bind
    dsimp only
    generalize encodeHeader schema.dispatch false false encoder = out
    rcases out with ⟨res, self⟩
    cases res with
    | err e => exact ⟨_, rfl, rfl⟩
    | panic p => exact ⟨_, rfl, rfl⟩
    | ok a =>
        have hloop := encodeUpTo_eq
          (encodeOfRtype debug (RType.fromSchema schema) metadata.tsOut)
          hreads (i := 0) hpos hlimit hrounds self
        rw [Nat.zero_add] at hloop
        exact andThen_flush hloop
  rcases hcall with ⟨out, hret, hrows⟩
  unfold EncoderBuilder.output
  rw [hbuild]
  dsimp only
  rw [hret, ← hrows]
  rfl

/-!
## Records with the columns of the header
-/

omit [RowWriter V W] [TimeFormat] in
/-- A record that fits a struct with the columns of the current one. -/
theorem leastSize_le_iff {record : RecordRef} :
    leastSize schema ≤ recordSize record.bytes <->
      record.Fits (RType.fromSchema schema) false ∧
        ((RType.fromSchema schema).dispatch
          (recordSize record.bytes)).serializeHeader false =
          schema.dispatch.serializeHeader false := by
  unfold RecordRef.Fits tsOutLen
  generalize recordSize record.bytes = n
  by_cases hdefinition : schema = .definition
  · constructor
    · intro h
      have hcurrent : (RType.fromSchema schema).dispatch n =
          schema.dispatch := by
        rw [hdefinition] at h ⊢
        have hge : 520 ≤ n := by
          simpa [leastSize, Schema.dispatch] using h
        unfold RType.fromSchema RType.dispatch Schema.dispatch
        dsimp only
        rw [if_neg (by simp; omega), if_neg (by simp; omega)]
      rw [hcurrent]
      refine ⟨?_, rfl⟩
      rw [hdefinition] at h ⊢
      exact h
    · intro h
      have hsize := RecordType.dispatch_size_of_serializeHeader_eq h.2
        hdefinition
      rw [hdefinition]
      exact hsize
  by_cases hstatistics : schema = .statistics
  · rw [hstatistics]
    simp only [leastSize, RType.fromSchema, RType.dispatch, Schema.dispatch]
    split
    · rw [RecordType.serializeHeader_statV1]
      simp
    · next hlt =>
        simp at hlt
        simp
        omega
  · rw [Schema.dispatch_of_not_versioned hdefinition hstatistics]
    have hleast : leastSize schema = schema.dispatch.size := by
      cases schema <;> first | rfl | contradiction
    rw [hleast]
    simp

/-!
## The first line after the headers
-/

section Lines

variable {rtype : RType} {tsOut : Bool} {record : RecordRef}

/-- With a limit a header comes first. -/
theorem lines_withLimit
    (debug : RecordType -> Bool -> List UInt8 -> String) (tsOut : Bool)
    (hclosed : (rowsOf encoder).row = [])
    (t : RecordType) (hrtype : forall record, record ∈ rs ->
      HasRtype.rtype record = Except.ok rtype) :
    (rowsOf ((encodeHeader t false false >>= fun _ =>
      forEach (encodeOfRtype debug rtype tsOut) rs) encoder).2).lines[
        (rowsOf encoder).ended.length]? = some (headerRow t false false) := by
  rcases rowWritten_encodeHeader t false false hclosed with ⟨hrow, hwritten⟩
  have hline := hrow.lines_eq
  show (rowsOf (WriteM.bind (encodeHeader t false false)
    (fun _ => forEach (encodeOfRtype debug rtype tsOut) rs)
    encoder).2).lines[_]? = _
  unfold WriteM.bind
  generalize encodeHeader t false false encoder = out at hrow hwritten hline
  cases hrow with
  | refused unfit rows => exact hline
  | @ended self' fits rows =>
      have hready : Ready self' := ⟨by rw [rows], hwritten self' rfl⟩
      have hadds : Adds (IsRecordRow rtype tsOut) rs.length self'
          (forEach (encodeOfRtype debug rtype tsOut) rs self') :=
        adds_forEach hready hrtype
      rcases hadds.added with ⟨added, hadded⟩
      dsimp only
      rw [hadded.grows.lines_eq, hline]
      rw [rows, List.length_append]
      exact Nat.lt_succ_self _

/-- Without a limit a record comes first, or the header for its struct. -/
theorem lines_withoutLimit
    (debug : RecordType -> Bool -> List UInt8 -> String) (tsOut : Bool)
    (stop : Option Error) {rest : List RecordRef} (hbuilt : Built b encoder)
    (hrtype : forall r, r ∈ record :: rest ->
      HasRtype.rtype r = Except.ok rtype) :
    exists row,
      (rowsOf ((forEach (encodeOfRtype debug rtype tsOut) (record :: rest) >>=
        fun _ => finish stop) encoder).2).lines[
          (rowsOf encoder).ended.length]? = some row ∧
      (row = [] ∨
        (exists prettyPx prettyTs, row =
          (rtype.dispatch (recordSize record.bytes)).serializeTo prettyPx
            prettyTs tsOut (structMemory record rtype tsOut)) ∨
        b.Pending ∧ record.Fits rtype tsOut ∧
          row = headerRow (rtype.dispatch (recordSize record.bytes)) tsOut
            false) := by
  have hrecord := hrtype record List.mem_cons_self
  by_cases hfits : record.Fits rtype tsOut
  · by_cases hpending : b.Pending
    · rcases hbuilt.pending hpending with ⟨hempty, hfalse⟩
      rcases encodeHeader_of_empty hempty
        (rtype.dispatch (recordSize record.bytes)) tsOut false with
        ⟨self', hheader, hrows, hwritten⟩
      have hready : Ready self' := ⟨by rw [hrows], hwritten⟩
      have hgrows : (rowsOf self').Grows (rowsOf ((forEach
          (encodeOfRtype debug rtype tsOut) (record :: rest) >>=
            fun _ => finish stop) self').2) := grows_forEach hready hrtype
      refine ⟨_, ?_, Or.inr (Or.inr ⟨hpending, hfits, rfl⟩)⟩
      rw [LoopM.forEach_cons_bind] at hgrows ⊢
      unfold WriteM.bind at hgrows ⊢
      rw [encodeOfRtype_of_pending hrecord hfits hfalse hheader hwritten,
        hgrows.lines_eq]
      · rw [hempty, hrows]
        rfl
      · rw [hempty, hrows]
        exact Nat.zero_lt_one
    · have hwritten := hbuilt.ready hpending
      rcases rowWritten_encodeRow debug
        (rtype.dispatch (recordSize record.bytes)) tsOut
        (structMemory record rtype tsOut) hbuilt.closed with
        ⟨w, res, hret, hrow⟩
      have hline := hrow.lines_eq
      refine ⟨_, ?_, Or.inr (Or.inl
        ⟨encoder.usePrettyPx, encoder.usePrettyTs, rfl⟩)⟩
      rw [LoopM.forEach_cons_bind]
      unfold WriteM.bind
      rw [encodeOfRtype_of_fits hrecord hfits,
        encodeRecord_of_written _ _ hwritten, hret]
      cases hrow with
      | refused unfit rows => exact hline
      | ended fits rows =>
          have hready : Ready { encoder with writer := w } :=
            ⟨by rw [rows], hwritten⟩
          have hgrows : (rowsOf { encoder with writer := w }).Grows
              (rowsOf ((forEach (encodeOfRtype debug rtype tsOut) rest >>=
                fun _ => finish stop) { encoder with writer := w }).2) :=
            grows_forEach hready
              (fun r hr => hrtype r (List.mem_cons_of_mem record hr))
          dsimp only
          rw [hgrows.lines_eq, hline]
          rw [rows, List.length_append]
          exact Nat.lt_succ_self _
  · refine ⟨[], ?_, Or.inl rfl⟩
    rw [LoopM.forEach_cons_bind]
    unfold WriteM.bind
    rw [encodeOfRtype_of_not_fits hrecord hfits]
    show (rowsOf encoder).lines[_]? = _
    unfold Rows.lines
    rw [hbuilt.closed]
    simp

end Lines

/-!
## The output with a limit
-/

omit [RowWriter V W] [TimeFormat] in
theorem headerRow_eq (t : RecordType) (tsOut : Bool) :
    headerRow t tsOut false = t.serializeHeader tsOut :=
  List.append_nil _

omit [RowWriter V W] in
/-- No row of a record is a row of names. -/
theorem not_isHeader_of_isRecordRow {row : Row}
    (hrow : IsRecordRow (RType.fromSchema schema) false row)
    (hlen : row.length = (schema.dispatch.serializeHeader false).length) :
    ¬ IsHeader schema row := by
  intro hheader
  rcases hrow with ⟨size, prettyPx, prettyTs, memory, hrow⟩
  rcases hheader with ⟨t, ht, tsOut, withSymbol, hheader⟩
  have hcolumns : (schema.dispatch.serializeHeader false).length =
      (((RType.fromSchema schema).dispatch size).serializeHeader
        false).length + 0 := by
    rw [← hlen, hrow, RecordType.length_serializeTo, Nat.add_zero]
  have hnames : (schema.dispatch.serializeHeader false).length =
      (t.serializeHeader tsOut).length + if withSymbol then 1 else 0 := by
    rw [← hlen, hheader]
    unfold headerRow
    rw [List.length_append]
    cases withSymbol <;> rfl
  rcases RecordType.serializeHeader_eq_of_length 0
    (Schema.dispatch_mem_structs schema size) (Nat.zero_le 1) hcolumns with
    ⟨_, _, heq⟩
  rcases RecordType.serializeHeader_eq_of_length _ ht
    (by cases withSymbol <;> decide) hnames with ⟨htsOut, hsymbol, heq'⟩
  cases withSymbol with
  | true => cases hsymbol
  | false =>
      rw [headerRow_eq, htsOut, heq', ← heq, hrow] at hheader
      exact RecordType.serializeTo_ne_serializeHeader _ _ _ _ _ hheader

/-- The first record asks for the header of the schema. -/
theorem forEach_of_header {first : RecordRef} {rest : List RecordRef}
    {self : Encoder W}
    (hrtype : HasRtype.rtype first = Except.ok (RType.fromSchema schema))
    (hfirst : leastSize schema ≤ recordSize first.bytes)
    (hfalse : encoder.hasWrittenHeader = false)
    (hheader : encodeHeader schema.dispatch false false encoder =
      (Res.ok (), self))
    (hwritten : self.hasWrittenHeader = true) (next : Call W Unit) :
    (forEach (encodeOfRtype debug (RType.fromSchema schema) false)
        (first :: rest) >>= fun _ => next) encoder =
      (forEach (encodeOfRtype debug (RType.fromSchema schema) false)
        (first :: rest) >>= fun _ => next) self := by
  rcases leastSize_le_iff.mp hfirst with ⟨hfits, hcolumns⟩
  have hheader' : encodeHeader ((RType.fromSchema schema).dispatch
      (recordSize first.bytes)) false false encoder = (Res.ok (), self) := by
    rw [← hheader]
    unfold encodeHeader
    rw [headerRow_eq, headerRow_eq, hcolumns]
  rw [LoopM.forEach_cons_bind, LoopM.forEach_cons_bind]
  unfold WriteM.bind
  rw [encodeOfRtype_of_pending hrtype hfits hfalse hheader' hwritten]

/-- The rows below a header are as long as it, and none of them is a header. -/
theorem rows_below_header {before after : Rows} {added : List Row}
    (hbefore : before = ⟨[headerRow schema.dispatch false false], []⟩)
    (hadded : Added (IsRecordRow (RType.fromSchema schema) false) before after
      added) :
    (forall row, row ∈ after.ended.drop 1 -> ¬ IsHeader schema row) ∧
      forall row, row ∈ after.ended ->
        row.length = (schema.dispatch.serializeHeader false).length := by
  have hended := hadded.ended
  rw [hbefore] at hended
  have hlen : forall row, row ∈ added ->
      row.length = (schema.dispatch.serializeHeader false).length := by
    intro row hrow
    have hfits := (hadded.rows row hrow).2 (headerRow schema.dispatch false
      false) (by rw [hended]; rfl)
    rw [← hfits, headerRow_eq]
  rw [hended]
  constructor
  · intro row hrow
    exact not_isHeader_of_isRecordRow (hadded.rows row hrow).1 (hlen row hrow)
  · intro row hrow
    cases List.mem_cons.mp hrow with
    | inl heq => rw [heq, headerRow_eq]
    | inr hrow => exact hlen row hrow

theorem limitIsPrefix_of_pending {first : RecordRef}
    {rest : List RecordRef} (hbuilt : Built b encoder) (hpending : b.Pending)
    (hrtype : forall r, r ∈ first :: rest ->
      HasRtype.rtype r = Except.ok (RType.fromSchema schema))
    (hfirst : leastSize schema ≤ recordSize first.bytes) {n : Nat}
    (hn : n ≤ (first :: rest).length) :
    LimitIsPrefix b schema n
      (rowsOf ((forEach (encodeOfRtype debug (RType.fromSchema schema) false)
        (first :: rest) >>= fun _ => finish stop) encoder).2)
      (rowsOf ((encodeHeader schema.dispatch false false >>= fun _ =>
        forEach (encodeOfRtype debug (RType.fromSchema schema) false)
          ((first :: rest).take n)) encoder).2) := by
  rcases hbuilt.pending hpending with ⟨hempty, hfalse⟩
  rcases encodeHeader_of_empty hempty schema.dispatch false false with
    ⟨self, hheader, hrows, hwritten⟩
  have hready : Ready self := ⟨by rw [hrows], hwritten⟩
  have hone : b.headerRows = 1 := if_pos hpending.1
  have hlimited : (encodeHeader schema.dispatch false false >>= fun _ =>
      forEach (encodeOfRtype debug (RType.fromSchema schema) false)
        ((first :: rest).take n)) encoder =
      forEach (encodeOfRtype debug (RType.fromSchema schema) false)
        ((first :: rest).take n) self := WriteM.bind_of_ok hheader
  have hfull : (forEach (encodeOfRtype debug (RType.fromSchema schema) false)
      (first :: rest) >>= fun _ => finish stop) encoder =
      (forEach (encodeOfRtype debug (RType.fromSchema schema) false)
        (first :: rest) >>= fun _ => finish stop) self :=
    forEach_of_header (hrtype first List.mem_cons_self) hfirst hfalse hheader
      hwritten (finish stop)
  rw [hlimited, hfull]
  have htake : forall r, r ∈ (first :: rest).take n ->
      HasRtype.rtype r = Except.ok (RType.fromSchema schema) :=
    fun r hr => hrtype r (List.mem_of_mem_take hr)
  have hadds : Adds (IsRecordRow (RType.fromSchema schema) false) n self
      (forEach (encodeOfRtype debug (RType.fromSchema schema) false)
        ((first :: rest).take n) self) := by
    have h : Adds (IsRecordRow (RType.fromSchema schema) false)
        ((first :: rest).take n).length self
        (forEach (encodeOfRtype debug (RType.fromSchema schema) false)
          ((first :: rest).take n) self) := adds_forEach hready htake
    rw [List.length_take, Nat.min_eq_left hn] at h
    exact h
  rcases hadds.added with ⟨added, hadded⟩
  rcases rows_below_header hrows hadded with ⟨hbelow, hlen⟩
  constructor
  · have hcut := hadds.cut_bind (y := forEach (encodeOfRtype debug
      (RType.fromSchema schema) false) ((first :: rest).drop n) >>=
        fun _ => finish stop) (by
        intro self' hready'
        apply grows_forEach hready'
        intro r hr
        exact hrtype r (List.mem_of_mem_drop hr))
    rw [← forEach_append, List.take_append_drop, hrows] at hcut
    rw [hone]
    exact hcut.symm
  · rw [hone]
    exact hbelow
  · intro row row' hrow hrow'
    rw [hlen row hrow, hlen row' hrow']

/-- The outputs begin alike only where the header is the one of the records. -/
theorem pending_of_lines_eq {first : RecordRef} {rest : List RecordRef}
    {tsOut : Bool} (hbuilt : Built b encoder)
    (hrtype : forall r, r ∈ first :: rest ->
      HasRtype.rtype r = Except.ok (RType.fromSchema schema))
    (h : (rowsOf ((forEach
        (encodeOfRtype debug (RType.fromSchema schema) tsOut)
          (first :: rest) >>= fun _ => finish stop) encoder).2).lines[
            (rowsOf encoder).ended.length]? =
      some (headerRow schema.dispatch false false)) :
    b.Pending ∧ tsOut = false ∧
      leastSize schema ≤ recordSize first.bytes := by
  rcases lines_withoutLimit debug tsOut stop hbuilt hrtype with ⟨row, hline, hrow⟩
  rw [h] at hline
  cases hline
  rw [headerRow_eq] at hrow
  have hmem := Schema.dispatch_mem_structs schema (recordSize first.bytes)
  rcases hrow with hnil | ⟨prettyPx, prettyTs, hrecord⟩ |
    ⟨hpending, hfits, hheader⟩
  · exfalso
    exact RecordType.serializeHeader_ne_nil _ _ hnil
  · exfalso
    have hlen := congrArg List.length hrecord
    rw [RecordType.length_serializeTo] at hlen
    rcases RecordType.serializeHeader_eq_of_length 0 hmem (Nat.zero_le 1)
      hlen with ⟨htsOut, _, heq⟩
    rw [htsOut, ← heq] at hrecord
    exact RecordType.serializeTo_ne_serializeHeader _ _ _ _ _ hrecord.symm
  · rw [headerRow_eq] at hheader
    have hlen := congrArg List.length hheader
    rcases RecordType.serializeHeader_eq_of_length 0 hmem (Nat.zero_le 1)
      hlen with ⟨htsOut, _, heq⟩
    rw [htsOut] at hfits
    exact ⟨hpending, htsOut, leastSize_le_iff.mpr ⟨hfits, heq⟩⟩

/-- What must hold for the outputs to agree. -/
theorem pending_of_limitIsPrefix (hschema : metadata.schema = some schema)
    (hreads : Reads decode d rs stop) (hrounds : rs.length < rounds)
    (hrtype : forall r, r ∈ rs ->
      HasRtype.rtype r = Except.ok (RType.fromSchema schema))
    (hlimit : limit.val.toNat ≤ rs.length) {full limited : Rows}
    (hfull : b.output (encodeDecoded debug decode rounds metadata d : Run W) =
      .ret full)
    (hlimited : b.output (encodeDecodedWithLimit debug decode rounds metadata d
      limit : Run W) = .ret limited)
    (h : LimitIsPrefix b schema limit.val.toNat full limited) :
    b.Pending ∧ metadata.tsOut = false ∧ exists first, first ∈ rs.head? ∧
      leastSize schema ≤ recordSize first.bytes := by
  have hpos := limit_pos limit
  have hbuild : exists encoder : Encoder W, b.build = (Res.ok (), encoder) ∧
      Built b encoder := build_eq b
  rcases hbuild with ⟨encoder, hbuild, hbuilt⟩
  rw [output_encodeDecoded hbuild hschema hreads hrounds] at hfull
  rw [output_encodeDecodedWithLimit hbuild hschema hreads hrounds hlimit]
    at hlimited
  cases hfull
  cases hlimited
  cases rs with
  | nil => exact absurd (Nat.lt_of_lt_of_le hpos hlimit) (Nat.lt_irrefl 0)
  | cons first rest =>
      have htake : forall r, r ∈ (first :: rest).take limit.val.toNat ->
          HasRtype.rtype r = Except.ok (RType.fromSchema schema) :=
        fun r hr => hrtype r (List.mem_of_mem_take hr)
      have hline := lines_withLimit debug metadata.tsOut hbuilt.closed
        schema.dispatch htake
      rw [h.eq_cut, Rows.lines_cut] at hline
      · rcases pending_of_lines_eq hbuilt hrtype hline with
          ⟨hpending, htsOut, hfirst⟩
        exact ⟨hpending, htsOut, first, rfl, hfirst⟩
      · exact Nat.lt_of_le_of_lt hbuilt.length
          (Nat.lt_add_of_pos_right hpos)

/--
The output with a limit is cut from the one without exactly when the header is
left to the first record and is the one of the current struct.
-/
theorem limitIsPrefix_iff (hschema : metadata.schema = some schema)
    (hreads : Reads decode d rs stop) (hrounds : rs.length < rounds)
    (hrtype : forall r, r ∈ rs ->
      HasRtype.rtype r = Except.ok (RType.fromSchema schema))
    (hlimit : limit.val.toNat ≤ rs.length) :
    (exists full limited,
      b.output (encodeDecoded debug decode rounds metadata d : Run W) =
        .ret full ∧
      b.output (encodeDecodedWithLimit debug decode rounds metadata d limit :
        Run W) = .ret limited ∧
      LimitIsPrefix b schema limit.val.toNat full limited) <->
      b.writeHeader = true ∧ b.schema = none ∧ metadata.tsOut = false ∧
        exists first, first ∈ rs.head? ∧
          leastSize schema ≤ recordSize first.bytes := by
  constructor
  · rintro ⟨full, limited, hfull, hlimited, h⟩
    rcases pending_of_limitIsPrefix hschema hreads hrounds hrtype hlimit hfull
      hlimited h with ⟨hpending, hrest⟩
    exact ⟨hpending.1, hpending.2, hrest⟩
  · rintro ⟨hwrite, hnone, htsOut, first, hhead, hfirst⟩
    have hbuild : exists encoder : Encoder W,
        b.build = (Res.ok (), encoder) ∧ Built b encoder := build_eq b
    rcases hbuild with ⟨encoder, hbuild, hbuilt⟩
    refine ⟨_, _, output_encodeDecoded hbuild hschema hreads hrounds,
      output_encodeDecodedWithLimit hbuild hschema hreads hrounds hlimit, ?_⟩
    rw [htsOut]
    cases rs with
    | nil => cases hhead
    | cons record rest =>
        cases hhead
        exact limitIsPrefix_of_pending hbuilt ⟨hwrite, hnone⟩ hrtype hfirst
          hlimit

end Limit

/-!
## A header at the build and another one
-/

section Example

/-- No timestamp is formatted here. -/
local instance : TimeFormat where
  format _ := none

/-- A decoder of the records of a list. -/
def ofList : Pull Error (List RecordRef) RecordRef
  | [] => .ret (Except.ok none, [])
  | record :: rest => .ret (Except.ok (some record), rest)

theorem reads_ofList (rs : List RecordRef) : Reads ofList rs rs none := by
  induction rs with
  | nil => exact Reads.done rfl
  | cons record rest ih => exact Reads.item rfl ih

/-- An `OhlcvMsg` for a second. -/
def ohlcvRecord : RecordRef :=
  ⟨[14, 0x20] ++ List.replicate 54 0⟩

def ohlcvMetadata : Metadata Unit where
  version := dbnVersion
  dataset := ⟨[], isUtf8_nil⟩
  schema := some .ohlcv1S
  start := 0
  endTs := none
  limit := none
  stypeIn := none
  stypeOut := .instrumentId
  tsOut := false
  symbolCstrLen := symbolCstrLenV3
  symbols := []
  partialSymbols := []
  notFound := []
  mappings := []

theorem uint64_one_ne_zero : (1 : UInt64) ≠ 0 := by
  decide

def one : NonZeroU64 :=
  ⟨1, uint64_one_ne_zero⟩

theorem rtype_ohlcvRecord (r : RecordRef) (hr : r ∈ [ohlcvRecord]) :
    HasRtype.rtype r = Except.ok (RType.fromSchema .ohlcv1S) := by
  rw [List.mem_singleton.mp hr]
  rfl

/-- `builder(w).schema(Some(Schema::Ohlcv1S)).build()` writes a header. -/
theorem not_limitIsPrefix_schema :
    ¬ exists full limited,
      { EncoderBuilder.new () with schema := some .ohlcv1S }.output
        (encodeDecoded (fun _ _ _ => "") ofList 2 ohlcvMetadata
          [ohlcvRecord] : Run Rows) = .ret full ∧
      { EncoderBuilder.new () with schema := some .ohlcv1S }.output
        (encodeDecodedWithLimit (fun _ _ _ => "") ofList 2 ohlcvMetadata
          [ohlcvRecord] one : Run Rows) = .ret limited ∧
      LimitIsPrefix { EncoderBuilder.new () with schema := some .ohlcv1S }
        .ohlcv1S one.val.toNat full limited := by
  rintro ⟨full, limited, hfull, hlimited, h⟩
  have hlimit : one.val.toNat ≤ [ohlcvRecord].length := Nat.le_refl 1
  have hpending := pending_of_limitIsPrefix rfl (reads_ofList _)
    (by decide) rtype_ohlcvRecord hlimit hfull hlimited h
  cases hpending.1.2

theorem limitIsPrefix_iff_ohlcvRecord :
    (exists full limited,
      (EncoderBuilder.new ()).output
        (encodeDecoded (fun _ _ _ => "") ofList 2 ohlcvMetadata
          [ohlcvRecord] : Run Rows) = .ret full ∧
      (EncoderBuilder.new ()).output
        (encodeDecodedWithLimit (fun _ _ _ => "") ofList 2 ohlcvMetadata
          [ohlcvRecord] one : Run Rows) = .ret limited ∧
      LimitIsPrefix (EncoderBuilder.new ()) .ohlcv1S one.val.toNat full
        limited) <->
      (EncoderBuilder.new ()).writeHeader = true ∧
        (EncoderBuilder.new ()).schema = none ∧ ohlcvMetadata.tsOut = false ∧
        exists first, first ∈ [ohlcvRecord].head? ∧
          leastSize .ohlcv1S ≤ recordSize first.bytes :=
  limitIsPrefix_iff rfl (reads_ofList _) (by decide) rtype_ohlcvRecord
    (show one.val.toNat ≤ [ohlcvRecord].length from Nat.le_refl 1)

end Example
end CsvEncoder
end Dbn
