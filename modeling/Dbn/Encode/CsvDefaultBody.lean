import Dbn.Encode.CsvLimit

/-!
# The default body with a limit

With a limit the CSV encoder writes the header of the schema and checks the
type of each record.  The default body does neither: it leaves the header to
the first record.
-/

namespace Dbn
namespace CsvEncoder

open Lib
open Lib.WriteM (forEach)

variable {V W : Type}

/-!
## A record with and without the check
-/

section Record

variable [CsvWriter V W] [TimeFormat]
  {debug : RecordType -> Bool -> List UInt8 -> String} {record : RecordRef}
  {rtype : RType} {tsOut : Bool}

theorem encodeRecordRefTsOut_of_error {e : Error}
    (h : HasRtype.rtype record = Except.error e) :
    (encodeRecordRefTsOut debug tsOut record : Call W Unit) =
      WriteM.fail e := by
  unfold encodeRecordRefTsOut
  rw [h]

theorem encodeOfRtype_of_eq (h : HasRtype.rtype record = Except.ok rtype) :
    (encodeOfRtype debug rtype tsOut record : Call W Unit) =
      encodeRecordRefTsOut debug tsOut record := by
  unfold encodeOfRtype
  rw [if_neg (by rw [h]; simp [Except.toOption])]

theorem encodeOfRtype_of_ne
    (h : HasRtype.rtype record ≠ Except.ok rtype) :
    (encodeOfRtype debug rtype tsOut record : Call W Unit) =
      WriteM.fail (mixedSchemas rtype record) := by
  unfold encodeOfRtype
  rw [if_pos]
  intro heq
  cases hrtype : HasRtype.rtype record with
  | error e =>
      rw [hrtype] at heq
      cases heq
  | ok rtype' =>
      rw [hrtype] at heq h
      cases heq
      exact h rfl

theorem encodeRecordRefTsOut_of_fits
    (hrtype : HasRtype.rtype record = Except.ok rtype)
    (hfits : record.Fits rtype tsOut) :
    (encodeRecordRefTsOut debug tsOut record : Call W Unit) =
      encodeRecord debug (rtype.dispatch (recordSize record.bytes)) tsOut
        (structMemory record rtype tsOut) := by
  rw [← encodeOfRtype_of_eq hrtype, encodeOfRtype_of_fits hrtype hfits]

theorem encodeRecordRefTsOut_of_not_fits
    (hrtype : HasRtype.rtype record = Except.ok rtype)
    (hfits : ¬ record.Fits rtype tsOut) :
    (encodeRecordRefTsOut debug tsOut record : Call W Unit) =
      WriteM.panic .assertion := by
  rw [← encodeOfRtype_of_eq hrtype, encodeOfRtype_of_not_fits hrtype hfits]

end Record

/-!
## Rows that stay
-/

variable [RowWriter V W]

/-- The rows that there are stay, and a call that returns is at a row end. -/
structure Grown (encoder : Encoder W) (out : Result Unit × Encoder W) :
    Prop where
  grows : (rowsOf encoder).Grows (rowsOf out.2)
  ready : out.1 = Res.ok () -> Ready out.2

def Growing (x : Call W Unit) : Prop :=
  forall self, Ready self -> Grown self (x self)

namespace Growing

variable {x y : Call W Unit} {self : Encoder W}

theorem fail (e : Error) : Growing (WriteM.fail e : Call W Unit) := by
  intro self hready
  exact ⟨Rows.Grows.refl _, fun _ => hready⟩

theorem panic (p : Panic) : Growing (WriteM.panic p : Call W Unit) := by
  intro self hready
  exact ⟨Rows.Grows.refl _, fun _ => hready⟩

theorem bind (hx : Growing x) (hy : Growing y) :
    Growing (x >>= fun _ => y) := by
  intro self hready
  have hfirst := hx self hready
  show Grown self (WriteM.bind x (fun _ => y) self)
  unfold WriteM.bind
  generalize x self = out at hfirst
  rcases out with ⟨res, self'⟩
  cases res with
  | err e => exact hfirst
  | panic p => exact hfirst
  | ok a =>
      have hsecond := hy self' (hfirst.ready rfl)
      exact ⟨hfirst.grows.trans hsecond.grows, hsecond.ready⟩

theorem forEach {body : RecordRef -> Call W Unit}
    (hbody : forall r, Growing (body r)) (rs : List RecordRef) :
    Growing (WriteM.forEach body rs) := by
  induction rs with
  | nil =>
      intro self hready
      exact ⟨Rows.Grows.refl _, fun _ => hready⟩
  | cons r rest ih => exact (hbody r).bind ih

/-- The line that a row was written to. -/
theorem lines_eq {row : Row} (hrow : RowWritten row self (x self))
    (hwritten : forall self', x self = (Res.ok (), self') ->
      self'.hasWrittenHeader = true) (hy : Growing y) :
    (rowsOf ((x >>= fun _ => y) self).2).lines[
      (rowsOf self).ended.length]? = some row := by
  have hline := hrow.lines_eq
  show (rowsOf (WriteM.bind x (fun _ => y) self).2).lines[_]? = _
  unfold WriteM.bind
  generalize x self = out at hrow hwritten hline
  cases hrow with
  | refused unfit rows => exact hline
  | @ended self' fits rows =>
      have hready : Ready self' := ⟨by rw [rows], hwritten self' rfl⟩
      dsimp only
      rw [(hy self' hready).grows.lines_eq, hline]
      rw [rows, List.length_append]
      exact Nat.lt_succ_self _

end Growing

/-- The reading has ended, and the output is flushed. -/
def after (stop : Result Unit) : Call W Unit :=
  WriteM.ofRes stop >>= fun _ => flush

theorem after_eq (stop : Result Unit) (self : Encoder W) :
    exists w, after stop self = (stop, { self with writer := w }) ∧
      RowWriter.rows w = rowsOf self := by
  show exists w, WriteM.bind (WriteM.ofRes stop) (fun _ => flush) self = _ ∧ _
  unfold WriteM.bind WriteM.ofRes
  cases stop with
  | err e => exact ⟨self.writer, rfl, rfl⟩
  | panic p => exact ⟨self.writer, rfl, rfl⟩
  | ok a =>
      rcases RowWriter.flush_eq self.writer with ⟨w, hflush, hrows⟩
      refine ⟨w, ?_, hrows⟩
      dsimp only
      unfold flush
      rw [hflush]

theorem growing_after (stop : Result Unit) :
    Growing (after stop : Call W Unit) := by
  intro self hready
  rcases after_eq stop self with ⟨w, hret, hrows⟩
  rw [hret]
  constructor
  · show (rowsOf self).Grows (RowWriter.rows w)
    rw [hrows]
    exact Rows.Grows.refl _
  · intro _
    constructor
    · show (RowWriter.rows w).row = []
      rw [hrows]
      exact hready.closed
    · exact hready.written

section Records

variable [TimeFormat] {debug : RecordType -> Bool -> List UInt8 -> String}
  {self : Encoder W} {rtype : RType} {tsOut : Bool} {record : RecordRef}

/-- The row of a record goes behind what there is. -/
theorem rowWritten_encodeRecordRefTsOut
    (debug : RecordType -> Bool -> List UInt8 -> String)
    (hrtype : HasRtype.rtype record = Except.ok rtype)
    (hfits : record.Fits rtype tsOut) (hwritten : self.hasWrittenHeader = true) :
    RowWritten ((rowsOf self).row ++
        (rtype.dispatch (recordSize record.bytes)).serializeTo self.usePrettyPx
          self.usePrettyTs tsOut (structMemory record rtype tsOut)) self
        (encodeRecordRefTsOut debug tsOut record self) ∧
      (encodeRecordRefTsOut debug tsOut record self).2.hasWrittenHeader =
        true := by
  rw [encodeRecordRefTsOut_of_fits hrtype hfits,
    encodeRecord_of_written _ _ hwritten]
  unfold encodeRow
  rcases rowWritten_append_writeRow
    (recordErr (debug (rtype.dispatch (recordSize record.bytes)) tsOut
      (structMemory record rtype tsOut)))
    ((rtype.dispatch (recordSize record.bytes)).serializeTo self.usePrettyPx
      self.usePrettyTs tsOut (structMemory record rtype tsOut)) self with
    ⟨w, res, hret, hrow⟩
  rw [hret]
  exact ⟨hrow, hwritten⟩

theorem growing_encodeRecordRefTsOut
    (debug : RecordType -> Bool -> List UInt8 -> String) (tsOut : Bool)
    (record : RecordRef) :
    Growing (encodeRecordRefTsOut debug tsOut record : Call W Unit) := by
  cases hrtype : HasRtype.rtype record with
  | error e =>
      rw [encodeRecordRefTsOut_of_error hrtype]
      exact Growing.fail e
  | ok rtype =>
      by_cases hfits : record.Fits rtype tsOut
      · intro self hready
        rcases rowWritten_encodeRecordRefTsOut debug hrtype hfits
          hready.written with ⟨hrow, hwritten⟩
        generalize encodeRecordRefTsOut debug tsOut record self = out
          at hrow hwritten
        cases hrow with
        | ended fits rows =>
            refine ⟨?_, fun _ => ⟨?_, hwritten⟩⟩
            · rw [Rows.Grows, rows]
              exact List.prefix_append _ _
            · rw [rows]
        | refused unfit rows =>
            refine ⟨?_, ?_⟩
            · simp [Rows.Grows, rows]
            · intro h
              cases h
      · rw [encodeRecordRefTsOut_of_not_fits hrtype hfits]
        exact Growing.panic _

theorem growing_encodeOfRtype
    (debug : RecordType -> Bool -> List UInt8 -> String) (rtype : RType)
    (tsOut : Bool) (record : RecordRef) :
    Growing (encodeOfRtype debug rtype tsOut record : Call W Unit) := by
  by_cases hrtype : HasRtype.rtype record = Except.ok rtype
  · rw [encodeOfRtype_of_eq hrtype]
    exact growing_encodeRecordRefTsOut debug tsOut record
  · rw [encodeOfRtype_of_ne hrtype]
    exact Growing.fail _

/-!
## The first line of a record
-/

/-- A header that has not been written yet is the first row. -/
def Settled (encoder : Encoder W) : Prop :=
  encoder.hasWrittenHeader = false -> rowsOf encoder = Rows.empty

/-- A header that is left to a record goes before its row. -/
theorem encodeRecordRefTsOut_of_pending {self' : Encoder W}
    (hrtype : HasRtype.rtype record = Except.ok rtype)
    (hfits : record.Fits rtype tsOut) (hpending : self.hasWrittenHeader = false)
    (hheader : encodeHeader (rtype.dispatch (recordSize record.bytes)) tsOut
      false self = (Res.ok (), self'))
    (hwritten : self'.hasWrittenHeader = true) :
    encodeRecordRefTsOut debug tsOut record self =
      encodeRecordRefTsOut debug tsOut record self' := by
  have heq : encodeOfRtype debug rtype tsOut record self =
      encodeOfRtype debug rtype tsOut record self' :=
    encodeOfRtype_of_pending hrtype hfits hpending hheader hwritten
  rw [encodeOfRtype_of_eq hrtype] at heq
  exact heq

/-- The line that a record begins: its row, or the header before it. -/
theorem line_of_fits (debug : RecordType -> Bool -> List UInt8 -> String)
    (hsettled : Settled self) (hrtype : HasRtype.rtype record = Except.ok rtype)
    (hfits : record.Fits rtype tsOut) {y : Call W Unit} (hy : Growing y) :
    exists row,
      (rowsOf ((encodeRecordRefTsOut debug tsOut record >>= fun _ => y)
        self).2).lines[(rowsOf self).ended.length]? =
          some ((rowsOf self).row ++ row) ∧
      (row = (rtype.dispatch (recordSize record.bytes)).serializeTo
          self.usePrettyPx self.usePrettyTs tsOut
          (structMemory record rtype tsOut) ∨
        self.hasWrittenHeader = false ∧
          row = (rtype.dispatch (recordSize record.bytes)).serializeHeader
            tsOut) := by
  cases hwritten : self.hasWrittenHeader with
  | true =>
      rcases rowWritten_encodeRecordRefTsOut debug hrtype hfits hwritten with
        ⟨hrow, hafter⟩
      refine ⟨_, Growing.lines_eq hrow ?_ hy, Or.inl rfl⟩
      intro self' hret
      rw [hret] at hafter
      exact hafter
  | false =>
      have hempty := hsettled hwritten
      rcases encodeHeader_of_empty hempty
        (rtype.dispatch (recordSize record.bytes)) tsOut false with
        ⟨self', hheader, hrows, hwritten'⟩
      have hready : Ready self' := ⟨by rw [hrows], hwritten'⟩
      have hgrown := (growing_encodeRecordRefTsOut debug tsOut record).bind hy
        self' hready
      have hcall : (encodeRecordRefTsOut debug tsOut record >>= fun _ => y)
          self = (encodeRecordRefTsOut debug tsOut record >>= fun _ => y)
            self' := by
        show WriteM.bind _ _ self = WriteM.bind _ _ self'
        unfold WriteM.bind
        rw [encodeRecordRefTsOut_of_pending hrtype hfits hwritten hheader
          hwritten']
      refine ⟨_, ?_, Or.inr ⟨rfl, rfl⟩⟩
      rw [hcall, hempty, hgrown.grows.lines_eq]
      · rw [hrows, headerRow_eq]
        rfl
      · rw [hrows]
        exact Nat.zero_lt_one

theorem serializeTo_ne_nil (t : RecordType) (prettyPx prettyTs tsOut : Bool)
    (memory : List UInt8) : t.serializeTo prettyPx prettyTs tsOut memory ≠ [] := by
  intro hnil
  have hlen := congrArg List.length hnil
  rw [RecordType.length_serializeTo, List.length_nil] at hlen
  exact RecordType.serializeHeader_ne_nil t tsOut
    (List.eq_nil_of_length_eq_zero hlen)

/-- A record that fits begins a line that is not the one that there was. -/
theorem rowsOf_ne_of_fits (debug : RecordType -> Bool -> List UInt8 -> String)
    (hsettled : Settled self) (hrtype : HasRtype.rtype record = Except.ok rtype)
    (hfits : record.Fits rtype tsOut) {y : Call W Unit} (hy : Growing y) :
    rowsOf self ≠ rowsOf ((encodeRecordRefTsOut debug tsOut record >>=
      fun _ => y) self).2 := by
  intro heq
  rcases line_of_fits debug hsettled hrtype hfits hy with ⟨row, hline, hrow⟩
  rw [← heq] at hline
  have hopen : (rowsOf self).lines[(rowsOf self).ended.length]? =
      some (rowsOf self).row := by
    unfold Rows.lines
    rw [List.getElem?_append_right (Nat.le_refl _), Nat.sub_self]
    rfl
  rw [hopen] at hline
  have hnil : row = [] := by
    have hsame := Option.some.inj hline
    rw [List.self_eq_append_right] at hsame
    exact hsame
  rcases hrow with hrecord | ⟨_, hheader⟩
  · rw [hnil] at hrecord
    exact serializeTo_ne_nil _ _ _ _ _ hrecord.symm
  · rw [hnil] at hheader
    exact RecordType.serializeHeader_ne_nil _ _ hheader.symm

end Records

/-!
## Below the header of the schema
-/

/-- The two calls have the same result and leave the same rows. -/
def Alike (x y : Result Unit × Encoder W) : Prop :=
  SameResult x.1 y.1 ∧ rowsOf x.2 = rowsOf y.2

theorem Alike.refl (x : Result Unit × Encoder W) : Alike x x :=
  ⟨SameResult.refl x.1, rfl⟩

/-- At the end of a row, below the header of a schema. -/
structure Headed (schema : Schema) (encoder : Encoder W) : Prop
    extends Ready encoder where
  first : (rowsOf encoder).ended.head? =
    some (headerRow schema.dispatch false false)

/--
Up to the first record that ends the loop, each record has the type of the
schema; a record whose type is not known ends it, and so does one that has not
the columns of the schema.
-/
def Unmixed (schema : Schema) : List RecordRef -> Prop
  | [] => True
  | record :: rest =>
      match HasRtype.rtype record with
      | Except.error _ => True
      | Except.ok rtype =>
          rtype = RType.fromSchema schema ∧
            (leastSize schema ≤ recordSize record.bytes -> Unmixed schema rest)

section Headed

variable [TimeFormat] {debug : RecordType -> Bool -> List UInt8 -> String}
  {self : Encoder W} {schema : Schema} {record : RecordRef}

omit [TimeFormat] in
theorem Headed.settled (h : Headed schema self) : Settled self := by
  intro hpending
  rw [h.written] at hpending
  cases hpending

/-- The row of a record with the columns of the header is written. -/
theorem Headed.encodeRecord_ok (h : Headed schema self)
    (debug : RecordType -> Bool -> List UInt8 -> String)
    (hrtype : HasRtype.rtype record = Except.ok (RType.fromSchema schema))
    (hleast : leastSize schema ≤ recordSize record.bytes) :
    exists self', encodeRecordRefTsOut debug false record self =
        (Res.ok (), self') ∧ Headed schema self' := by
  rcases leastSize_le_iff.mp hleast with ⟨hfits, hcolumns⟩
  rcases rowWritten_encodeRecordRefTsOut debug hrtype hfits h.written with
    ⟨hrow, hwritten⟩
  rw [h.closed, List.nil_append] at hrow
  generalize encodeRecordRefTsOut debug false record self = out
    at hrow hwritten
  cases hrow with
  | ended fits rows =>
      refine ⟨_, rfl, ⟨by rw [rows], hwritten⟩, ?_⟩
      rw [rows, List.head?_append, h.first]
      rfl
  | refused unfit rows =>
      exfalso
      apply unfit
      intro first hfirst
      rw [h.first] at hfirst
      cases hfirst
      rw [RecordType.length_serializeTo, headerRow_eq, hcolumns]

/-- Other records of the schema end the loop. -/
theorem Headed.encodeRecord_ne_ok (h : Headed schema self)
    (debug : RecordType -> Bool -> List UInt8 -> String)
    (hrtype : HasRtype.rtype record = Except.ok (RType.fromSchema schema))
    (hleast : ¬ leastSize schema ≤ recordSize record.bytes) :
    (encodeRecordRefTsOut debug false record self).1 ≠ Res.ok () := by
  by_cases hfits : record.Fits (RType.fromSchema schema) false
  · rcases rowWritten_encodeRecordRefTsOut debug hrtype hfits h.written with
      ⟨hrow, hwritten⟩
    rw [h.closed, List.nil_append] at hrow
    generalize encodeRecordRefTsOut debug false record self = out
      at hrow hwritten
    cases hrow with
    | refused unfit rows => simp
    | ended fits rows =>
        exfalso
        apply hleast
        have hlen := fits _ h.first
        rw [RecordType.length_serializeTo, headerRow_eq] at hlen
        rcases RecordType.serializeHeader_eq_of_length 0
          (Schema.dispatch_mem_structs schema (recordSize record.bytes))
          (Nat.zero_le 1) hlen with ⟨_, _, hcolumns⟩
        exact leastSize_le_iff.mpr ⟨hfits, hcolumns⟩
  · rw [encodeRecordRefTsOut_of_not_fits hrtype hfits]
    intro h
    cases h

/-- Below the header the two bodies differ for records of other types. -/
theorem Headed.alike_iff (h : Headed schema self)
    (debug : RecordType -> Bool -> List UInt8 -> String)
    (rs : List RecordRef) (stop : Result Unit) :
    Alike
        ((forEach (encodeOfRtype debug (RType.fromSchema schema) false) rs >>=
          fun _ => after stop) self)
        ((forEach (encodeRecordRefTsOut debug false) rs >>=
          fun _ => after stop) self) <->
      Unmixed schema rs := by
  induction rs generalizing self with
  | nil => exact ⟨fun _ => trivial, fun _ => Alike.refl _⟩
  | cons record rest ih =>
      rw [LoopM.forEach_cons_bind, LoopM.forEach_cons_bind]
      unfold Unmixed
      cases hrtype : HasRtype.rtype record with
      | error e =>
          have hne : HasRtype.rtype record ≠
              Except.ok (RType.fromSchema schema) := by
            rw [hrtype]
            simp
          rw [encodeOfRtype_of_ne hne, encodeRecordRefTsOut_of_error hrtype]
          exact ⟨fun _ => trivial, fun _ => ⟨SameResult.err _ _, rfl⟩⟩
      | ok rtype =>
          dsimp only
          by_cases heq : rtype = RType.fromSchema schema
          · rw [heq] at hrtype
            rw [encodeOfRtype_of_eq hrtype]
            by_cases hleast : leastSize schema ≤ recordSize record.bytes
            · rcases h.encodeRecord_ok debug hrtype hleast with
                ⟨self', hret, hheaded⟩
              unfold WriteM.bind
              rw [hret]
              dsimp only
              rw [ih hheaded]
              exact ⟨fun hrest => ⟨heq, fun _ => hrest⟩,
                fun hrest => hrest.2 hleast⟩
            · have hne := h.encodeRecord_ne_ok debug hrtype hleast
              unfold WriteM.bind
              generalize encodeRecordRefTsOut debug false record self = out
                at hne
              rcases out with ⟨res, self'⟩
              constructor
              · intro _
                exact ⟨heq, fun hle => absurd hle hleast⟩
              · intro _
                cases res with
                | ok a => exact absurd rfl hne
                | err e => exact Alike.refl _
                | panic p => exact Alike.refl _
          · have hne : HasRtype.rtype record ≠
                Except.ok (RType.fromSchema schema) := by
              rw [hrtype]
              intro hsame
              cases hsame
              exact heq rfl
            constructor
            · intro halike
              exfalso
              rw [encodeOfRtype_of_ne hne] at halike
              by_cases hfits : record.Fits rtype false
              · exact rowsOf_ne_of_fits debug h.settled hrtype hfits
                  ((Growing.forEach
                    (growing_encodeRecordRefTsOut debug false) rest).bind
                    (growing_after stop)) halike.2
              · rw [encodeRecordRefTsOut_of_not_fits hrtype hfits] at halike
                cases halike.1
            · intro hunmixed
              exact absurd hunmixed.1 heq

end Headed

/-!
## The two bodies from any state
-/

section Bodies

variable [TimeFormat] {debug : RecordType -> Bool -> List UInt8 -> String}
  {self : Encoder W} {schema : Schema} {tsOut : Bool} {rs : List RecordRef}
  {stop : Result Unit}

/-- The header of the schema and then the records, with their types checked. -/
def checkedBody (debug : RecordType -> Bool -> List UInt8 -> String)
    (schema : Schema) (tsOut : Bool) (rs : List RecordRef)
    (stop : Result Unit) : Call W Unit :=
  encodeHeader schema.dispatch false false >>= fun _ =>
    (forEach (encodeOfRtype debug (RType.fromSchema schema) tsOut) rs >>=
      fun _ => after stop)

/-- The records as they are. -/
def defaultBody (debug : RecordType -> Bool -> List UInt8 -> String)
    (tsOut : Bool) (rs : List RecordRef) (stop : Result Unit) : Call W Unit :=
  forEach (encodeRecordRefTsOut debug tsOut) rs >>= fun _ => after stop

/-- The first record, when it has the columns of the schema, starts alike. -/
theorem exists_headed (debug : RecordType -> Bool -> List UInt8 -> String)
    (stop : Result Unit) (hsettled : Settled self)
    (hpending : self.hasWrittenHeader = false) {record : RecordRef}
    {rtype : RType} (hrtype : HasRtype.rtype record = Except.ok rtype)
    (hfits : record.Fits rtype false)
    (hcolumns : (rtype.dispatch (recordSize record.bytes)).serializeHeader
      false = schema.dispatch.serializeHeader false) (rest : List RecordRef) :
    exists self', Headed schema self' ∧
      checkedBody debug schema false (record :: rest) stop self =
        (forEach (encodeOfRtype debug (RType.fromSchema schema) false)
          (record :: rest) >>= fun _ => after stop) self' ∧
      defaultBody debug false (record :: rest) stop self =
        defaultBody debug false (record :: rest) stop self' := by
  rcases encodeHeader_of_empty (hsettled hpending) schema.dispatch false false
    with ⟨self', hheader, hrows, hwritten⟩
  have hheader' : encodeHeader (rtype.dispatch (recordSize record.bytes)) false
      false self = (Res.ok (), self') := by
    rw [← hheader]
    unfold encodeHeader
    rw [headerRow_eq, headerRow_eq, hcolumns]
  refine ⟨self', ⟨⟨by rw [hrows], hwritten⟩, by rw [hrows]; rfl⟩,
    WriteM.bind_of_ok hheader, ?_⟩
  unfold defaultBody
  rw [LoopM.forEach_cons_bind, LoopM.forEach_cons_bind]
  unfold WriteM.bind
  rw [encodeRecordRefTsOut_of_pending hrtype hfits hpending hheader' hwritten]

/-- The header comes first where record types are checked. -/
theorem line_checkedBody (debug : RecordType -> Bool -> List UInt8 -> String)
    (schema : Schema) (tsOut : Bool) (rs : List RecordRef)
    (stop : Result Unit) (self : Encoder W) :
    (rowsOf (checkedBody debug schema tsOut rs stop self).2).lines[
        (rowsOf self).ended.length]? =
      some ((rowsOf self).row ++ schema.dispatch.serializeHeader false) := by
  rcases rowWritten_append_encodeHeader schema.dispatch false false self with
    ⟨hrow, hwritten⟩
  rw [headerRow_eq] at hrow
  exact Growing.lines_eq hrow hwritten
    ((Growing.forEach (growing_encodeOfRtype debug _ tsOut) rs).bind
      (growing_after stop))

/-- The default body begins with the header of the schema. -/
theorem first_of_line_defaultBody (hsettled : Settled self)
    (h : (rowsOf (defaultBody debug tsOut rs stop self).2).lines[
        (rowsOf self).ended.length]? =
      some ((rowsOf self).row ++ schema.dispatch.serializeHeader false)) :
    self.hasWrittenHeader = false ∧ tsOut = false ∧
      exists first rest rtype, rs = first :: rest ∧
        HasRtype.rtype first = Except.ok rtype ∧ first.Fits rtype false ∧
        (rtype.dispatch (recordSize first.bytes)).serializeHeader false =
          schema.dispatch.serializeHeader false := by
  have hunchanged : ¬ (rowsOf self).lines[(rowsOf self).ended.length]? =
      some ((rowsOf self).row ++ schema.dispatch.serializeHeader false) := by
    unfold Rows.lines
    rw [List.getElem?_append_right (Nat.le_refl _), Nat.sub_self]
    intro heq
    have hsame := Option.some.inj heq
    rw [List.self_eq_append_right] at hsame
    exact RecordType.serializeHeader_ne_nil _ _ hsame
  cases rs with
  | nil =>
      exfalso
      rcases after_eq stop self with ⟨w, hret, hrows⟩
      have hcall : defaultBody debug tsOut [] stop self = after stop self :=
        rfl
      rw [hcall, hret] at h
      exact hunchanged (hrows ▸ h)
  | cons record rest =>
      unfold defaultBody at h
      rw [LoopM.forEach_cons_bind] at h
      cases hrtype : HasRtype.rtype record with
      | error e =>
          rw [encodeRecordRefTsOut_of_error hrtype] at h
          exact absurd h hunchanged
      | ok rtype =>
          by_cases hfits : record.Fits rtype tsOut
          · rcases line_of_fits debug hsettled hrtype hfits
              ((Growing.forEach (growing_encodeRecordRefTsOut debug tsOut)
                rest).bind (growing_after stop)) with ⟨row, hline, hrow⟩
            have hsame : row = schema.dispatch.serializeHeader false := by
              have heq := hline.symm.trans h
              exact List.append_cancel_left (Option.some.inj heq)
            rcases hrow with hrecord | ⟨hpending, hheader⟩
            · exfalso
              rw [hsame] at hrecord
              exact RecordType.serializeTo_ne_serializeHeader _ _ _ _ _
                hrecord.symm
            · rw [hsame] at hheader
              cases tsOut with
              | false =>
                  exact ⟨hpending, rfl, record, rest, rtype, rfl, hrtype,
                    hfits, hheader.symm⟩
              | true =>
                  exfalso
                  apply RecordType.tsOut_not_mem_serializeHeader
                    schema.dispatch
                  rw [hheader]
                  exact List.mem_append_right _ (List.mem_singleton_self _)
          · rw [encodeRecordRefTsOut_of_not_fits hrtype hfits] at h
            exact absurd h hunchanged

/-- The two bodies do the same for a first record with the right columns. -/
theorem alike_defaultBody_iff
    (debug : RecordType -> Bool -> List UInt8 -> String)
    (hsettled : Settled self) (schema : Schema) (tsOut : Bool)
    (rs : List RecordRef) (stop : Result Unit) :
    Alike (checkedBody debug schema tsOut rs stop self)
        (defaultBody debug tsOut rs stop self) <->
      self.hasWrittenHeader = false ∧ tsOut = false ∧
        (exists first, first ∈ rs.head? ∧
          HasRtype.rtype first = Except.ok (RType.fromSchema schema) ∧
          leastSize schema ≤ recordSize first.bytes) ∧
        Unmixed schema rs := by
  constructor
  · intro halike
    have hline := line_checkedBody debug schema tsOut rs stop self
    rw [halike.2] at hline
    rcases first_of_line_defaultBody hsettled hline with
      ⟨hpending, htsOut, first, rest, rtype, hrs, hrtype, hfits, hcolumns⟩
    rw [htsOut, hrs] at halike
    rcases exists_headed debug stop hsettled hpending hrtype hfits hcolumns
      rest with ⟨self', hheaded, hchecked, hdefault⟩
    rw [hchecked, hdefault] at halike
    have hunmixed := (hheaded.alike_iff debug (first :: rest) stop).mp halike
    have hrtype' : rtype = RType.fromSchema schema := by
      unfold Unmixed at hunmixed
      rw [hrtype] at hunmixed
      exact hunmixed.1
    rw [hrtype'] at hrtype hfits hcolumns
    rw [hrs]
    exact ⟨hpending, htsOut,
      ⟨first, rfl, hrtype, leastSize_le_iff.mpr ⟨hfits, hcolumns⟩⟩, hunmixed⟩
  · intro h
    rcases h with ⟨hpending, htsOut, ⟨first, hfirst, hrtype, hleast⟩, hunmixed⟩
    rcases leastSize_le_iff.mp hleast with ⟨hfits, hcolumns⟩
    cases rs with
    | nil => cases hfirst
    | cons record rest =>
        cases hfirst
        rcases exists_headed debug stop hsettled hpending hrtype hfits hcolumns
          rest with ⟨self', hheaded, hchecked, hdefault⟩
        rw [htsOut, hchecked, hdefault]
        exact (hheaded.alike_iff debug (first :: rest) stop).mpr hunmixed

/-- The default body writes one record of any type, if it has a header. -/
theorem defaultBody_single (debug : RecordType -> Bool -> List UInt8 -> String)
    (hsettled : Settled self) (hpending : self.hasWrittenHeader = false)
    {record : RecordRef}
    (hrtype : HasRtype.rtype record = Except.ok (RType.fromSchema schema))
    (hleast : leastSize schema ≤ recordSize record.bytes) :
    exists self', defaultBody debug false [record] (Res.ok ()) self =
      (Res.ok (), self') := by
  rcases leastSize_le_iff.mp hleast with ⟨hfits, hcolumns⟩
  rcases exists_headed debug (Res.ok ()) hsettled hpending hrtype hfits
    hcolumns [] with ⟨self', hheaded, _, hdefault⟩
  rcases hheaded.encodeRecord_ok debug hrtype hleast with ⟨self'', hret, _⟩
  rcases after_eq (Res.ok ()) self'' with ⟨w, hafter, _⟩
  refine ⟨{ self'' with writer := w }, ?_⟩
  rw [hdefault, ← hafter]
  unfold defaultBody
  rw [LoopM.forEach_cons_bind]
  unfold WriteM.bind
  rw [hret]
  rfl

/-- Without a schema the encoder refuses, and so must the default body. -/
theorem alike_refusal_iff
    (debug : RecordType -> Bool -> List UInt8 -> String)
    (hsettled : Settled self) (e : Error) (tsOut : Bool) (rs : List RecordRef)
    (stop : Result Unit) :
    Alike (Res.err e, self) (defaultBody debug tsOut rs stop self) <->
      match rs with
      | [] => stop.IsErr
      | first :: _ => exists e, HasRtype.rtype first = Except.error e := by
  cases rs with
  | nil =>
      rcases after_eq stop self with ⟨w, hret, hrows⟩
      have hcall : defaultBody debug tsOut [] stop self = after stop self :=
        rfl
      rw [hcall, hret]
      constructor
      · intro halike
        cases stop with
        | ok a => cases halike.1
        | err e => exact ⟨e, rfl⟩
        | panic p => cases halike.1
      · intro hstop
        rcases hstop with ⟨e', rfl⟩
        exact ⟨SameResult.err e e', hrows.symm⟩
  | cons first rest =>
      unfold defaultBody
      rw [LoopM.forEach_cons_bind]
      cases hrtype : HasRtype.rtype first with
      | error e' =>
          rw [encodeRecordRefTsOut_of_error hrtype]
          exact ⟨fun _ => ⟨e', hrtype⟩, fun _ => ⟨SameResult.err e e', rfl⟩⟩
      | ok rtype =>
          constructor
          · intro halike
            exfalso
            by_cases hfits : first.Fits rtype tsOut
            · exact rowsOf_ne_of_fits debug hsettled hrtype hfits
                ((Growing.forEach (growing_encodeRecordRefTsOut debug tsOut)
                  rest).bind (growing_after stop)) halike.2
            · rw [encodeRecordRefTsOut_of_not_fits hrtype hfits] at halike
              cases halike.1
          · intro h
            rcases h with ⟨e', h⟩
            rw [hrtype] at h
            cases h

end Bodies

/-!
## The bodies with a decoder
-/

section Decoded

variable {D T : Type} [TimeFormat]
  {debug : RecordType -> Bool -> List UInt8 -> String}
  {decode : Pull Error D RecordRef} {rounds : Nat} {metadata : Metadata T}
  {d : D} {limit : NonZeroU64} {self : Encoder W}

omit [RowWriter V W] [TimeFormat] in
theorem encodeAll_eq_whileSome [CsvWriter V W]
    (body : RecordRef -> Call W Unit) :
    encodeAll decode body rounds d self =
      LoopM.whileSome decode body rounds d self := by
  induction rounds generalizing d self with
  | zero => rfl
  | succ rounds ih =>
      unfold encodeAll LoopM.whileSome
      cases decode d with
      | timeout => rfl
      | panic p => rfl
      | ret answer =>
          rcases answer with ⟨answer, d'⟩
          cases answer with
          | error e => rfl
          | ok item =>
              cases item with
              | none => rfl
              | some r =>
                  dsimp only
                  generalize body r self = out
                  rcases out with ⟨res, self'⟩
                  cases res with
                  | ok a => exact ih
                  | err e => rfl
                  | panic p => rfl

omit [RowWriter V W] [TimeFormat] in
theorem encodeUpTo_eq_whileSomeUpTo [CsvWriter V W]
    (body : RecordRef -> Call W Unit) (limit i : Nat) :
    encodeUpTo decode limit body rounds i d self =
      LoopM.whileSomeUpTo decode limit body rounds i d self := by
  induction rounds generalizing i d self with
  | zero => rfl
  | succ rounds ih =>
      unfold encodeUpTo LoopM.whileSomeUpTo
      cases decode d with
      | timeout => rfl
      | panic p => rfl
      | ret answer =>
          rcases answer with ⟨answer, d'⟩
          cases answer with
          | error e => rfl
          | ok item =>
              cases item with
              | none => rfl
              | some r =>
                  dsimp only
                  generalize body r self = out
                  rcases out with ⟨res, self'⟩
                  cases res with
                  | err e => rfl
                  | panic p => rfl
                  | ok a =>
                      dsimp only
                      by_cases hlast : i + 1 = limit
                      · rw [if_pos hlast, if_pos hlast]
                      · rw [if_neg hlast, if_neg hlast]
                        exact ih (i + 1)

omit [RowWriter V W] [TimeFormat] in
/-- The call after a loop, for any state and for the encoder. -/
theorem andThen_congr [CsvWriter V W] {run run' : Run W} (next : Call W Unit)
    (h : run self = run' self) :
    andThen run next self = LoopM.andThen run' next self := by
  unfold andThen LoopM.andThen
  rw [← h]
  cases run self with
  | timeout => rfl
  | panic p => rfl
  | ret out =>
      rcases out with ⟨res, self'⟩
      cases res <;> rfl

/-- With a limit the encoder goes over the records that the decoder gives. -/
theorem encodeDecodedWithLimit_eq (hdecode : forall d, decode d ≠ .timeout)
    (hrounds : limit.val.toNat ≤ rounds) {schema : Schema}
    (hschema : metadata.schema = some schema) :
    encodeDecodedWithLimit debug decode rounds metadata d limit self =
      .ret (checkedBody debug schema metadata.tsOut
        (taken decode limit.val.toNat d) (ending decode limit.val.toNat d)
        self) := by
  have hloop := fun self : Encoder W => LoopM.andThen_whileSomeUpTo
    (encodeOfRtype debug (RType.fromSchema schema) metadata.tsOut) hdecode
    (limit_pos limit) hrounds flush d self
  unfold encodeDecodedWithLimit
  rw [hschema]
  show _ = Outcome.ret (WriteM.bind (encodeHeader schema.dispatch false false)
    _ self)
  unfold WriteM.bind
  dsimp only
  generalize encodeHeader schema.dispatch false false self = out
  rcases out with ⟨res, self'⟩
  cases res with
  | err e => rfl
  | panic p => rfl
  | ok a =>
      dsimp only
      unfold after
      rw [← hloop]
      exact andThen_congr flush
        (encodeUpTo_eq_whileSomeUpTo _ limit.val.toNat 0)

end Decoded
end CsvEncoder
end Dbn
