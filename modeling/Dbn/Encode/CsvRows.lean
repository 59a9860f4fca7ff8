import Dbn.Encode.CsvEncoder
import Dbn.Lib.InputLoop

/-!
# Rows of the CSV encoder

What a call of the encoder adds to the rows: a header or a record is one row,
ended or refused, and a loop adds a row for each record until one fails.
-/

namespace Dbn
namespace CsvEncoder

open Lib
open Lib.WriteM (forEach)

variable {V W D T : Type} [RowWriter V W]

/-- What has been written. -/
def rowsOf (self : Encoder W) : Rows :=
  RowWriter.rows self.writer

/-!
## Writing one row
-/

/-- A row was written from a row end on, or refused at its end. -/
inductive RowWritten (row : Row) (self : Encoder W) :
    Result Unit × Encoder W -> Prop where
  | ended {self' : Encoder W} (fits : (rowsOf self).Fits row)
      (rows : rowsOf self' = ⟨(rowsOf self).ended ++ [row], []⟩) :
      RowWritten row self (Res.ok (), self')
  | refused {e : Error} {self' : Encoder W} (unfit : ¬ (rowsOf self).Fits row)
      (rows : rowsOf self' = ⟨(rowsOf self).ended, row⟩) :
      RowWritten row self (Res.err e, self')

theorem RowWritten.lines_eq {row : Row} {self : Encoder W}
    {out : Result Unit × Encoder W} (h : RowWritten row self out) :
    (rowsOf out.2).lines[(rowsOf self).ended.length]? = some row := by
  cases h with
  | ended fits rows =>
      rw [rows]
      simp [Rows.lines]
  | refused unfit rows =>
      rw [rows]
      simp [Rows.lines]

section Rows

variable {self : Encoder W}

theorem forEach_writeField (mapErr : CsvError -> Error) (fields : Row)
    (self : Encoder W) :
    exists w, forEach (fun field =>
        writing mapErr (fun w => CsvWriter.writeField w field)) fields self =
        (Res.ok (), { self with writer := w }) ∧
      RowWriter.rows w = (rowsOf self).addFields fields := by
  induction fields generalizing self with
  | nil => exact ⟨self.writer, rfl, (Rows.addFields_nil _).symm⟩
  | cons field rest ih =>
      rcases RowWriter.writeField_eq self.writer field with ⟨w, hret, hrows⟩
      have hcall : writing mapErr (fun w => CsvWriter.writeField w field)
          self = (Res.ok (), { self with writer := w }) := by
        unfold writing
        dsimp only
        rw [hret]
      rcases ih { self with writer := w } with ⟨w', hret', hrows'⟩
      refine ⟨w', ?_, ?_⟩
      · exact (WriteM.bind_of_ok hcall).trans hret'
      · rw [hrows']
        show (RowWriter.rows w).addFields rest = _
        rw [hrows, Rows.addFields_addFields]
        rfl

/-- The fields go behind those of a row that was not ended. -/
theorem rowWritten_append_writeRow (mapErr : CsvError -> Error) (row : Row)
    (self : Encoder W) :
    exists w res, writeRow mapErr row self = (res, { self with writer := w }) ∧
      RowWritten ((rowsOf self).row ++ row) self
        (res, { self with writer := w }) := by
  rcases forEach_writeField mapErr row self with ⟨w, hret, hrows⟩
  have hrow : RowWriter.rows w =
      ⟨(rowsOf self).ended, (rowsOf self).row ++ row⟩ := hrows
  have hcall : writeRow mapErr row self =
      writing mapErr CsvWriter.endRecord { self with writer := w } :=
    WriteM.bind_of_ok hret
  rw [hcall]
  unfold writing
  by_cases hfits : (rowsOf self).Fits ((rowsOf self).row ++ row)
  · have hfits' : (RowWriter.rows w).Fits (RowWriter.rows w).row := by
      rw [hrow]
      exact hfits
    rcases RowWriter.endRecord_of_fits w hfits' with ⟨w', hend, hrows'⟩
    refine ⟨w', Res.ok (), ?_, RowWritten.ended hfits ?_⟩
    · dsimp only
      rw [hend]
    · show RowWriter.rows w' = _
      rw [hrows', hrow]
      rfl
  · have hfits' : ¬ (RowWriter.rows w).Fits (RowWriter.rows w).row := by
      rw [hrow]
      exact hfits
    rcases RowWriter.endRecord_of_not_fits w hfits' with
      ⟨e, w', hend, hrows'⟩
    refine ⟨w', Res.err (mapErr e), ?_, RowWritten.refused hfits ?_⟩
    · dsimp only
      rw [hend]
    · show RowWriter.rows w' = _
      rw [hrows', hrow]

theorem rowWritten_writeRow (mapErr : CsvError -> Error) (row : Row)
    (hclosed : (rowsOf self).row = []) :
    exists w res, writeRow mapErr row self = (res, { self with writer := w }) ∧
      RowWritten row self (res, { self with writer := w }) := by
  have hwritten := rowWritten_append_writeRow mapErr row self
  rw [hclosed, List.nil_append] at hwritten
  exact hwritten

/-- The header is written and remembered. -/
theorem rowWritten_append_encodeHeader (t : RecordType)
    (tsOut withSymbol : Bool) (self : Encoder W) :
    RowWritten ((rowsOf self).row ++ headerRow t tsOut withSymbol) self
        (encodeHeader t tsOut withSymbol self) ∧
      forall self', encodeHeader t tsOut withSymbol self = (Res.ok (), self') ->
        self'.hasWrittenHeader = true := by
  rcases rowWritten_append_writeRow Error.fromCsv
    (headerRow t tsOut withSymbol) self with ⟨w, res, hret, hwritten⟩
  have hcall : encodeHeader t tsOut withSymbol self =
      WriteM.bind (writeRow Error.fromCsv (headerRow t tsOut withSymbol))
        (fun _ => setHasWrittenHeader) self := rfl
  rw [hcall]
  unfold WriteM.bind
  rw [hret]
  cases hwritten with
  | ended fits rows =>
      constructor
      · exact RowWritten.ended fits rows
      · intro self' h
        cases h
        rfl
  | refused unfit rows =>
      constructor
      · exact RowWritten.refused unfit rows
      · intro self' h
        cases h

theorem rowWritten_encodeHeader (t : RecordType) (tsOut withSymbol : Bool)
    (hclosed : (rowsOf self).row = []) :
    RowWritten (headerRow t tsOut withSymbol) self
        (encodeHeader t tsOut withSymbol self) ∧
      forall self', encodeHeader t tsOut withSymbol self = (Res.ok (), self') ->
        self'.hasWrittenHeader = true := by
  have hwritten := rowWritten_append_encodeHeader t tsOut withSymbol self
  rw [hclosed, List.nil_append] at hwritten
  exact hwritten

end Rows

/-!
## Encoding records
-/

/-- At the end of a row, with the header written or not asked for. -/
structure Ready (encoder : Encoder W) : Prop where
  closed : (rowsOf encoder).row = []
  written : encoder.hasWrittenHeader = true

/-- The rows that were added, as long as the first row. -/
structure Added (P : Row -> Prop) (before after : Rows) (added : List Row) :
    Prop where
  ended : after.ended = before.ended ++ added
  rows : forall row, row ∈ added -> P row ∧ after.Fits row

theorem Added.nil (P : Row -> Prop) {before after : Rows}
    (h : after.ended = before.ended) : Added P before after [] := by
  constructor
  · rw [h, List.append_nil]
  · intro row hrow
    cases hrow

theorem Added.single {P : Row -> Prop} {before after : Rows} {row : Row}
    (hP : P row) (hfits : before.Fits row)
    (h : after.ended = before.ended ++ [row]) :
    Added P before after [row] := by
  constructor
  · exact h
  · intro row' hrow
    rw [List.mem_singleton.mp hrow]
    refine ⟨hP, ?_⟩
    intro first hfirst
    rw [h] at hfirst
    cases hnil : before.ended with
    | nil =>
        rw [hnil] at hfirst
        cases hfirst
        rfl
    | cons row' rest =>
        rw [hnil] at hfirst
        apply hfits
        rw [hnil]
        exact hfirst

theorem Added.append {P : Row -> Prop} {rows rows' rows'' : Rows}
    {added added' : List Row} (h : Added P rows rows' added)
    (h' : Added P rows' rows'' added') :
    Added P rows rows'' (added ++ added') := by
  constructor
  · rw [h'.ended, h.ended, List.append_assoc]
  · intro row hrow
    cases List.mem_append.mp hrow with
    | inr hadded' => exact h'.rows row hadded'
    | inl hadded =>
        rcases h.rows row hadded with ⟨hP, hfits⟩
        refine ⟨hP, ?_⟩
        intro first hfirst
        apply hfits
        rw [h'.ended, List.head?_append_of_ne_nil] at hfirst
        · exact hfirst
        · intro hnil
          rw [h.ended] at hnil
          rw [(List.append_eq_nil_iff.mp hnil).2] at hadded
          cases hadded

theorem Added.grows {P : Row -> Prop} {before after : Rows}
    {added : List Row} (h : Added P before after added) :
    before.Grows after := by
  unfold Rows.Grows
  rw [h.ended]
  exact List.prefix_append _ _

/-- A number of rows was added, or fewer and the call failed. -/
inductive Adds (P : Row -> Prop) (n : Nat) (self : Encoder W) :
    Result Unit × Encoder W -> Prop where
  | all {self' : Encoder W} {added : List Row} (ready : Ready self')
      (rows : Added P (rowsOf self) (rowsOf self') added)
      (length : added.length = n) : Adds P n self (Res.ok (), self')
  | fewer {res : Result Unit} {self' : Encoder W} {added : List Row}
      (failed : res ≠ Res.ok ())
      (rows : Added P (rowsOf self) (rowsOf self') added)
      (length : added.length < n) : Adds P n self (res, self')

namespace Adds

variable {P : Row -> Prop} {m n : Nat} {self : Encoder W} {x y : Call W Unit}

theorem added {out : Result Unit × Encoder W} (h : Adds P n self out) :
    exists added, Added P (rowsOf self) (rowsOf out.2) added := by
  cases h with
  | all ready rows length => exact ⟨_, rows⟩
  | fewer failed rows length => exact ⟨_, rows⟩

/-- A call that fails without a row. -/
theorem failed {res : Result Unit} {self' : Encoder W}
    (hres : res ≠ Res.ok ())
    (hrows : (rowsOf self').ended = (rowsOf self).ended) (hn : 0 < n) :
    Adds P n self (res, self') :=
  Adds.fewer hres (Added.nil P hrows) hn

theorem bind (hx : Adds P m self (x self))
    (hy : forall self', Ready self' -> Adds P n self' (y self')) :
    Adds P (m + n) self ((x >>= fun _ => y) self) := by
  show Adds P (m + n) self (WriteM.bind x (fun _ => y) self)
  unfold WriteM.bind
  generalize x self = out at hx
  cases hx with
  | @all self' added ready rows length =>
      have hrest := hy self' ready
      dsimp only
      generalize y self' = out at hrest
      cases hrest with
      | all ready' rows' length' =>
          apply Adds.all ready' (rows.append rows')
          rw [List.length_append, length, length']
      | fewer failed rows' length' =>
          apply Adds.fewer failed (rows.append rows')
          rw [List.length_append, length]
          exact Nat.add_lt_add_left length' m
  | @fewer res self' added failed rows length =>
      have hlt := Nat.lt_add_right n length
      cases res with
      | ok a => exact absurd rfl failed
      | err e => exact Adds.fewer (by simp) rows hlt
      | panic p => exact Adds.fewer (by simp) rows hlt

/-- What comes after the rows does not change them. -/
theorem cut_bind (hx : Adds P n self (x self))
    (hy : forall self', Ready self' ->
      (rowsOf self').Grows (rowsOf (y self').2)) :
    (rowsOf ((x >>= fun _ => y) self).2).cut
      ((rowsOf self).ended.length + n) = rowsOf (x self).2 := by
  show (rowsOf (WriteM.bind x (fun _ => y) self).2).cut _ = _
  unfold WriteM.bind
  generalize x self = out at hx
  cases hx with
  | @all self' added ready rows length =>
      apply Rows.cut_of_grows ready.closed (hy self' ready)
      rw [rows.ended, List.length_append, length]
  | @fewer res self' added failed rows length =>
      have hlt : (rowsOf self').ended.length <
          (rowsOf self).ended.length + n := by
        rw [rows.ended, List.length_append]
        exact Nat.add_lt_add_left length _
      cases res with
      | ok a => exact absurd rfl failed
      | err e => exact Rows.cut_of_lt hlt
      | panic p => exact Rows.cut_of_lt hlt

end Adds

section Records

variable [TimeFormat] {debug : RecordType -> Bool -> List UInt8 -> String}
  {self : Encoder W} {rtype : RType} {tsOut : Bool} {record : RecordRef}
  {records : List RecordRef}

/-- The memory of the struct that a record is dispatched to. -/
def structMemory (record : RecordRef) (rtype : RType) (tsOut : Bool) :
    List UInt8 :=
  record.bytes.take
    ((rtype.dispatch (recordSize record.bytes)).size + tsOutLen tsOut)

omit [RowWriter V W] in
theorem encodeOfRtype_of_fits [CsvWriter V W]
    (hrtype : HasRtype.rtype record = Except.ok rtype)
    (hfits : record.Fits rtype tsOut) :
    (encodeOfRtype debug rtype tsOut record : Call W Unit) =
      encodeRecord debug (rtype.dispatch (recordSize record.bytes)) tsOut
        (structMemory record rtype tsOut) := by
  unfold encodeOfRtype
  rw [if_neg (by rw [hrtype]; simp [Except.toOption])]
  unfold encodeRecordRefTsOut
  rw [hrtype]
  dsimp only
  rw [RecordRef.getAs_dispatch hrtype, if_pos hfits]
  rfl

omit [RowWriter V W] in
theorem encodeOfRtype_of_not_fits [CsvWriter V W]
    (hrtype : HasRtype.rtype record = Except.ok rtype)
    (hfits : ¬ record.Fits rtype tsOut) :
    (encodeOfRtype debug rtype tsOut record : Call W Unit) =
      WriteM.panic .assertion := by
  unfold encodeOfRtype
  rw [if_neg (by rw [hrtype]; simp [Except.toOption])]
  unfold encodeRecordRefTsOut
  rw [hrtype]
  dsimp only
  rw [RecordRef.getAs_dispatch hrtype, if_neg hfits]

/-- The row of a record, and nothing else changes. -/
theorem rowWritten_encodeRow
    (debug : RecordType -> Bool -> List UInt8 -> String)
    (t : RecordType) (tsOut : Bool)
    (memory : List UInt8) (hclosed : (rowsOf self).row = []) :
    exists w res, encodeRow debug t tsOut memory self =
        (res, { self with writer := w }) ∧
      RowWritten (t.serializeTo self.usePrettyPx self.usePrettyTs tsOut memory)
        self (res, { self with writer := w }) :=
  rowWritten_writeRow _ _ hclosed

omit [RowWriter V W] in
theorem encodeRecord_of_written [CsvWriter V W] (t : RecordType)
    (memory : List UInt8) (hwritten : self.hasWrittenHeader = true) :
    encodeRecord debug t tsOut memory self =
      encodeRow debug t tsOut memory self := by
  unfold encodeRecord
  rw [hwritten]
  exact if_neg (by simp)

omit [RowWriter V W] in
/-- A header that is left to a record goes before its row. -/
theorem encodeOfRtype_of_pending [CsvWriter V W] {self' : Encoder W}
    (hrtype : HasRtype.rtype record = Except.ok rtype)
    (hfits : record.Fits rtype tsOut) (hpending : self.hasWrittenHeader = false)
    (hheader : encodeHeader (rtype.dispatch (recordSize record.bytes)) tsOut
      false self = (Res.ok (), self'))
    (hwritten : self'.hasWrittenHeader = true) :
    encodeOfRtype debug rtype tsOut record self =
      encodeOfRtype debug rtype tsOut record self' := by
  rw [encodeOfRtype_of_fits hrtype hfits, encodeRecord_of_written _ _ hwritten]
  unfold encodeRecord
  rw [hpending]
  exact WriteM.bind_of_ok hheader

/-- The rows of the records of a type. -/
def IsRecordRow (rtype : RType) (tsOut : Bool) (row : Row) : Prop :=
  exists size prettyPx prettyTs memory,
    row = (rtype.dispatch size).serializeTo prettyPx prettyTs tsOut memory

theorem adds_encodeOfRtype (hready : Ready self)
    (hrtype : HasRtype.rtype record = Except.ok rtype) :
    Adds (IsRecordRow rtype tsOut) 1 self
      (encodeOfRtype debug rtype tsOut record self) := by
  by_cases hfits : record.Fits rtype tsOut
  · rw [encodeOfRtype_of_fits hrtype hfits,
      encodeRecord_of_written _ _ hready.written]
    rcases rowWritten_encodeRow debug
      (rtype.dispatch (recordSize record.bytes)) tsOut
      (structMemory record rtype tsOut) hready.closed with
      ⟨w, res, hret, hrow⟩
    rw [hret]
    cases hrow with
    | ended fits rows =>
        have hready' : Ready { self with writer := w } := by
          constructor
          · rw [rows]
          · exact hready.written
        refine Adds.all hready' (Added.single ⟨_, _, _, _, rfl⟩ fits ?_) rfl
        rw [rows]
    | refused unfit rows =>
        apply Adds.failed (by simp) _ Nat.zero_lt_one
        rw [rows]
  · rw [encodeOfRtype_of_not_fits hrtype hfits]
    exact Adds.failed (by simp) rfl Nat.zero_lt_one

theorem adds_forEach (hready : Ready self)
    (hrtype : forall record, record ∈ records ->
      HasRtype.rtype record = Except.ok rtype) :
    Adds (IsRecordRow rtype tsOut) records.length self
      (forEach (encodeOfRtype debug rtype tsOut) records self) := by
  induction records generalizing self with
  | nil => exact Adds.all hready (Added.nil _ rfl) rfl
  | cons record rest ih =>
      have hfirst : Adds (IsRecordRow rtype tsOut) 1 self
          (encodeOfRtype debug rtype tsOut record self) :=
        adds_encodeOfRtype hready (hrtype record List.mem_cons_self)
      rw [List.length_cons, Nat.add_comm]
      apply hfirst.bind
      intro self' hready'
      apply ih hready'
      intro r hr
      exact hrtype r (List.mem_cons_of_mem record hr)

end Records

/-!
## Loops
-/

section Loops

variable {decode : Pull Error D RecordRef} {d : D} {rs : List RecordRef}
  {stop : Option Error} {rounds : Nat}

/-- The end of the loop when the decoder has no more records. -/
def finish (stop : Option Error) : Call W Unit :=
  match stop with
  | none => fun self => (Res.ok (), self)
  | some e => WriteM.fail e

omit [RowWriter V W] in
theorem encodeAll_eq [CsvWriter V W] (body : RecordRef -> Call W Unit)
    (hreads : Reads decode d rs stop) (hrounds : rs.length < rounds)
    (self : Encoder W) :
    encodeAll decode body rounds d self =
      .ret ((forEach body rs >>= fun _ => finish stop) self) := by
  induction hreads generalizing rounds self with
  | done call =>
      cases rounds with
      | zero => cases hrounds
      | succ rounds =>
          unfold encodeAll
          rw [call]
          rfl
  | fail call =>
      cases rounds with
      | zero => cases hrounds
      | succ rounds =>
          unfold encodeAll
          rw [call]
          rfl
  | @item d d' r rs stop call rest ih =>
      cases rounds with
      | zero => cases hrounds
      | succ rounds =>
          have hnext := ih (Nat.lt_of_succ_lt_succ hrounds)
          unfold encodeAll
          rw [call, LoopM.forEach_cons_bind]
          unfold WriteM.bind
          dsimp only
          generalize body r self = out
          rcases out with ⟨res, self'⟩
          cases res with
          | ok a => exact hnext self'
          | err e => rfl
          | panic p => rfl

omit [RowWriter V W] in
theorem encodeUpTo_eq [CsvWriter V W] (body : RecordRef -> Call W Unit)
    (hreads : Reads decode d rs stop) {i k : Nat} (hk : 0 < k)
    (hle : k ≤ rs.length) (hrounds : rs.length < rounds)
    (self : Encoder W) :
    encodeUpTo decode (i + k) body rounds i d self =
      .ret (forEach body (rs.take k) self) := by
  induction hreads generalizing rounds i k self with
  | done call => exact absurd (Nat.lt_of_lt_of_le hk hle) (Nat.lt_irrefl 0)
  | fail call => exact absurd (Nat.lt_of_lt_of_le hk hle) (Nat.lt_irrefl 0)
  | @item d d' r rs stop call rest ih =>
      cases rounds with
      | zero => cases hrounds
      | succ rounds =>
          rcases Nat.exists_eq_succ_of_ne_zero (Nat.ne_of_gt hk) with
            ⟨k, rfl⟩
          rw [List.take_succ_cons]
          have hcall : forEach body (r :: rs.take k) self =
              WriteM.bind (body r) (fun _ => forEach body (rs.take k)) self :=
            rfl
          unfold encodeUpTo
          rw [call, hcall]
          unfold WriteM.bind
          dsimp only
          generalize body r self = out
          rcases out with ⟨res, self'⟩
          cases res with
          | ok a =>
              dsimp only
              cases k with
              | zero =>
                  rw [if_pos rfl]
                  rfl
              | succ k =>
                  rw [if_neg (by omega)]
                  have hnext := @ih rounds (i + 1) (k + 1) (Nat.succ_pos k)
                    (Nat.le_of_succ_le_succ hle)
                    (Nat.lt_of_succ_lt_succ hrounds) self'
                  rw [← hnext]
                  congr 1
                  omega
          | err e => rfl
          | panic p => rfl

omit [RowWriter V W] in
theorem forEach_append [CsvWriter V W] (body : RecordRef -> Call W Unit)
    (as bs : List RecordRef) (next : Call W Unit) (self : Encoder W) :
    (forEach body (as ++ bs) >>= fun _ => next) self =
      (forEach body as >>= fun _ =>
        (forEach body bs >>= fun _ => next)) self := by
  induction as generalizing self with
  | nil => rfl
  | cons a rest ih =>
      rw [List.cons_append, LoopM.forEach_cons_bind, LoopM.forEach_cons_bind]
      unfold WriteM.bind
      dsimp only
      generalize body a self = out
      rcases out with ⟨res, self'⟩
      cases res with
      | ok a => exact ih self'
      | err e => rfl
      | panic p => rfl

/-- Flushing does not change the rows. -/
theorem andThen_flush {run : Run W} {self : Encoder W}
    {out : Result Unit × Encoder W} (hrun : run self = .ret out) :
    exists out', andThen run flush self = .ret out' ∧
      rowsOf out'.2 = rowsOf out.2 := by
  unfold andThen
  rw [hrun]
  rcases out with ⟨res, self'⟩
  cases res with
  | err e => exact ⟨_, rfl, rfl⟩
  | panic p => exact ⟨_, rfl, rfl⟩
  | ok a =>
      rcases RowWriter.flush_eq self'.writer with ⟨w, hflush, hrows⟩
      refine ⟨_, rfl, ?_⟩
      unfold flush
      rw [hflush]
      exact hrows

section Grows

variable [TimeFormat] {debug : RecordType -> Bool -> List UInt8 -> String}
  {self : Encoder W} {rtype : RType} {tsOut : Bool}

/-- From a row end on the rows that there are stay. -/
theorem grows_forEach (hready : Ready self)
    (hrtype : forall record, record ∈ rs ->
      HasRtype.rtype record = Except.ok rtype) :
    (rowsOf self).Grows (rowsOf ((forEach (encodeOfRtype debug rtype tsOut)
      rs >>= fun _ => finish stop) self).2) := by
  have hadds : Adds (IsRecordRow rtype tsOut) rs.length self
      (forEach (encodeOfRtype debug rtype tsOut) rs self) :=
    adds_forEach hready hrtype
  rcases hadds.added with ⟨added, hadded⟩
  have hgrows := hadded.grows
  show (rowsOf self).Grows (rowsOf (WriteM.bind
    (forEach (encodeOfRtype debug rtype tsOut) rs)
    (fun _ => finish stop) self).2)
  unfold WriteM.bind
  generalize forEach (encodeOfRtype debug rtype tsOut) rs self = out
    at hgrows
  rcases out with ⟨res, self'⟩
  cases res with
  | ok a =>
      cases stop with
      | none => exact hgrows
      | some e => exact hgrows
  | err e => exact hgrows
  | panic p => exact hgrows

end Grows
end Loops
end CsvEncoder
end Dbn
