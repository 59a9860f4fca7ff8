import Dbn.Lib.Writer

/-!
# CSV writers

A CSV writer takes the fields of a row one by one and then the end of the row.
Unless it is flexible, it refuses to end a row that has not as many fields as
the first one.
-/

namespace Dbn
namespace Lib

/-- The errors of a CSV writer. -/
inductive CsvError where
  | io (source : IoErrorKind)
  | unequalLengths (expectedLen len : Nat)
  | other (debug : String)
deriving DecidableEq, Repr

/-- `{e:?}` of the kind of an error. -/
def CsvError.debug : CsvError -> String
  | .io source => "Io(" ++ reprStr source ++ ")"
  | .unequalLengths expectedLen len =>
      "UnequalLengths \x7b pos: None, expected_len: " ++
        toString expectedLen ++ ", len: " ++ toString len ++ " \x7d"
  | .other debug => debug

/-- The fields of a row. -/
abbrev Row := List (List UInt8)

/-- The calls of a CSV writer over an output of type `V`. -/
class CsvWriter (V : outParam Type) (W : Type) where
  /-- A writer that is not flexible, with a field delimiter. -/
  fromWriter : UInt8 -> V -> W
  writeField : W -> List UInt8 -> Except CsvError Unit × W
  /-- `write_record(None)`. -/
  endRecord : W -> Except CsvError Unit × W
  flush : W -> Except IoErrorKind Unit × W

/-- A CSV writer that leaves its output behind when it goes out of scope. -/
class DropCsvWriter (V : outParam Type) (W : Type) extends CsvWriter V W where
  /-- `drop` flushes the writer and ignores an error. -/
  drop : W -> V

/-!
## Rows
-/

/-- The rows that were ended and the fields of the row that was not. -/
structure Rows where
  ended : List Row
  row : Row
deriving DecidableEq, Repr

namespace Rows

def empty : Rows := ⟨[], []⟩

def addFields (rows : Rows) (fields : Row) : Rows :=
  ⟨rows.ended, rows.row ++ fields⟩

def endRow (rows : Rows) : Rows :=
  ⟨rows.ended ++ [rows.row], []⟩

/-- A row has as many fields as the first one. -/
def Fits (rows : Rows) (row : Row) : Prop :=
  forall first, first ∈ rows.ended.head? -> first.length = row.length

instance (rows : Rows) (row : Row) : Decidable (rows.Fits row) :=
  match h : rows.ended.head? with
  | none => .isTrue (fun _ hfirst => by rw [h] at hfirst; cases hfirst)
  | some first =>
      decidable_of_iff (first.length = row.length)
        ⟨fun heq _ hfirst => by rw [h] at hfirst; cases hfirst; exact heq,
          fun hfits => hfits first h⟩

/-- The rows up to the end of the given number of rows. -/
def cut (n : Nat) (rows : Rows) : Rows :=
  if n ≤ rows.ended.length then ⟨rows.ended.take n, []⟩ else rows

/-- All lines; the last one is empty when all rows were ended. -/
def lines (rows : Rows) : List Row :=
  rows.ended ++ [rows.row]

end Rows

/-- A writer over an output that accepts everything. -/
class RowWriter (V : outParam Type) (W : Type) extends CsvWriter V W where
  rows : W -> Rows
  rows_fromWriter (delimiter : UInt8) (v : V) :
    rows (fromWriter delimiter v) = Rows.empty
  writeField_eq (w : W) (field : List UInt8) :
    exists w', writeField w field = (Except.ok (), w') ∧
      rows w' = (rows w).addFields [field]
  endRecord_of_fits (w : W) (h : (rows w).Fits (rows w).row) :
    exists w', endRecord w = (Except.ok (), w') ∧ rows w' = (rows w).endRow
  endRecord_of_not_fits (w : W) (h : ¬ (rows w).Fits (rows w).row) :
    exists e w', endRecord w = (Except.error e, w') ∧ rows w' = rows w
  flush_eq (w : W) :
    exists w', flush w = (Except.ok (), w') ∧ rows w' = rows w

/-- A row writer that leaves the rows that were ended in its output. -/
class RowOutput (V : outParam Type) (W : Type) extends RowWriter V W,
    DropCsvWriter V W where
  received : V -> List Row
  /-- The output that the writer was made from. -/
  origin : W -> V
  origin_fromWriter (delimiter : UInt8) (v : V) :
    origin (fromWriter delimiter v) = v
  origin_writeField (w : W) (field : List UInt8) :
    origin (writeField w field).2 = origin w
  origin_endRecord (w : W) : origin (endRecord w).2 = origin w
  received_drop (w : W) (h : (rows w).row = []) :
    received (drop w) = received (origin w) ++ (rows w).ended

/-- A writer that keeps its rows. -/
instance : RowWriter Unit Rows where
  fromWriter _ _ := Rows.empty
  writeField rows field := (Except.ok (), rows.addFields [field])
  endRecord rows :=
    if rows.Fits rows.row then (Except.ok (), rows.endRow)
    else
      (Except.error (.unequalLengths
        (rows.ended.headD []).length rows.row.length), rows)
  flush rows := (Except.ok (), rows)
  rows := id
  rows_fromWriter _ _ := rfl
  writeField_eq _ _ := ⟨_, rfl, rfl⟩
  endRecord_of_fits _ h := ⟨_, if_pos h, rfl⟩
  endRecord_of_not_fits _ h := ⟨_, _, if_neg h, rfl⟩
  flush_eq _ := ⟨_, rfl, rfl⟩

/-!
## Growing rows
-/

namespace Rows

variable {rows rows' rows'' : Rows} {row fields : Row} {n : Nat}

theorem addFields_nil (rows : Rows) : rows.addFields [] = rows := by
  unfold addFields
  rw [List.append_nil]

theorem addFields_addFields (rows : Rows) (fields fields' : Row) :
    (rows.addFields fields).addFields fields' =
      rows.addFields (fields ++ fields') := by
  unfold addFields
  rw [List.append_assoc]

/-- No row is begun. -/
def Closed (rows : Rows) : Prop :=
  rows.row = []

/-- More rows, with all the rows that there were. -/
def Grows (rows rows' : Rows) : Prop :=
  rows.ended <+: rows'.ended

theorem Grows.refl (rows : Rows) : Grows rows rows :=
  List.prefix_refl _

theorem Grows.trans (h : Grows rows rows') (h' : Grows rows' rows'') :
    Grows rows rows'' :=
  List.IsPrefix.trans h h'

theorem cut_of_grows (hclosed : rows.Closed) (hgrows : Grows rows rows')
    (hlen : rows.ended.length = n) : rows'.cut n = rows := by
  have hle : n ≤ rows'.ended.length := by
    rw [← hlen]
    exact hgrows.length_le
  unfold cut
  rw [if_pos hle, ← hlen, ← List.prefix_iff_eq_take.mp hgrows]
  cases rows with
  | mk ended row =>
      cases hclosed
      rfl

theorem cut_of_lt (h : rows.ended.length < n) : rows.cut n = rows :=
  if_neg (Nat.not_le_of_lt h)

/-- A cut keeps the lines before its place. -/
theorem lines_cut {i : Nat} (h : i < n) :
    (rows.cut n).lines[i]? = rows.lines[i]? := by
  by_cases hn : n ≤ rows.ended.length
  · have hi : i < rows.ended.length := Nat.lt_of_lt_of_le h hn
    have htake : i < (rows.ended.take n).length := by
      rw [List.length_take, Nat.min_eq_left hn]
      exact h
    unfold cut lines
    rw [if_pos hn, List.getElem?_append_left htake,
      List.getElem?_append_left hi, List.getElem?_take_of_lt h]
  · unfold cut
    rw [if_neg hn]

/-- A row that was ended stays. -/
theorem Grows.lines_eq {i : Nat} (h : Grows rows rows')
    (hi : i < rows.ended.length) : rows'.lines[i]? = rows.lines[i]? := by
  have hi' : i < rows'.ended.length := Nat.lt_of_lt_of_le hi h.length_le
  unfold lines
  rw [List.getElem?_append_left hi', List.getElem?_append_left hi,
    List.getElem?_eq_getElem hi, List.getElem?_eq_getElem hi',
    List.IsPrefix.getElem h hi]

end Rows
end Lib
end Dbn
