import Dbn.Encode.Dispatch
import Dbn.Encode.FieldTexts
import Dbn.Lib.Csv

/-!
# Records as rows

The columns of a record struct and the row of a record.  A row has a field for
each column, and it is never the row of the column names.
-/

namespace Dbn

open Lib

/-!
## Columns
-/

namespace FieldDesc

/-- `{i:02}`. -/
def levelSuffix (i : Nat) : List UInt8 :=
  asciiBytes "_" ++ padZeros 2 (itoaNat i)

/-- `write_header` of an array of levels. -/
def levelsHeader (levels : Nat) (names : List String) : Row :=
  (List.range levels).flatMap (fun i =>
    names.map (fun name => asciiBytes name ++ levelSuffix i))

/-- `write_header`, which only the header and the arrays of levels define. -/
def writeHeader (f : FieldDesc) : Row :=
  match f.ty with
  | .recordHeader =>
      (serializedFields recordHeaderFields).map (fun g => asciiBytes g.name)
  | .bidAskPairs levels =>
      levelsHeader levels
        ["bid_px", "ask_px", "bid_sz", "ask_sz", "bid_ct", "ask_ct"]
  | .consolidatedBidAskPairs levels =>
      levelsHeader levels
        ["bid_px", "ask_px", "bid_sz", "ask_sz", "bid_pb", "ask_pb"]
  | _ => [asciiBytes f.name]

end FieldDesc

namespace RecordType

open FieldDesc

/-- `serialize_header`, of the struct or of `WithTsOut` of it. -/
def serializeHeader (t : RecordType) (tsOut : Bool) : Row :=
  (serializedFields t.fields).flatMap writeHeader ++
    if tsOut then [asciiBytes "ts_out"] else []

/-!
### Fields of every record
-/

theorem rtype_mem_serializedFields :
    field "rtype" .u8 ∈ serializedFields recordHeaderFields := by
  rw [(serializedFields_perm recordHeader_names_nodup).mem_iff]
  decide

theorem hd_mem_serializedFields (t : RecordType) :
    field "hd" .recordHeader ∈ serializedFields t.fields := by
  rw [(serializedFields_perm t.names_nodup).mem_iff, List.mem_filter]
  constructor
  · cases t with
    | versioned s => cases s <;> exact List.mem_cons_self
    | _ => exact List.mem_cons_self
  · decide

theorem serializeHeader_ne_nil (t : RecordType) (tsOut : Bool) :
    t.serializeHeader tsOut ≠ [] := by
  have hrtype : asciiBytes "rtype" ∈ t.serializeHeader tsOut := by
    apply List.mem_append_left
    apply List.mem_flatMap_of_mem t.hd_mem_serializedFields
    exact List.mem_map.mpr ⟨_, rtype_mem_serializedFields, rfl⟩
  exact List.ne_nil_of_mem hrtype

/-!
### Columns of the structs of a schema
-/

def columnCount (t : RecordType) : Nat :=
  ((t.fields.filter (fun f => !f.isHidden)).map (fun f =>
    f.writeHeader.length)).sum

theorem length_serializeHeader (t : RecordType) (tsOut : Bool) :
    (t.serializeHeader tsOut).length =
      t.columnCount + if tsOut then 1 else 0 := by
  unfold serializeHeader columnCount
  rw [List.length_append, List.length_flatMap,
    ((serializedFields_perm t.names_nodup).map _).sum_nat]
  cases tsOut <;> rfl

theorem columnCount_instrumentDefV1 :
    (versioned .instrumentDefV1).columnCount = 64 := by
  decide +kernel

theorem columnCount_instrumentDefV2 :
    (versioned .instrumentDefV2).columnCount = 64 := by
  decide +kernel

theorem columnCount_instrumentDefV3 :
    (versioned .instrumentDefV3).columnCount = 73 := by
  decide +kernel

theorem serializeHeader_statV1 (tsOut : Bool) :
    (versioned .statV1).serializeHeader tsOut =
      (versioned .statV3).serializeHeader tsOut := by
  cases tsOut <;> decide +kernel

/-- A struct with nearly as many columns as the current one has its columns. -/
theorem serializeHeader_eq_of_length {schema : Schema} {t : RecordType}
    (more : Nat) (ht : t ∈ schema.structs) {tsOut : Bool} (hmore : more ≤ 1)
    (h : (schema.dispatch.serializeHeader false).length =
      (t.serializeHeader tsOut).length + more) :
    tsOut = false ∧ more = 0 ∧
      t.serializeHeader false = schema.dispatch.serializeHeader false := by
  rw [length_serializeHeader, length_serializeHeader] at h
  have hsame : t.columnCount = schema.dispatch.columnCount ->
      tsOut = false ∧ more = 0 := by
    intro heq
    rw [heq] at h
    cases tsOut with
    | false => exact ⟨rfl, by simpa using h⟩
    | true =>
        exfalso
        simp at h
        omega
  have hcolumns : t.serializeHeader false =
      schema.dispatch.serializeHeader false ->
      tsOut = false ∧ more = 0 ∧
        t.serializeHeader false = schema.dispatch.serializeHeader false := by
    intro heq
    have hlen := congrArg List.length heq
    rw [length_serializeHeader, length_serializeHeader] at hlen
    rcases hsame (by simpa using hlen) with ⟨htsOut, hzero⟩
    exact ⟨htsOut, hzero, heq⟩
  have hextra : (if tsOut = true then 1 else 0) ≤ 1 := by
    cases tsOut <;> decide
  cases schema
  case definition =>
    unfold Schema.structs at ht
    unfold Schema.dispatch at h
    rw [columnCount_instrumentDefV3] at h
    simp only [List.mem_cons, List.not_mem_nil, or_false] at ht
    rcases ht with rfl | rfl | rfl
    · rw [columnCount_instrumentDefV1] at h
      simp at h
      omega
    · rw [columnCount_instrumentDefV2] at h
      simp at h
      omega
    · exact hcolumns rfl
  case statistics =>
    unfold Schema.structs at ht
    simp only [List.mem_cons, List.not_mem_nil, or_false] at ht
    rcases ht with rfl | rfl
    · exact hcolumns (serializeHeader_statV1 false)
    · exact hcolumns rfl
  all_goals
    exact hcolumns (congrArg (fun t => t.serializeHeader false)
      (List.mem_singleton.mp ht))

/-- The older structs of the definition schema have fewer columns. -/
theorem dispatch_size_of_serializeHeader_eq {schema : Schema} {n : Nat}
    (h : ((RType.fromSchema schema).dispatch n).serializeHeader false =
      schema.dispatch.serializeHeader false)
    (hschema : schema = .definition) :
    RecordStruct.instrumentDefV3.size ≤ n := by
  rw [hschema] at h
  have hlen := congrArg List.length h
  unfold RType.fromSchema RType.dispatch Schema.dispatch at hlen
  dsimp only at hlen
  rw [length_serializeHeader, length_serializeHeader,
    columnCount_instrumentDefV3] at hlen
  split at hlen
  · rw [columnCount_instrumentDefV1] at hlen
    cases hlen
  · split at hlen
    · rw [columnCount_instrumentDefV2] at hlen
      cases hlen
    · next hlt => exact Nat.le_of_not_lt hlt

end RecordType

/-!
## Rows
-/

section Texts

variable [TimeFormat] (prettyPx prettyTs : Bool)

def writePxField (px : Int) : List UInt8 :=
  if prettyPx then
    if px = undefPrice then [] else fmtPx px
  else itoa px

def writeTsField (ts : Nat) : List UInt8 :=
  if prettyTs then
    if ts = 0 ∨ ts = undefTimestamp then [] else fmtTs ts
  else itoaNat ts

def writeCCharField (c : UInt8) : List UInt8 :=
  if c = 0 then [] else escapeDefault c

namespace FieldType

/-- `write_field` of the types with one field. -/
def writeField (ty : FieldType) (bytes : List UInt8) : List UInt8 :=
  match ty with
  | chars _ => (Conversion.cCharsToStr bytes).getD []
  | securityUpdateAction | userDefinedInstrument => bytes
  | ty => itoa (ty.integer bytes)

end FieldType

namespace FieldDesc

/-- The field that the derived `serialize_to` writes for a plain field. -/
def writePlainField (f : FieldDesc) (bytes : List UInt8) : List UInt8 :=
  match f.attr with
  | some .unixNanos => writeTsField prettyTs (leNat bytes)
  | some .fixedPrice => writePxField prettyPx (leInt bytes)
  | some .cChar => writeCCharField (bytes.headD 0)
  | none => f.ty.writeField bytes

/-- `write_field` of an array of levels. -/
def levelsFields (levels : Nat) (fields : List FieldDesc)
    (bytes : List UInt8) : Row :=
  (levelsOf levels bytes).flatMap (fun level =>
    (fields.filter (fun f => !f.isHidden)).map (fun f =>
      writePlainField prettyPx prettyTs f (get fields level f)))

def writeFields (f : FieldDesc) (bytes : List UInt8) : Row :=
  match f.ty with
  | .recordHeader =>
      (serializedFields recordHeaderFields).map (fun g =>
        writePlainField prettyPx prettyTs g (get recordHeaderFields bytes g))
  | .bidAskPairs levels =>
      levelsFields prettyPx prettyTs levels bidAskPairFields bytes
  | .consolidatedBidAskPairs levels =>
      levelsFields prettyPx prettyTs levels consolidatedBidAskPairFields bytes
  | _ => [writePlainField prettyPx prettyTs f bytes]

end FieldDesc

namespace RecordType

open FieldDesc

/-- `serialize_to`, of the struct or of `WithTsOut` of it. -/
def serializeTo (t : RecordType) (tsOut : Bool) (memory : List UInt8) : Row :=
  (serializedFields t.fields).flatMap (fun f =>
      FieldDesc.writeFields prettyPx prettyTs f (get t.fields memory f)) ++
    if tsOut then
      [writeTsField prettyTs (leNat ((memory.drop t.size).take 8))]
    else []

end RecordType

/-!
## A row has a field for each column
-/

variable {prettyPx prettyTs}

namespace FieldDesc

theorem length_levelsFields (levels : Nat) {fields : List FieldDesc}
    {names : List String} (hnames :
      (fields.filter (fun f => !f.isHidden)).length = names.length)
    (bytes : List UInt8) :
    (levelsFields prettyPx prettyTs levels fields bytes).length =
      (levelsHeader levels names).length := by
  unfold levelsFields levelsHeader levelsOf
  rw [List.flatMap_map, List.length_flatMap, List.length_flatMap]
  simp only [List.length_map, hnames]

theorem length_writeFields (f : FieldDesc) (bytes : List UInt8) :
    (writeFields prettyPx prettyTs f bytes).length = f.writeHeader.length := by
  unfold writeFields writeHeader
  split
  · rw [List.length_map, List.length_map]
  · exact length_levelsFields _ (by rfl) _
  · exact length_levelsFields _ (by rfl) _
  · rfl

end FieldDesc

namespace RecordType

variable {t : RecordType}

theorem length_serializeTo (t : RecordType) (tsOut : Bool)
    (memory : List UInt8) :
    (t.serializeTo prettyPx prettyTs tsOut memory).length =
      (t.serializeHeader tsOut).length := by
  unfold serializeTo serializeHeader
  rw [List.length_append, List.length_append, List.length_flatMap,
    List.length_flatMap]
  simp only [FieldDesc.length_writeFields]
  cases tsOut <;> rfl

end RecordType

/-!
## A row is not a row of names
-/

namespace RecordType

open FieldDesc

omit [TimeFormat] in
/-- A name of a column starts with a letter. -/
theorem name_of_mem_writeHeader (t : RecordType) :
    forall f, f ∈ t.fields -> f.isHidden = false ->
      forall name, name ∈ f.writeHeader ->
        0x60 < name.headD 0 ∧ name ≠ asciiBytes "ts_out" := by
  cases t with
  | versioned s => cases s <;> decide +kernel
  | _ => decide +kernel

omit [TimeFormat] in
theorem tsOut_not_mem_serializeHeader (t : RecordType) :
    asciiBytes "ts_out" ∉ t.serializeHeader false := by
  intro hmem
  unfold serializeHeader at hmem
  rw [if_neg (by decide), List.append_nil] at hmem
  rcases List.mem_flatMap.mp hmem with ⟨f, hf, hname⟩
  rcases mem_serializedFields.mp hf with ⟨hf, hhidden⟩
  exact (t.name_of_mem_writeHeader f hf hhidden _ hname).2 rfl

omit [TimeFormat] in
theorem itoaNat_not_mem_serializeHeader (n : Nat) (t : RecordType)
    (tsOut : Bool) : itoaNat n ∉ t.serializeHeader tsOut := by
  intro hmem
  have hletter : 0x60 < (itoaNat n).headD 0 := by
    rcases List.mem_append.mp hmem with hfields | htsOut
    · rcases List.mem_flatMap.mp hfields with ⟨f, hf, hname⟩
      rcases mem_serializedFields.mp hf with ⟨hf, hhidden⟩
      exact (t.name_of_mem_writeHeader f hf hhidden _ hname).1
    · cases tsOut with
      | false => cases htsOut
      | true =>
          rw [List.mem_singleton.mp htsOut]
          decide
  cases htext : itoaNat n with
  | nil =>
      rw [htext] at hletter
      exact absurd hletter (by decide)
  | cons b rest =>
      rw [htext] at hletter
      have hdigit := isDigit_of_mem_itoaNat (n := n) (b := b)
        (by rw [htext]; exact List.mem_cons_self)
      exact absurd (Nat.lt_of_lt_of_le hletter hdigit.2) (by decide)

/-- The record type is a number in a row. -/
theorem exists_itoaNat_mem_serializeTo (t : RecordType) (tsOut : Bool)
    (memory : List UInt8) :
    exists n, itoaNat n ∈ t.serializeTo prettyPx prettyTs tsOut memory := by
  refine ⟨leNat (get recordHeaderFields
    (get t.fields memory (field "hd" .recordHeader)) (field "rtype" .u8)), ?_⟩
  apply List.mem_append_left
  apply List.mem_flatMap_of_mem t.hd_mem_serializedFields
  exact List.mem_map.mpr ⟨_, rtype_mem_serializedFields, rfl⟩

theorem serializeTo_ne_serializeHeader (t t' : RecordType)
    (tsOut tsOut' : Bool) (memory : List UInt8) :
    t.serializeTo prettyPx prettyTs tsOut memory ≠
      t'.serializeHeader tsOut' := by
  intro h
  rcases t.exists_itoaNat_mem_serializeTo tsOut memory with ⟨n, hmem⟩
  rw [h] at hmem
  exact itoaNat_not_mem_serializeHeader n t' tsOut' hmem

end RecordType
end Texts
end Dbn
