import Dbn.Encode.CompactJson

/-!
# Records as JSON lines

All of a record goes through the escapes of the JSON writer but the single
characters, which are escaped for a terminal and written as they are then.
-/

namespace Dbn
namespace JsonSerialize

open Lib
open Lib.Json

/-!
## Fields
-/

section Serialize

variable [TimeFormat] (prettyPx prettyTs : Bool)

def writePxField (px : Int) : Doc :=
  if prettyPx then
    if px = undefPrice then .null else .string (fmtPx px)
  else .string (itoa px)

def writeTsField (ts : Nat) : Doc :=
  if prettyTs then
    if ts = 0 ∨ ts = undefTimestamp then .null else .string (fmtTs ts)
  else .string (itoaNat ts)

def writeCCharField (c : UInt8) : Doc :=
  if c = 0 then .null
  else .raw [asciiBytes "\"", escapeDefault c, asciiBytes "\""]

/-- `encode_utf8` of a byte as a character. -/
def encodeUtf8 (b : UInt8) : Text :=
  if b < 0x80 then [b]
  else [UInt8.ofNat (0xC0 + b.toNat / 64), UInt8.ofNat (0x80 + b.toNat % 64)]

/-- `write_field` of the types with one value. -/
def writeValue (ty : FieldType) (bytes : List UInt8) : Doc :=
  match ty with
  | .chars _ => .string ((Conversion.cCharsToStr bytes).getD [])
  | .securityUpdateAction | .userDefinedInstrument =>
      .string (encodeUtf8 (bytes.headD 0))
  | .i64 | .u64 => .string (itoa (ty.integer bytes))
  | ty => .integer (ty.integer bytes)

/-- What the derived `to_json` writes for a plain field. -/
def writePlainField (f : FieldDesc) (bytes : List UInt8) : Doc :=
  match f.attr with
  | some .unixNanos => writeTsField prettyTs (leNat bytes)
  | some .fixedPrice => writePxField prettyPx (leInt bytes)
  | some .cChar => writeCCharField (bytes.headD 0)
  | none => writeValue f.ty bytes

def writePlainFields (fields serialized : List FieldDesc)
    (memory : List UInt8) : List (String × Doc) :=
  serialized.map (fun f =>
    (f.name, writePlainField prettyPx prettyTs f (f.get fields memory)))

/-- `RecordHeader::write_field`. -/
def writeRecordHeader (memory : List UInt8) : Doc :=
  .object (Members.ofList (writePlainFields prettyPx prettyTs
    recordHeaderFields
    [.nanos "ts_event", .field "rtype" .u8, .field "publisher_id" .u16,
      .field "instrument_id" .u32] memory))

/-- `write_field` of an array of levels. -/
def writeLevels (levels : Nat) (fields : List FieldDesc)
    (memory : List UInt8) : Doc :=
  .array (Items.ofList ((levelsOf levels memory).map (fun level =>
    .object (Members.ofList (writePlainFields prettyPx prettyTs fields
      (fields.filter (fun f => !f.isHidden)) level)))))

def writeField (f : FieldDesc) (bytes : List UInt8) : Doc :=
  match f.ty with
  | .recordHeader => writeRecordHeader prettyPx prettyTs bytes
  | .bidAskPairs levels =>
      writeLevels prettyPx prettyTs levels bidAskPairFields bytes
  | .consolidatedBidAskPairs levels =>
      writeLevels prettyPx prettyTs levels consolidatedBidAskPairFields bytes
  | _ => writePlainField prettyPx prettyTs f bytes

/-- `to_json`, of the struct or of `WithTsOut` of it. -/
def toJson (t : RecordType) (tsOut : Bool) (memory : List UInt8) :
    List (String × Doc) :=
  (FieldDesc.serializedFields t.fields).map (fun f =>
      (f.name, writeField prettyPx prettyTs f (f.get t.fields memory))) ++
    if tsOut then
      [("ts_out", writeTsField prettyTs (leNat ((memory.drop t.size).take 8)))]
    else []

/-- `to_json_in_buf`; `json` is the writer, with and without pretty print. -/
def toJsonInBuf (json : Bool -> Doc -> Text) (buf : Text) (t : RecordType)
    (tsOut : Bool) (memory : List UInt8) (shouldPrettyPrint : Bool) : Text :=
  buf ++ json shouldPrettyPrint
    (.object (Members.ofList (toJson prettyPx prettyTs t tsOut memory))) ++
    [0x0A]

end Serialize

/-!
## Escapes of characters
-/

/-- A character whose escape is also one of JSON, or NUL. -/
def SafeChar (c : UInt8) : Prop :=
  c ∈ ([0x00, 0x09, 0x0A, 0x0D] : List UInt8) ∨
    0x20 ≤ c ∧ c ≤ 0x7E ∧ c ≠ 0x27

instance (c : UInt8) : Decidable (SafeChar c) :=
  inferInstanceAs (Decidable (_ ∨ _))

def rawChar (c : UInt8) : Text :=
  [asciiBytes "\"", escapeDefault c, asciiBytes "\""].flatten

theorem rawChar_eq (c : UInt8) : rawChar c = quoted (escapeDefault c) := by
  unfold rawChar quoted
  rw [List.flatten_cons, List.flatten_cons, List.flatten_cons,
    List.flatten_nil, List.append_nil, List.append_assoc]
  rfl

theorem isString_rawChar {c : UInt8} (hne : c ≠ 0) (h : SafeChar c) :
    IsString (rawChar c) := by
  refine ⟨escapeDefault c, ?_, rawChar_eq c⟩
  unfold escapeDefault
  split
  · exact IsBody.escaped (by decide) IsBody.nil
  split
  · exact IsBody.escaped (by decide) IsBody.nil
  split
  · exact IsBody.escaped (by decide) IsBody.nil
  split
  · next hquote =>
      rw [hquote] at h
      exact absurd h (by decide)
  split
  · exact IsBody.escaped (by decide) IsBody.nil
  split
  · exact IsBody.escaped (by decide) IsBody.nil
  · next htab hreturn hnewline hapostrophe hquote hbackslash =>
      rcases h with hcontrol | ⟨hlow, hhigh, _⟩
      · simp only [List.mem_cons, List.not_mem_nil, or_false] at hcontrol
        rcases hcontrol with h | h | h | h
        · exact absurd h hne
        · exact absurd h htab
        · exact absurd h hnewline
        · exact absurd h hreturn
      · rw [if_pos ⟨hlow, hhigh⟩]
        exact IsBody.plain hlow hquote hbackslash IsBody.nil

theorem refused_rawChar {c : UInt8} (h : ¬ SafeChar c) :
    Scan.run .outside (rawChar c) = .refused := by
  have hcontrol : c ∉ ([0x00, 0x09, 0x0A, 0x0D] : List UInt8) :=
    fun hc => h (Or.inl hc)
  rw [rawChar_eq]
  unfold quoted
  rw [Scan.run_append]
  have hescaped : Scan.run .outside ([0x22] ++ escapeDefault c) =
      .refused := by
    unfold escapeDefault
    rw [if_neg (fun hc => hcontrol (by rw [hc]; decide)),
      if_neg (fun hc => hcontrol (by rw [hc]; decide)),
      if_neg (fun hc => hcontrol (by rw [hc]; decide))]
    split
    · decide
    · next hapostrophe =>
        rw [if_neg (fun hc => h (by rw [hc]; decide)),
          if_neg (fun hc => h (by rw [hc]; decide)),
          if_neg (fun hc => h (Or.inr ⟨hc.1, hc.2, hapostrophe⟩))]
        have hx : Scan.run .outside ([0x22] ++ asciiBytes "\\x") =
            .refused := by
          decide
        rw [← List.append_assoc, Scan.run_append, hx, Scan.run_refused]
  rw [hescaped, Scan.run_refused]

theorem safeChar_of_isString {c : UInt8}
    (hne : c ≠ 0 -> IsString (rawChar c)) : SafeChar c := by
  by_contra hsafe
  have hzero : c ≠ 0 := by
    intro h
    rw [h] at hsafe
    exact hsafe (by decide)
  have hneutral := Scan.neutral_of_isString (hne hzero)
  unfold Scan.Neutral at hneutral
  rw [refused_rawChar hsafe] at hneutral
  cases hneutral

/-!
## Raw texts of a record
-/

section Raw

variable {prettyPx prettyTs : Bool} {f : FieldDesc}
  {bytes memory : List UInt8} {r : Text}

theorem not_hasRaw_string {s : Text} : ¬ HasRaw (.value (.string s)) r := by
  intro h
  cases h

theorem not_hasRaw_null : ¬ HasRaw (.value .null) r := by
  intro h
  cases h

theorem not_hasRaw_writePxField (px : Int) :
    ¬ HasRaw (.value (writePxField prettyPx px)) r := by
  unfold writePxField
  split
  · split
    · exact not_hasRaw_null
    · exact not_hasRaw_string
  · exact not_hasRaw_string

theorem not_hasRaw_writeValue (ty : FieldType) :
    ¬ HasRaw (.value (writeValue ty bytes)) r := by
  intro h
  cases ty <;> cases h

theorem hasRaw_writeCCharField {c : UInt8} :
    HasRaw (.value (writeCCharField c)) r <-> c ≠ 0 ∧ r = rawChar c := by
  unfold writeCCharField
  by_cases hc : c = 0
  · rw [if_pos hc]
    constructor
    · intro h
      exact absurd h not_hasRaw_null
    · intro h
      exact absurd hc h.1
  · rw [if_neg hc]
    constructor
    · intro h
      cases h
      exact ⟨hc, rfl⟩
    · intro h
      rw [h.2]
      exact HasRaw.raw

theorem ty_of_cChar (t : RecordType) :
    forall f, f ∈ t.fields -> f.attr = some .cChar -> f.ty = .cChar := by
  cases t with
  | versioned s => cases s <;> decide
  | _ => decide

variable [TimeFormat]

theorem not_hasRaw_writeTsField (ts : Nat) :
    ¬ HasRaw (.value (writeTsField prettyTs ts)) r := by
  unfold writeTsField
  split
  · split
    · exact not_hasRaw_null
    · exact not_hasRaw_string
  · exact not_hasRaw_string

/-- Only characters are written raw. -/
theorem hasRaw_writePlainField :
    HasRaw (.value (writePlainField prettyPx prettyTs f bytes)) r <->
      f.attr = some .cChar ∧ bytes.headD 0 ≠ 0 ∧
        r = rawChar (bytes.headD 0) := by
  unfold writePlainField
  cases hattr : f.attr with
  | none =>
      constructor
      · intro h
        exact absurd h (not_hasRaw_writeValue f.ty)
      · intro h
        cases h.1
  | some attr =>
      cases attr with
      | unixNanos =>
          constructor
          · intro h
            exact absurd h (not_hasRaw_writeTsField _)
          · intro h
            cases h.1
      | fixedPrice =>
          constructor
          · intro h
            exact absurd h (not_hasRaw_writePxField _)
          · intro h
            cases h.1
      | cChar =>
          dsimp only
          rw [hasRaw_writeCCharField]
          constructor
          · intro h
            exact ⟨rfl, h⟩
          · intro h
            exact h.2

theorem not_hasRaw_writePlainFields {fields serialized : List FieldDesc}
    (hattr : forall f, f ∈ serialized -> f.attr ≠ some .cChar) :
    ¬ HasRaw (.value (.object (Members.ofList (writePlainFields prettyPx
      prettyTs fields serialized memory)))) r := by
  intro h
  cases h with
  | object h =>
      rcases hasRaw_members_ofList.mp h with ⟨member, hmember, hr⟩
      rcases List.mem_map.mp hmember with ⟨f, hf, rfl⟩
      exact hattr f hf (hasRaw_writePlainField.mp hr).1

theorem not_hasRaw_writeLevels {levels : Nat} {fields : List FieldDesc}
    (hattr : forall f, f ∈ fields -> f.attr ≠ some .cChar) :
    ¬ HasRaw (.value (writeLevels prettyPx prettyTs levels fields memory))
      r := by
  intro h
  cases h with
  | array h =>
      rcases hasRaw_items_ofList.mp h with ⟨item, hitem, hr⟩
      rcases List.mem_map.mp hitem with ⟨level, _, rfl⟩
      exact not_hasRaw_writePlainFields
        (fun f hf => hattr f (List.mem_of_mem_filter hf)) hr

theorem hasRaw_writeField (hty : f.attr = some .cChar -> f.ty = .cChar) :
    HasRaw (.value (writeField prettyPx prettyTs f bytes)) r <->
      f.attr = some .cChar ∧ bytes.headD 0 ≠ 0 ∧
        r = rawChar (bytes.headD 0) := by
  have hnone : f.ty ≠ .cChar ->
      ¬ HasRaw (.value (writeField prettyPx prettyTs f bytes)) r ->
      (HasRaw (.value (writeField prettyPx prettyTs f bytes)) r <->
        f.attr = some .cChar ∧ bytes.headD 0 ≠ 0 ∧
          r = rawChar (bytes.headD 0)) := by
    intro hne hnot
    constructor
    · intro h
      exact absurd h hnot
    · intro h
      exact absurd (hty h.1) hne
  cases htype : f.ty with
  | recordHeader =>
      apply hnone (by rw [htype]; simp)
      unfold writeField
      rw [htype]
      exact not_hasRaw_writePlainFields (by decide)
  | bidAskPairs levels =>
      apply hnone (by rw [htype]; simp)
      unfold writeField
      rw [htype]
      exact not_hasRaw_writeLevels (by decide)
  | consolidatedBidAskPairs levels =>
      apply hnone (by rw [htype]; simp)
      unfold writeField
      rw [htype]
      exact not_hasRaw_writeLevels (by decide)
  | _ =>
      unfold writeField
      rw [htype]
      exact hasRaw_writePlainField

/-- The raw texts of a record are those of its characters. -/
theorem hasRaw_toJson {t : RecordType} {tsOut : Bool} :
    HasRaw (.members (Members.ofList
        (toJson prettyPx prettyTs t tsOut memory))) r <->
      exists f, f ∈ t.fields ∧ f.isHidden = false ∧ f.attr = some .cChar ∧
        (f.get t.fields memory).headD 0 ≠ 0 ∧
        r = rawChar ((f.get t.fields memory).headD 0) := by
  rw [hasRaw_members_ofList]
  unfold toJson
  constructor
  · intro h
    rcases h with ⟨member, hmember, hr⟩
    cases List.mem_append.mp hmember with
    | inl hfield =>
        rcases List.mem_map.mp hfield with ⟨f, hf, rfl⟩
        rcases RecordType.mem_serializedFields.mp hf with ⟨hf, hhidden⟩
        exact ⟨f, hf, hhidden,
          (hasRaw_writeField (ty_of_cChar t f hf)).mp hr⟩
    | inr htsOut =>
        cases tsOut with
        | false => cases htsOut
        | true =>
            rw [if_pos rfl, List.mem_singleton] at htsOut
            rw [htsOut] at hr
            exact absurd hr (not_hasRaw_writeTsField _)
  · intro h
    rcases h with ⟨f, hf, hhidden, hr⟩
    refine ⟨_, List.mem_append_left _ (List.mem_map_of_mem
      (RecordType.mem_serializedFields.mpr ⟨hf, hhidden⟩)), ?_⟩
    exact (hasRaw_writeField (ty_of_cChar t f hf)).mpr hr

end Raw

/-!
## JSON lines
-/

/-- An object and a newline. -/
def IsLine (line : Text) : Prop :=
  exists object, Valid .object object ∧ line = object ++ [0x0A]

section Lines

variable [TimeFormat] {json : Bool -> Doc -> Text}

/-- What is appended is a line when the text of the writer is an object. -/
theorem appends_line_iff {buf : Text} {t : RecordType} {tsOut : Bool}
    {memory : List UInt8} {prettyPx prettyTs shouldPrettyPrint : Bool} :
    (exists line,
      toJsonInBuf prettyPx prettyTs json buf t tsOut memory
        shouldPrettyPrint = buf ++ line ∧ IsLine line) <->
      Valid .object (json shouldPrettyPrint
        (.object (Members.ofList
          (toJson prettyPx prettyTs t tsOut memory)))) := by
  unfold toJsonInBuf
  constructor
  · intro h
    rcases h with ⟨line, heq, object, hobject, rfl⟩
    rw [List.append_assoc] at heq
    rw [List.append_cancel_right (List.append_cancel_left heq)]
    exact hobject
  · intro h
    exact ⟨_, List.append_assoc _ _ _, _, h, rfl⟩

/-- The record is an object when its characters are safe. -/
theorem valid_toJson_iff {t : RecordType} {tsOut : Bool}
    {memory : List UInt8} {prettyPx prettyTs : Bool} {text : Text}
    (h : Rendered (.value (.object (Members.ofList
      (toJson prettyPx prettyTs t tsOut memory)))) text) :
    Valid .object text <->
      forall f, f ∈ t.fields -> f.isHidden = false ->
        f.attr = some .cChar -> SafeChar ((f.get t.fields memory).headD 0) := by
  have hvalid := valid_object_iff h (by
    intro r hr
    rcases hasRaw_toJson.mp hr with ⟨f, _, _, _, hne, rfl⟩
    by_cases hsafe : SafeChar ((f.get t.fields memory).headD 0)
    · exact Or.inl (isString_rawChar hne hsafe)
    · exact Or.inr (refused_rawChar hsafe))
  rw [hvalid]
  constructor
  · intro h f hf hhidden hattr
    apply safeChar_of_isString
    intro hne
    exact h _ (hasRaw_toJson.mpr ⟨f, hf, hhidden, hattr, hne, rfl⟩)
  · intro h r hr
    rcases hasRaw_toJson.mp hr with ⟨f, hf, hhidden, hattr, hne, rfl⟩
    exact isString_rawChar hne (h f hf hhidden hattr)

/--
A record becomes a JSON line exactly when the escape of each of its characters
is also one of JSON.
-/
theorem isLine_toJsonInBuf_iff
    (hjson : forall shouldPrettyPrint doc,
      Rendered (.value doc) (json shouldPrettyPrint doc))
    (buf : Text) (t : RecordType) (tsOut : Bool) (memory : List UInt8)
    (prettyPx prettyTs shouldPrettyPrint : Bool) :
    (exists line,
      toJsonInBuf prettyPx prettyTs json buf t tsOut memory
        shouldPrettyPrint = buf ++ line ∧ IsLine line) <->
      forall f, f ∈ t.fields -> f.isHidden = false ->
        f.attr = some .cChar ->
        SafeChar ((f.get t.fields memory).headD 0) := by
  rw [appends_line_iff]
  exact valid_toJson_iff (hjson shouldPrettyPrint _)

end Lines

section Example

local instance : TimeFormat where
  format _ := none

/-- A trade with an action. -/
def tradeMemory (action : UInt8) : List UInt8 :=
  List.replicate 28 0 ++ [action, 0x4E] ++ List.replicate 18 0

/-- The text has `"action":"\xff"`. -/
theorem not_isLine_tradeMemory :
    ¬ exists line,
      toJsonInBuf true true (fun _ => compact) [] .trade false
        (tradeMemory 0xFF) false = [] ++ line ∧ IsLine line := by
  rw [appends_line_iff, valid_toJson_iff (rendered_compact _)]
  intro h
  have haction := h ((FieldDesc.char "action").ordered 2) (by decide) rfl rfl
  exact absurd haction (by decide)

theorem isLine_toJsonInBuf_tradeMemory :
    exists line,
      toJsonInBuf true true (fun _ => compact) [] .trade false
        (tradeMemory 0x41) false = [] ++ line ∧ IsLine line := by
  have h := isLine_toJsonInBuf_iff (fun _ => rendered_compact) [] .trade
    false (tradeMemory 0x41) true true false
  exact h.mpr (by decide)

end Example

end JsonSerialize
end Dbn
