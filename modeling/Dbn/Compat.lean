import Dbn.Record

/-!
# Upgrading records between versions

The `From` implementations that build a record struct of a newer version from
the struct of an older one.  A field that both structs have is copied, into a
zeroed array when the new array is longer; the other fields get their
defaults.
-/

namespace Dbn

open Lib

/-- The conversions between record structs. -/
inductive Conversion where
  | instrumentDefV1ToV2 | instrumentDefV1ToV3 | instrumentDefV2ToV3
  | statV1ToV3
  | symbolMappingV1ToV2
  | errorV1ToV2
  | systemV1ToV2
deriving DecidableEq, Repr

namespace Conversion

open RecordStruct

/-- The struct that is converted. -/
def source : Conversion -> RecordStruct
  | instrumentDefV1ToV2 | instrumentDefV1ToV3 => instrumentDefV1
  | instrumentDefV2ToV3 => instrumentDefV2
  | statV1ToV3 => statV1
  | symbolMappingV1ToV2 => symbolMappingV1
  | errorV1ToV2 => errorV1
  | systemV1ToV2 => systemV1

/-- The struct that is built. -/
def target : Conversion -> RecordStruct
  | instrumentDefV1ToV2 => instrumentDefV2
  | instrumentDefV1ToV3 | instrumentDefV2ToV3 => instrumentDefV3
  | statV1ToV3 => statV3
  | symbolMappingV1ToV2 => symbolMappingV2
  | errorV1ToV2 => errorV2
  | systemV1ToV2 => systemV2

/-- `i64::MAX` as bytes: `UNDEF_PRICE` and `UNDEF_STAT_QUANTITY`. -/
def undefI64 : List UInt8 :=
  leBytes 8 (2 ^ 63 - 1)

/-- The fields of a version 3 definition that older definitions lack. -/
def newDefinitionField (old : Field -> List UInt8) : Field -> List UInt8
  | .legPrice | .legDelta => undefI64
  -- `Side::None`
  | .legSide => asciiBytes "N"
  | .reserved => []
  | f => old f

/-- A 32-bit quantity as a 64-bit one, the undefined quantity kept apart. -/
def statQuantity (old : List UInt8) : List UInt8 :=
  if leNat old = 2 ^ 31 - 1 then undefI64
  else leBytes 8 ((BitVec.ofNat 32 (leNat old)).signExtend 64).toNat

/-- `c_chars_to_str`: the text before the first NUL. -/
def cCharsToStr (chars : List UInt8) : Option (List UInt8) :=
  if 0 ∈ chars then
    let text := chars.takeWhile (· ≠ 0)
    if IsUtf8 text then some text else none
  else none

/-- The code of a system message, from its text. -/
def systemCode (msg : List UInt8) : UInt8 :=
  match cCharsToStr msg with
  | none => 255
  | some text =>
      let startsWith := fun (s : String) => (asciiBytes s).isPrefixOf text
      let endsWith := fun (s : String) => (asciiBytes s).isSuffixOf text
      if text = asciiBytes "Heartbeat" then 0
      else if startsWith "End of interval for " then 4
      else if startsWith "Subscription request " && endsWith " succeeded" then 1
      else if startsWith "Warning: slow reading" then 2
      else if startsWith "Finished " && endsWith " replay" then 3
      else 255

/-- The fields of the new struct, apart from the header. -/
def newField (c : Conversion) (old : Field -> List UInt8) :
    Field -> List UInt8 :=
  match c with
  | instrumentDefV1ToV2 => fun
      | .reserved => []
      | f => old f
  | instrumentDefV1ToV3 | instrumentDefV2ToV3 => newDefinitionField old
  | statV1ToV3 => fun
      | .quantity => statQuantity (old .quantity)
      | .reserved => []
      | f => old f
  | symbolMappingV1ToV2 => fun
      | .stypeIn | .stypeOut => [255]
      | f => old f
  | errorV1ToV2 => fun
      | .code | .isLast => [255]
      | f => old f
  | systemV1ToV2 => fun
      | .code => [systemCode (old .msg)]
      | f => old f

/-- `RecordHeader::new::<U>` with the fields of the old header. -/
def newHeader (s : RecordStruct) (hd : List UInt8) : List UInt8 :=
  UInt8.ofNat (s.size / lengthMultiplier) :: s.rtype :: hd.drop 2

/-- `U::from(&old)`. -/
def convert (c : Conversion) (old : List UInt8) : List UInt8 :=
  let oldField := c.source.layout.get old
  c.target.layout.pack (fun
    | .hd => newHeader c.target (oldField .hd)
    | f => c.newField oldField f)

/-- `WithTsOut::new`, which corrects the length in the header. -/
def withTsOut (rec tsOut : List UInt8) : List UInt8 :=
  UInt8.ofNat ((rec.length + tsOutLen true) / lengthMultiplier) ::
    rec.tail ++ resize (tsOutLen true) tsOut

/-- The new record, with the send timestamp of the old one if there is one. -/
def upgraded (c : Conversion) (tsOut : Bool) (rec : List UInt8) : List UInt8 :=
  if tsOut then
    withTsOut (c.convert (rec.take c.source.size)) (rec.drop c.source.size)
  else c.convert rec

theorem le_target_size (c : Conversion) :
    RecordStruct.headerLen ≤ c.target.size := by
  cases c <;> decide

theorem target_size_le (c : Conversion) : c.target.size ≤ 520 := by
  cases c <;> decide

theorem le_source_size (c : Conversion) : 64 ≤ c.source.size := by
  cases c <;> decide

@[simp] theorem length_convert (c : Conversion) (old : List UInt8) :
    (c.convert old).length = c.target.size := by
  unfold convert
  rw [Layout.length_pack]
  rfl

theorem layout_eq_hd_cons (s : RecordStruct) :
    exists rest, s.layout = (.hd, headerLen) :: rest := by
  cases s <;> exact ⟨_, rfl⟩

theorem recordSize_convert (c : Conversion) (old : List UInt8) :
    recordSize (c.convert old) = c.target.size := by
  obtain ⟨rest, hlayout⟩ := layout_eq_hd_cons c.target
  unfold convert
  rw [hlayout]
  cases c <;> rfl

@[simp] theorem length_upgraded (c : Conversion) (tsOut : Bool)
    (rec : List UInt8) :
    (c.upgraded tsOut rec).length = c.target.size + tsOutLen tsOut := by
  have hpos : 1 ≤ c.target.size := by cases c <;> decide
  cases tsOut with
  | false =>
      show (c.convert rec).length = c.target.size + 0
      rw [length_convert, Nat.add_zero]
  | true =>
      show (withTsOut _ _).length = _
      simp only [withTsOut, List.length_cons, List.length_append,
        List.length_tail, length_convert, length_resize]
      omega

/-- The header of an upgraded record has the length of the record. -/
theorem recordSize_upgraded (c : Conversion) (tsOut : Bool)
    (rec : List UInt8) :
    recordSize (c.upgraded tsOut rec) = c.target.size + tsOutLen tsOut := by
  cases tsOut with
  | false => exact recordSize_convert c rec
  | true =>
      show recordSize (withTsOut _ _) = _
      unfold withTsOut
      rw [length_convert]
      cases c <;> rfl

theorem rtypeOf_upgraded (c : Conversion) (tsOut : Bool) (rec : List UInt8) :
    rtypeOf (c.upgraded tsOut rec) = c.target.rtype := by
  cases c <;> cases tsOut <;> rfl

/-- An upgraded record is never empty and fits the largest record length. -/
theorem length_upgraded_le (c : Conversion) (tsOut : Bool)
    (rec : List UInt8) :
    0 < (c.upgraded tsOut rec).length ∧
      (c.upgraded tsOut rec).length ≤ maxRecordLen := by
  have hpos : 1 ≤ c.target.size := by cases c <;> decide
  have hsize := c.target_size_le
  have hts := tsOutLen_le tsOut
  rw [length_upgraded, maxRecordLen_eq]
  omega

end Conversion

end Dbn
