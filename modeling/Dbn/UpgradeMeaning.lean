import Dbn.Decode.Upgrade
import Dbn.Encode.FieldTexts

/-!
# What an upgrade preserves

An upgraded record says the same as the old record: its header, the numbers,
characters and texts that both structs have, the heartbeat status and the send
timestamp.  Which fields both structs have is read off the two layouts.
-/

namespace Dbn

open Lib

/-!
## Types of fields
-/

/-- The type of a field of a struct. -/
def RecordStruct.fieldType (s : RecordStruct) (f : Field) : Option FieldType :=
  ((s.layout.zip (RecordType.versioned s).fields).find?
    (fun p => p.1.1 = f)).map (fun p => p.2.ty)

namespace FieldType

/-- The integer types. -/
def IsNumber (ty : FieldType) : Prop :=
  ty = u8 ∨ ty = i8 ∨ ty = u16 ∨ ty = i16 ∨ ty = u32 ∨ ty = i32 ∨ ty = u64 ∨
    ty = i64

/-- The types of a single character. -/
def IsChar (ty : FieldType) : Prop :=
  ty = cChar ∨ ty = securityUpdateAction ∨ ty = userDefinedInstrument

/-- The types that hold no value of a message. -/
def isOther : FieldType -> Bool
  | recordHeader | bytes _ => true
  | _ => false

/-- The texts. -/
def isChars : FieldType -> Bool
  | chars _ => true
  | _ => false

instance (ty : FieldType) : Decidable ty.IsNumber :=
  inferInstanceAs (Decidable (_ ∨ _))

instance (ty : FieldType) : Decidable ty.IsChar :=
  inferInstanceAs (Decidable (_ ∨ _))

end FieldType

namespace RecordStruct

/-- The fields of a struct. -/
def keys (s : RecordStruct) : List Field :=
  s.layout.map Prod.fst

theorem mem_keys_of_fieldType {s : RecordStruct} {f : Field} {ty : FieldType}
    (h : s.fieldType f = some ty) : f ∈ s.keys := by
  unfold fieldType at h
  rcases Option.map_eq_some_iff.mp h with ⟨p, hfind, _⟩
  have hmem := List.mem_of_find?_eq_some hfind
  have hname := List.find?_some hfind
  rw [decide_eq_true_eq] at hname
  rw [← hname]
  exact List.mem_map_of_mem (List.of_mem_zip hmem).1

theorem fieldType_keys (s : RecordStruct) : forall f, f ∈ s.keys ->
    (s.fieldType f).map FieldType.size = some (s.layout.width f) := by
  cases s <;> decide +kernel

/-- The two descriptions of a struct agree on the size of a field. -/
theorem width_of_fieldType {s : RecordStruct} {f : Field} {ty : FieldType}
    (h : s.fieldType f = some ty) : s.layout.width f = ty.size := by
  have hwidth := s.fieldType_keys f (mem_keys_of_fieldType h)
  rw [h] at hwidth
  exact (Option.some.inj hwidth).symm

end RecordStruct

/-!
## The fields of an upgraded record
-/

namespace Conversion

open RecordStruct
open DbnFsm (requiredSize upgradeRecordTo)

/-- The fields of the new struct, the header among them. -/
theorem convert_eq_pack (c : Conversion) (old : List UInt8) :
    c.convert old = c.target.layout.pack (fun f =>
      if f = .hd then newHeader c.target (c.source.layout.get old .hd)
      else c.newField (c.source.layout.get old) f) := by
  unfold convert
  apply congrArg (Layout.pack c.target.layout)
  funext f
  cases f <;> rfl

theorem get_convert (c : Conversion) (old : List UInt8) {f : Field}
    (hf : f ≠ .hd) : c.target.layout.get (c.convert old) f =
      resize (c.target.layout.width f)
        (c.newField (c.source.layout.get old) f) := by
  rw [convert_eq_pack, Layout.get_pack, if_neg hf]

/-- Apart from the header a field does not depend on the first byte. -/
theorem get_of_tail (s : RecordStruct) {a b : List UInt8}
    (h : a.tail = b.tail) {f : Field} (hf : f ≠ .hd) :
    s.layout.get a f = s.layout.get b f := by
  rcases layout_eq_hd_cons s with ⟨rest, hlayout⟩
  have hdrop : a.drop headerLen = b.drop headerLen := by
    have hsplit : forall bytes : List UInt8,
        bytes.drop headerLen = bytes.tail.drop 15 := by
      intro bytes
      rw [← List.drop_one, List.drop_drop]
      rfl
    rw [hsplit, hsplit, h]
  rw [hlayout]
  unfold Layout.get
  rw [if_neg (Ne.symm hf), if_neg (Ne.symm hf), hdrop]

theorem convert_take (c : Conversion) (rec : List UInt8) :
    c.convert (rec.take c.source.size) = c.convert rec := by
  have hget : c.source.layout.get (rec.take c.source.size) =
      c.source.layout.get rec := by
    funext f
    exact Layout.get_take c.source.layout rec f
  rw [convert_eq_pack, convert_eq_pack, hget]

/-- An upgraded record is the new struct but for its length, and the rest. -/
theorem tail_upgraded (c : Conversion) (tsOut : Bool) (rec : List UInt8) :
    (c.upgraded tsOut rec).tail = (c.convert rec ++
      if tsOut then resize (tsOutLen true) (rec.drop c.source.size)
      else []).tail := by
  cases tsOut with
  | false => exact congrArg List.tail (List.append_nil _).symm
  | true =>
      have hne : c.convert rec ≠ [] := by
        intro hnil
        have hlen := length_convert c rec
        have hle := c.le_target_size
        rw [hnil, List.length_nil] at hlen
        rw [← hlen] at hle
        exact absurd hle (by decide)
      change (withTsOut _ _).tail = _
      unfold withTsOut
      rw [convert_take, if_pos rfl, List.tail_append_of_ne_nil hne]
      rfl

theorem get_upgraded (c : Conversion) (tsOut : Bool) (rec : List UInt8)
    {f : Field} (hf : f ≠ .hd) :
    c.target.layout.get (c.upgraded tsOut rec) f =
      resize (c.target.layout.width f)
        (c.newField (c.source.layout.get rec) f) := by
  rw [get_of_tail c.target (tail_upgraded c tsOut rec) hf,
    Layout.get_append (length_convert c rec).symm, get_convert c rec hf]

/-!
## The fields that both structs have
-/

/-- The fields that a conversion does not copy. -/
def replaced : Conversion -> List Field
  | instrumentDefV1ToV2 => [.reserved]
  | instrumentDefV1ToV3 | instrumentDefV2ToV3 =>
      [.legPrice, .legDelta, .legSide, .reserved]
  | statV1ToV3 => [.quantity, .reserved]
  | symbolMappingV1ToV2 => [.stypeIn, .stypeOut]
  | errorV1ToV2 => [.code, .isLast]
  | systemV1ToV2 => [.code]

theorem newField_of_not_replaced (c : Conversion) (old : Field -> List UInt8)
    {f : Field} (hf : f ∉ c.replaced) : c.newField old f = old f := by
  unfold newField newDefinitionField
  unfold replaced at hf
  cases c with
  | instrumentDefV1ToV2 => dsimp only; split <;> simp_all
  | instrumentDefV1ToV3 => dsimp only; split <;> simp_all
  | instrumentDefV2ToV3 => dsimp only; split <;> simp_all
  | statV1ToV3 => dsimp only; split <;> simp_all
  | symbolMappingV1ToV2 => dsimp only; split <;> simp_all
  | errorV1ToV2 => dsimp only; split <;> simp_all
  | systemV1ToV2 => dsimp only; split <;> simp_all

/-- The types between which a field is copied. -/
def carries : FieldType -> FieldType -> Bool
  | .u32, .u64 => true
  | .chars n, .chars m => n ≤ m
  | .securityUpdateAction, .cChar | .userDefinedInstrument, .cChar => true
  | ty, ty' => ty = ty'

/-- The field is copied to a type that can hold it. -/
def Copied (c : Conversion) (f : Field) (ty ty' : FieldType) : Prop :=
  f ≠ .hd ∧ f ∉ c.replaced ∧ carries ty ty'

instance (c : Conversion) (f : Field) (ty ty' : FieldType) :
    Decidable (Copied c f ty ty') :=
  inferInstanceAs (Decidable (_ ∧ _))

/-- Only the quantity of a statistics message is not copied. -/
theorem copied_keys (c : Conversion) : forall f, f ∈ c.source.keys ->
    forall ty, ty ∈ c.source.fieldType f ->
    forall ty', ty' ∈ c.target.fieldType f ->
      Copied c f ty ty' ∨ (c = statV1ToV3 ∧ f = .quantity) ∨
        ty.isOther = true := by
  cases c <;> decide +kernel

theorem get_of_copied {c : Conversion} {tsOut : Bool} {rec : List UInt8}
    {f : Field} {ty ty' : FieldType} (h : Copied c f ty ty')
    (htype : c.target.fieldType f = some ty') :
    c.target.layout.get (c.upgraded tsOut rec) f =
      resize ty'.size (c.source.layout.get rec f) := by
  rw [get_upgraded c tsOut rec h.1, width_of_fieldType htype,
    newField_of_not_replaced c _ h.2.1]

/-- An integer is copied to its own type or to a wider unsigned one. -/
theorem integer_of_carries {ty ty' : FieldType} {bytes : List UInt8}
    (hnumber : ty.IsNumber) (hcarries : carries ty ty')
    (hlen : bytes.length = ty.size) :
    ty'.integer (resize ty'.size bytes) = ty.integer bytes := by
  by_cases hsame : ty' = ty
  · rw [hsame, resize_of_length hlen]
  have hwider : ty = .u32 ∧ ty' = .u64 := by
    unfold carries at hcarries
    split at hcarries
    · exact ⟨rfl, rfl⟩
    · rcases hnumber with h | h | h | h | h | h | h | h <;> cases h
    · rcases hnumber with h | h | h | h | h | h | h | h <;> cases h
    · rcases hnumber with h | h | h | h | h | h | h | h <;> cases h
    · exact absurd (of_decide_eq_true hcarries).symm hsame
  rcases hwider with ⟨rfl, rfl⟩
  change ((leNat (resize 8 bytes) : Nat) : Int) = leNat bytes
  unfold resize
  rw [leNat_append_zeros, List.take_of_length_le]
  rw [hlen]
  decide

theorem resize_of_char {ty ty' : FieldType} {bytes : List UInt8}
    (hchar : ty.IsChar) (hcarries : carries ty ty')
    (hlen : bytes.length = ty.size) : resize ty'.size bytes = bytes := by
  apply resize_of_length
  rw [hlen]
  unfold carries at hcarries
  split at hcarries
  · rcases hchar with h | h | h <;> cases h
  · rcases hchar with h | h | h <;> cases h
  · rfl
  · rfl
  · rw [of_decide_eq_true hcarries]

/-- A text in a longer array reads the same. -/
theorem cCharsToStr_resize {bytes text : List UInt8} {size : Nat}
    (hlen : bytes.length ≤ size) (h : cCharsToStr bytes = some text) :
    cCharsToStr (resize size bytes) = some text := by
  have hresize : resize size bytes =
      bytes ++ List.replicate (size - bytes.length) 0 := by
    unfold resize
    rw [List.take_of_length_le hlen]
  have hnul : 0 ∈ bytes := by
    by_contra hnone
    unfold cCharsToStr at h
    rw [if_neg hnone] at h
    cases h
  have htake : (bytes ++ List.replicate (size - bytes.length) 0).takeWhile
      (· ≠ 0) = bytes.takeWhile (· ≠ 0) := by
    rw [List.takeWhile_append, if_neg]
    intro hall
    have hself := (List.takeWhile_prefix (p := (· ≠ 0)) (l := bytes)).eq_of_length
      hall
    have hzero := List.takeWhile_eq_self_iff.mp hself 0 hnul
    exact absurd rfl (of_decide_eq_true hzero)
  unfold cCharsToStr at h ⊢
  rw [hresize, if_pos (List.mem_append_left _ hnul), htake]
  rw [if_pos hnul] at h
  exact h

/-!
### The quantity of a statistics message
-/

theorem leInt_eq_toInt {bytes : List UInt8} {w : Nat}
    (h : 8 * bytes.length = w) (hpos : 0 < w) :
    leInt bytes = (BitVec.ofNat w (leNat bytes)).toInt := by
  have hlt := leNat_lt bytes
  have hpow : 256 ^ bytes.length = 2 ^ w := by
    rw [← h, Nat.pow_mul]
  have hhalf : 2 ^ w = 2 * 2 ^ (w - 1) := by
    rw [← Nat.pow_succ', Nat.succ_eq_add_one, Nat.sub_add_cancel hpos]
  rw [hpow] at hlt
  unfold leInt
  rw [BitVec.toInt_eq_toNat_cond, BitVec.toNat_ofNat, Nat.mod_eq_of_lt hlt, h]
  by_cases hsmall : leNat bytes < 2 ^ (w - 1)
  · rw [if_pos hsmall, if_pos (by omega)]
  · rw [if_neg hsmall, if_neg (by omega)]
    push_cast
    rfl

/-- A 32-bit quantity by its unsigned reading. -/
theorem leInt_of_length {old : List UInt8} (hlen : old.length = 4) :
    leInt old = if leNat old < 2 ^ 31 then (leNat old : Int)
      else leNat old - 2 ^ 32 := by
  unfold leInt
  rw [hlen]

theorem leInt_statQuantity_of_ne {old : List UInt8} (hlen : old.length = 4)
    (h : leNat old ≠ 2 ^ 31 - 1) : leInt (statQuantity old) = leInt old := by
  have hold : leInt old = (BitVec.ofNat 32 (leNat old)).toInt :=
    leInt_eq_toInt (by rw [hlen]) (by decide)
  have hnew := ((BitVec.ofNat 32 (leNat old)).signExtend 64).isLt
  unfold statQuantity
  rw [if_neg h, leInt_eq_toInt (w := 64) (by rw [length_leBytes])
    (by decide), leNat_leBytes_of_lt hnew, BitVec.ofNat_toNat,
    BitVec.setWidth_eq, BitVec.toInt_signExtend_of_le (by decide), hold]

/-- The quantity keeps its value, or it was and is undefined. -/
theorem leInt_statQuantity {old : List UInt8} (hlen : old.length = 4) :
    (leInt (statQuantity old) = 2 ^ 63 - 1 <-> leInt old = 2 ^ 31 - 1) ∧
      (leInt old ≠ 2 ^ 31 - 1 -> leInt (statQuantity old) = leInt old) := by
  have hlt : leNat old < 2 ^ 32 := by
    have h := leNat_lt old
    rw [hlen] at h
    exact h
  have hread := leInt_of_length hlen
  by_cases hundef : leNat old = 2 ^ 31 - 1
  · have hold : leInt old = 2 ^ 31 - 1 := by
      rw [hread, hundef]
      rfl
    have hnew : leInt (statQuantity old) = 2 ^ 63 - 1 := by
      unfold statQuantity
      rw [if_pos hundef]
      rfl
    constructor
    · exact ⟨fun _ => hold, fun _ => hnew⟩
    · intro hne
      exact absurd hold hne
  · have hsame := leInt_statQuantity_of_ne hlen hundef
    have hsmall : leInt old < 2 ^ 31 - 1 := by
      rw [hread]
      split <;> omega
    rw [hsame]
    constructor
    · omega
    · intro _
      rfl

/-!
### The heartbeat
-/

/-- `v1::SystemMsg::is_heartbeat`. -/
def isHeartbeatV1 (msg : List UInt8) : Bool :=
  cCharsToStr (systemV1.layout.get msg .msg) = some (asciiBytes "Heartbeat")

/-- `SystemCode::try_from`, which fails on other values. -/
def isSystemCode (code : UInt8) : Bool :=
  code ∈ [0, 1, 2, 3, 4, 255]

/-- `SystemMsg::is_heartbeat`: by the code if it is one. -/
def isHeartbeat (msg : List UInt8) : Bool :=
  let code := (systemV2.layout.get msg .code).headD 0
  if isSystemCode code then code = 0
  else
    cCharsToStr (systemV2.layout.get msg .msg) = some (asciiBytes "Heartbeat")

theorem systemCode_spec (msg : List UInt8) :
    isSystemCode (systemCode msg) = true ∧
      (systemCode msg = 0 <->
        cCharsToStr msg = some (asciiBytes "Heartbeat")) := by
  unfold systemCode
  cases htext : cCharsToStr msg with
  | none => exact ⟨by decide, by simp⟩
  | some text =>
      dsimp only
      by_cases hbeat : text = asciiBytes "Heartbeat"
      · rw [if_pos hbeat]
        exact ⟨by decide, by simp [hbeat]⟩
      · rw [if_neg hbeat]
        split_ifs <;> exact ⟨by decide, by simp [hbeat]⟩

theorem isHeartbeat_upgraded (tsOut : Bool) (rec : List UInt8) :
    isHeartbeat (systemV1ToV2.upgraded tsOut rec) = isHeartbeatV1 rec := by
  have hcode : systemV2.layout.get (systemV1ToV2.upgraded tsOut rec) .code =
      [systemCode (systemV1.layout.get rec .msg)] :=
    get_upgraded systemV1ToV2 tsOut rec (by decide)
  rcases systemCode_spec (systemV1.layout.get rec .msg) with ⟨hvalid, hzero⟩
  unfold isHeartbeat isHeartbeatV1
  rw [hcode]
  dsimp only [List.headD_cons]
  rw [if_pos hvalid, decide_eq_decide]
  exact hzero

/-!
### The header and the send timestamp
-/

/-- The publisher in the header. -/
def publisherId (rec : List UInt8) : Nat :=
  leNat ((rec.drop 2).take 2)

/-- The instrument in the header. -/
def instrumentId (rec : List UInt8) : Nat :=
  leNat ((rec.drop 4).take 4)

/-- The timestamp of the event in the header. -/
def tsEvent (rec : List UInt8) : Nat :=
  leNat ((rec.drop 8).take 8)

/-- A new struct starts with its own length and type and the old header. -/
theorem convert_eq_header (c : Conversion) {rec : List UInt8}
    (hlen : headerLen ≤ rec.length) :
    exists rest, c.convert rec = newHeader c.target (rec.take headerLen) ++
      rest := by
  rcases layout_eq_hd_cons c.target with ⟨targetRest, htarget⟩
  rcases layout_eq_hd_cons c.source with ⟨sourceRest, hsource⟩
  have hold : c.source.layout.get rec .hd = rec.take headerLen := by
    rw [hsource]
    rfl
  have hnew : (newHeader c.target (rec.take headerLen)).length =
      headerLen := by
    unfold newHeader
    rw [List.length_cons, List.length_cons, List.length_drop,
      List.length_take, Nat.min_eq_left hlen]
    rfl
  rw [convert_eq_pack, htarget]
  unfold Layout.pack
  rw [List.flatMap_cons]
  dsimp only
  rw [if_pos rfl, hold, resize_of_length hnew]
  exact ⟨_, rfl⟩

/-- The header is that of the old record but for its first two bytes. -/
theorem header_upgraded (c : Conversion) (tsOut : Bool) {rec : List UInt8}
    (hlen : headerLen ≤ rec.length) :
    ((c.upgraded tsOut rec).drop 2).take 14 = (rec.drop 2).take 14 := by
  rcases convert_eq_header c hlen with ⟨rest, hconvert⟩
  have hold : ((rec.take headerLen).drop 2).length = 14 := by
    rw [List.length_drop, List.length_take, Nat.min_eq_left hlen]
    rfl
  have hdrop : (c.upgraded tsOut rec).drop 2 =
      (c.upgraded tsOut rec).tail.drop 1 := by
    rw [← List.drop_one, List.drop_drop]
  rw [hdrop, tail_upgraded, hconvert]
  unfold newHeader
  rw [List.cons_append, List.cons_append, List.cons_append, List.cons_append,
    List.tail_cons, List.drop_one, List.tail_cons, List.append_assoc,
    List.take_left' hold, List.drop_take]
  rfl

theorem slice_eq {a b : List UInt8} (h : (a.drop 2).take 14 = (b.drop 2).take 14)
    {start len : Nat} (hstart : 2 ≤ start) (hend : start + len ≤ 16) :
    (a.drop start).take len = (b.drop start).take len := by
  have hslice : forall bytes : List UInt8, (bytes.drop start).take len =
      (((bytes.drop 2).take 14).drop (start - 2)).take len := by
    intro bytes
    rw [List.drop_take, List.drop_drop, List.take_take,
      Nat.add_sub_cancel' hstart, Nat.min_eq_left (by omega)]
  rw [hslice, hslice, h]

/-- The send timestamp is behind the struct, before and after. -/
theorem tsOut_upgraded (c : Conversion) {rec : List UInt8}
    (hlen : rec.length = c.source.size + tsOutLen true) :
    (c.upgraded true rec).drop c.target.size = rec.drop c.source.size := by
  have hts : (rec.drop c.source.size).length = tsOutLen true := by
    rw [List.length_drop, hlen, Nat.add_sub_cancel_left]
  have hpos : 1 ≤ c.target.size := Nat.le_trans (by decide) c.le_target_size
  have htail : forall bytes : List UInt8, bytes.drop c.target.size =
      bytes.tail.drop (c.target.size - 1) := by
    intro bytes
    rw [← List.drop_one, List.drop_drop, Nat.add_sub_cancel' hpos]
  rw [htail, tail_upgraded, ← htail, if_pos rfl, resize_of_length hts,
    List.drop_left' (length_convert c rec)]

/-!
## The result
-/

/-- The new record says the same as the old one. -/
structure KeepsMeaning (c : Conversion) (tsOut : Bool)
    (old new : List UInt8) : Prop where
  rtype : rtypeOf new = rtypeOf old
  publisherId : publisherId new = publisherId old
  instrumentId : instrumentId new = instrumentId old
  tsEvent : tsEvent new = tsEvent old
  number : forall f ty ty', c.source.fieldType f = some ty ->
    c.target.fieldType f = some ty' -> ty.IsNumber ->
    ¬ (c = statV1ToV3 ∧ f = .quantity) ->
    ty'.integer (c.target.layout.get new f) =
      ty.integer (c.source.layout.get old f)
  char : forall f ty ty', c.source.fieldType f = some ty ->
    c.target.fieldType f = some ty' -> ty.IsChar ->
    c.target.layout.get new f = c.source.layout.get old f
  /-- `i32::MAX` and `i64::MAX` are the undefined quantities. -/
  quantity : c = statV1ToV3 ->
    (FieldType.i64.integer (statV3.layout.get new .quantity) = 2 ^ 63 - 1 <->
      FieldType.i32.integer (statV1.layout.get old .quantity) =
        2 ^ 31 - 1) ∧
    (FieldType.i32.integer (statV1.layout.get old .quantity) ≠ 2 ^ 31 - 1 ->
      FieldType.i64.integer (statV3.layout.get new .quantity) =
        FieldType.i32.integer (statV1.layout.get old .quantity))
  text : forall f len text, c.source.fieldType f = some (.chars len) ->
    cCharsToStr (c.source.layout.get old f) = some text ->
    exists len', c.target.fieldType f = some (.chars len') ∧
      cCharsToStr (c.target.layout.get new f) = some text
  heartbeat : c = systemV1ToV2 -> isHeartbeat new = isHeartbeatV1 old
  sendTimestamp : tsOut = true ->
    new.drop c.target.size = old.drop c.source.size
  length : recordSize new = c.target.size + tsOutLen tsOut

section Result

variable {c : Conversion} {tsOut : Bool} {rec : List UInt8}

theorem copied_of_fieldType {f : Field} {ty ty' : FieldType}
    (h : c.source.fieldType f = some ty)
    (h' : c.target.fieldType f = some ty') (hvalue : ty.isOther = false)
    (hquantity : ¬ (c = statV1ToV3 ∧ f = .quantity)) : Copied c f ty ty' := by
  rcases c.copied_keys f (mem_keys_of_fieldType h) ty h ty' h' with
    hcopied | hspecial | hother
  · exact hcopied
  · exact absurd hspecial hquantity
  · rw [hvalue] at hother
    cases hother

theorem length_get_source (hlen : rec.length = requiredSize c tsOut)
    {f : Field} {ty : FieldType} (h : c.source.fieldType f = some ty) :
    (c.source.layout.get rec f).length = ty.size := by
  rw [← width_of_fieldType h]
  apply Layout.length_get
  rw [hlen]
  exact Nat.le_add_right _ _

theorem number_upgraded (hlen : rec.length = requiredSize c tsOut)
    {f : Field} {ty ty' : FieldType} (h : c.source.fieldType f = some ty)
    (h' : c.target.fieldType f = some ty') (hnumber : ty.IsNumber)
    (hquantity : ¬ (c = statV1ToV3 ∧ f = .quantity)) :
    ty'.integer (c.target.layout.get (c.upgraded tsOut rec) f) =
      ty.integer (c.source.layout.get rec f) := by
  have hvalue : ty.isOther = false := by
    rcases hnumber with h | h | h | h | h | h | h | h <;> rw [h] <;> rfl
  have hcopied := copied_of_fieldType h h' hvalue hquantity
  rw [get_of_copied hcopied h']
  exact integer_of_carries hnumber hcopied.2.2 (length_get_source hlen h)

theorem char_upgraded (hlen : rec.length = requiredSize c tsOut)
    {f : Field} {ty ty' : FieldType} (h : c.source.fieldType f = some ty)
    (h' : c.target.fieldType f = some ty') (hchar : ty.IsChar) :
    c.target.layout.get (c.upgraded tsOut rec) f =
      c.source.layout.get rec f := by
  have hvalue : ty.isOther = false := by
    rcases hchar with h | h | h <;> rw [h] <;> rfl
  have hquantity : ¬ (c = statV1ToV3 ∧ f = .quantity) := by
    rintro ⟨rfl, rfl⟩
    have hnumber : statV1.fieldType .quantity = some .i32 := rfl
    rw [show statV1ToV3.source = statV1 from rfl, hnumber] at h
    cases h
    revert hchar
    decide
  have hcopied := copied_of_fieldType h h' hvalue hquantity
  rw [get_of_copied hcopied h']
  exact resize_of_char hchar hcopied.2.2 (length_get_source hlen h)

theorem text_keys (c : Conversion) : forall f, f ∈ c.source.keys ->
    (c.source.fieldType f).any FieldType.isChars = true ->
      (c.target.fieldType f).isSome = true ∧ f ≠ .quantity := by
  cases c <;> decide +kernel

theorem carries_chars {len : Nat} {ty' : FieldType}
    (h : carries (.chars len) ty') :
    exists len', ty' = .chars len' ∧ len ≤ len' := by
  cases ty' with
  | chars len' => exact ⟨len', rfl, of_decide_eq_true h⟩
  | _ => simp [carries] at h

theorem text_upgraded (hlen : rec.length = requiredSize c tsOut)
    {f : Field} {len : Nat} {text : List UInt8}
    (h : c.source.fieldType f = some (.chars len))
    (htext : cCharsToStr (c.source.layout.get rec f) = some text) :
    exists len', c.target.fieldType f = some (.chars len') ∧
      cCharsToStr (c.target.layout.get (c.upgraded tsOut rec) f) =
        some text := by
  rcases c.text_keys f (mem_keys_of_fieldType h) (by rw [h]; rfl) with
    ⟨hsome, hne⟩
  rcases Option.isSome_iff_exists.mp hsome with ⟨ty', h'⟩
  have hcopied := copied_of_fieldType h h' rfl (fun hspecial =>
    hne hspecial.2)
  rcases carries_chars hcopied.2.2 with ⟨len', rfl, hle⟩
  have hold : (c.source.layout.get rec f).length = len :=
    length_get_source hlen h
  refine ⟨len', h', ?_⟩
  rw [get_of_copied hcopied h']
  exact cCharsToStr_resize (hold.trans_le hle) htext

theorem quantity_upgraded (tsOut : Bool) (rec : List UInt8) :
    statV3.layout.get (statV1ToV3.upgraded tsOut rec) .quantity =
      statQuantity (statV1.layout.get rec .quantity) := by
  have hget := get_upgraded statV1ToV3 tsOut rec (f := .quantity) (by decide)
  have hsize : (statQuantity (statV1.layout.get rec .quantity)).length =
      8 := by
    unfold statQuantity
    split
    · rfl
    · exact length_leBytes 8 _
  exact hget.trans (resize_of_length hsize)

theorem keepsMeaning_upgraded (c : Conversion) (tsOut : Bool)
    {rec : List UInt8} (hlen : rec.length = requiredSize c tsOut)
    (hrtype : rtypeOf rec = c.source.rtype) :
    KeepsMeaning c tsOut rec (c.upgraded tsOut rec) := by
  have hheader : headerLen ≤ rec.length := by
    have hsource := c.le_source_size
    unfold requiredSize at hlen
    unfold headerLen
    omega
  have hkept := header_upgraded c tsOut hheader
  constructor
  · rw [rtypeOf_upgraded, hrtype]
    cases c <;> rfl
  · exact congrArg leNat (slice_eq hkept (by decide) (by decide))
  · exact congrArg leNat (slice_eq hkept (by decide) (by decide))
  · exact congrArg leNat (slice_eq hkept (by decide) (by decide))
  · intro f ty ty' h h' hnumber hquantity
    exact number_upgraded hlen h h' hnumber hquantity
  · intro f ty ty' h h' hchar
    exact char_upgraded hlen h h' hchar
  · rintro rfl
    have hquantity :
        statV1ToV3.source.fieldType .quantity = some FieldType.i32 := rfl
    have hold : (statV1.layout.get rec .quantity).length = 4 :=
      length_get_source (c := statV1ToV3) hlen hquantity
    rw [quantity_upgraded tsOut rec]
    exact leInt_statQuantity hold
  · intro f len text h htext
    exact text_upgraded hlen h htext
  · rintro rfl
    exact isHeartbeat_upgraded tsOut rec
  · rintro rfl
    exact tsOut_upgraded c hlen
  · exact recordSize_upgraded c tsOut rec

end Result

/--
Every record of an old type says the same after its conversion, and so does
the record that the decoder puts in its place.
-/
theorem upgrade_keepsMeaning (c : Conversion) (tsOut : Bool) :
    (forall rec : List UInt8, rec.length = requiredSize c tsOut ->
      rtypeOf rec = c.source.rtype ->
      KeepsMeaning c tsOut rec (c.upgraded tsOut rec)) ∧
    (forall (input written : List UInt8) (compatLen : Nat) (new : RecordRef),
      requiredSize c tsOut ≤ input.length ->
      upgradeRecordTo c tsOut compatLen ⟨input⟩ =
        Except.ok ⟨written, some new⟩ ->
      KeepsMeaning c tsOut (input.take (requiredSize c tsOut)) new.bytes) := by
  constructor
  · intro rec hlen hrtype
    exact keepsMeaning_upgraded c tsOut hlen hrtype
  · intro input written compatLen new hroom hcall
    by_cases hrtype : c.source.rtype = rtypeOf input
    swap
    · unfold upgradeRecordTo RecordRef.get at hcall
      rw [if_neg (Ne.symm hrtype)] at hcall
      cases hcall
    rw [DbnFsm.upgradeRecordTo_eq hrtype] at hcall
    dsimp only at hcall
    split_ifs at hcall with hshort hspace
    · cases hcall
    cases hcall
    have hlen : (input.take (requiredSize c tsOut)).length =
        requiredSize c tsOut := by
      rw [List.length_take, Nat.min_eq_left hroom]
    have htwo : 2 ≤ (input.take (requiredSize c tsOut)).length := by
      have hsource := c.le_source_size
      rw [hlen]
      unfold requiredSize
      omega
    apply keepsMeaning_upgraded c tsOut hlen
    rw [hrtype, ← rtypeOf_append htwo, List.take_append_drop]

/-- A heartbeat of the first version. -/
theorem upgrade_keepsMeaning_heartbeat :
    KeepsMeaning systemV1ToV2 false
        ([20, Rtype.system] ++ List.replicate 14 0 ++ asciiBytes "Heartbeat" ++
          List.replicate 55 0)
        (systemV1ToV2.upgraded false
          ([20, Rtype.system] ++ List.replicate 14 0 ++
            asciiBytes "Heartbeat" ++ List.replicate 55 0)) :=
  (upgrade_keepsMeaning systemV1ToV2 false).1 _ (by decide) (by decide)

end Conversion

end Dbn
