import Dbn.Compat
import Dbn.RecordTypes

/-!
# Texts of field values

A record is the memory of its struct, from which the text encoders take the
fields by their names.  Numbers, prices, timestamps and characters have the
same texts in every text encoding.
-/

namespace Dbn

open Lib

/-!
## Numbers
-/

/-- `i64::MAX`. -/
def undefPrice : Int := 2 ^ 63 - 1
def fixedPriceScale : Int := 1000000000

/-- `itoa::Buffer::format` of an unsigned integer. -/
def itoaNat (n : Nat) : List UInt8 :=
  (Nat.toDigits 10 n).map (fun c => UInt8.ofNat c.toNat)

/-- `itoa::Buffer::format`. -/
def itoa (n : Int) : List UInt8 :=
  if n < 0 then asciiBytes "-" ++ itoaNat n.natAbs else itoaNat n.natAbs

/-- A signed integer in two's complement. -/
def leInt (bytes : List UInt8) : Int :=
  if leNat bytes < 2 ^ (8 * bytes.length - 1) then leNat bytes
  else leNat bytes - 2 ^ (8 * bytes.length)

namespace FieldType

/-- The integer that a field holds. -/
def integer (ty : FieldType) (bytes : List UInt8) : Int :=
  match ty with
  | i8 | i16 | i32 | i64 | cChar => leInt bytes
  | _ => leNat bytes

end FieldType

/-!
## Prices, timestamps and characters
-/

/-- `-px` of an `i64`, which wraps in a build without assertions. -/
def wrappingNeg (px : Int) : Int :=
  if px = -2 ^ 63 then px else -px

/-- `{:0>9}`. -/
def padZeros (width : Nat) (text : List UInt8) : List UInt8 :=
  List.replicate (width - text.length) 0x30 ++ text

def fmtPx (px : Int) : List UInt8 :=
  if px = undefPrice then asciiBytes "UNDEF_PRICE"
  else
    let (sign, pxAbs) :=
      if px < 0 then (asciiBytes "-", wrappingNeg px) else ([], px)
    let pxInteger := pxAbs.tdiv fixedPriceScale
    let pxFraction := pxAbs.tmod fixedPriceScale
    sign ++ itoa pxInteger ++ asciiBytes "." ++ padZeros 9 (itoa pxFraction)

/-- Formatting of the nanoseconds since the UNIX epoch as `TS_FORMAT` asks. -/
class TimeFormat where
  format : Nat -> Option Str

def fmtTs [TimeFormat] (ts : Nat) : List UInt8 :=
  if ts ≠ 0 then
    match TimeFormat.format ts with
    | some text => text.bytes
    | none => itoaNat ts
  else []

/-- A digit of `{:x}`. -/
def lowerHexDigit (n : Nat) : UInt8 :=
  if n < 10 then UInt8.ofNat (0x30 + n) else UInt8.ofNat (0x57 + n)

/-- `std::ascii::escape_default`. -/
def escapeDefault (c : UInt8) : List UInt8 :=
  if c = 0x09 then asciiBytes "\\t"
  else if c = 0x0D then asciiBytes "\\r"
  else if c = 0x0A then asciiBytes "\\n"
  else if c = 0x27 then asciiBytes "\\'"
  else if c = 0x22 then asciiBytes "\\\""
  else if c = 0x5C then asciiBytes "\\\\"
  else if 0x20 ≤ c ∧ c ≤ 0x7E then [c]
  else
    asciiBytes "\\x" ++
      [lowerHexDigit (c.toNat / 16), lowerHexDigit (c.toNat % 16)]

/-!
## Fields in memory
-/

namespace FieldDesc

def layout (fields : List FieldDesc) : Layout String :=
  fields.map (fun f => (f.name, f.ty.size))

/-- `self.name`, as bytes. -/
def get (fields : List FieldDesc) (memory : List UInt8) (f : FieldDesc) :
    List UInt8 :=
  (layout fields).get memory f.name

end FieldDesc

def bidAskPairFields : List FieldDesc :=
  [.price "bid_px", .price "ask_px", .field "bid_sz" .u32,
    .field "ask_sz" .u32, .field "bid_ct" .u32, .field "ask_ct" .u32]

def consolidatedBidAskPairFields : List FieldDesc :=
  [.price "bid_px", .price "ask_px", .field "bid_sz" .u32,
    .field "ask_sz" .u32, .field "bid_pb" .u16,
    .field "_reserved1" (.bytes 2), .field "ask_pb" .u16,
    .field "_reserved2" (.bytes 2)]

/-- An array of levels, each as its memory. -/
def levelsOf (levels : Nat) (memory : List UInt8) : List (List UInt8) :=
  (List.range levels).map (fun i => (memory.drop (32 * i)).take 32)

/-!
## Names tell the fields apart
-/

namespace RecordType

theorem recordHeader_names_nodup :
    (recordHeaderFields.map FieldDesc.name).Nodup := by
  decide

theorem names_nodup (t : RecordType) :
    (t.fields.map FieldDesc.name).Nodup := by
  cases t with
  | versioned s => cases s <;> decide +kernel
  | _ => decide +kernel

/-- The fields of a struct that are serialized. -/
theorem mem_serializedFields {t : RecordType} {f : FieldDesc} :
    f ∈ FieldDesc.serializedFields t.fields <->
      f ∈ t.fields ∧ f.isHidden = false := by
  rw [(FieldDesc.serializedFields_perm t.names_nodup).mem_iff,
    List.mem_filter]
  simp

end RecordType

/-!
## Numbers are made of digits
-/

theorem isDigit_of_mem_itoaNat {n : Nat} {b : UInt8} (h : b ∈ itoaNat n) :
    0x30 ≤ b ∧ b ≤ 0x39 := by
  rcases List.mem_map.mp h with ⟨c, hc, rfl⟩
  have hdigit := Nat.isDigit_of_mem_toDigits (by decide) (by decide) hc
  have hc' : 0x30 ≤ c.toNat ∧ c.toNat ≤ 0x39 := by
    simpa [Char.isDigit, UInt32.le_iff_toNat_le] using hdigit
  constructor
  · rw [UInt8.le_iff_toNat_le]
    simp
    omega
  · rw [UInt8.le_iff_toNat_le]
    simp
    omega

end Dbn
