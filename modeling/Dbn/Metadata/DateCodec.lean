import Dbn.Decode.MetadataRoundTrip

/-!
# The codec of dates

Dates are written as an integer whose decimal digits are the year, the month
and the day.  The functions are given here with the machine integers and the
casts of the source; none of the casts changes a value.
-/

namespace Dbn

open Lib

variable {D : Type} [CalendarDate D]

/-!
## Machine integers
-/

/-- `decode_iso8601` with its casts. -/
def decodeIso8601U32 (raw : UInt32) : Res String D :=
  let year := raw / 10000
  let remaining := raw % 10000
  let rawMonth := remaining / 100
  -- `u8::try_from`
  if rawMonth.toNat < 2 ^ 8 then
    let month := rawMonth.toUInt8
    -- `Month::try_from`
    if 1 ≤ month ∧ month ≤ 12 then
      let day := remaining % 100
      match CalendarDate.fromCalendarDate year.toInt32.toInt month.toNat
          day.toUInt8.toNat with
      | Except.ok date => Res.ok date
      | Except.error e =>
          Res.err ("couldn't convert " ++ toString raw.toNat ++
            " to a valid date: " ++ e)
    else
      Res.err (CalendarDate.monthError D month.toNat ++ " while parsing " ++
        toString raw.toNat ++ " into date")
  else
    Res.err ("TryFromIntError(())" ++ " while parsing " ++
      toString raw.toNat ++ " into date")

/-- The integer that `encode_date` writes, with its casts. -/
def dateU32 (date : D) : UInt32 :=
  (Int32.ofInt (CalendarDate.year date)).toUInt32 * 10000 +
    UInt32.ofNat (CalendarDate.month date) * 100 +
    (UInt8.ofNat (CalendarDate.day date)).toUInt32

/-- The casts of `decode_iso8601` keep the values. -/
structure DecodeCastsKeep (raw : UInt32) : Prop where
  year : (raw / 10000).toInt32.toInt = (raw / 10000).toNat
  month : (raw % 10000 / 100).toUInt8.toNat = (raw % 10000 / 100).toNat
  day : (raw % 10000 % 100).toUInt8.toNat = (raw % 10000 % 100).toNat

/-- The casts of `encode_date` keep the values, and nothing overflows. -/
structure EncodeCastsKeep (date : D) : Prop where
  year : ((Int32.ofInt (CalendarDate.year date)).toUInt32.toNat : Int) =
    CalendarDate.year date
  sum : ((dateU32 date).toNat : Int) = CalendarDate.year date * 10000 +
    CalendarDate.month date * 100 + CalendarDate.day date

section Casts

theorem decodeCastsKeep (raw : UInt32) : DecodeCastsKeep raw := by
  have hraw := raw.toNat_lt
  have hyear : (raw / 10000).toNat = raw.toNat / 10000 := rfl
  have hmonth : (raw % 10000 / 100).toNat = raw.toNat % 10000 / 100 := rfl
  have hday : (raw % 10000 % 100).toNat = raw.toNat % 10000 % 100 := rfl
  constructor
  · apply BitVec.toInt_eq_toNat_of_lt
    change 2 * (raw / 10000).toNat < 2 ^ 32
    omega
  · rw [UInt32.toNat_toUInt8]
    apply Nat.mod_eq_of_lt
    omega
  · rw [UInt32.toNat_toUInt8]
    apply Nat.mod_eq_of_lt
    omega

/-- The casts make no difference to what is decoded. -/
theorem decodeIso8601U32_eq (raw : UInt32) :
    decodeIso8601U32 raw = (DbnFsm.decodeIso8601 raw.toNat : Res String D) := by
  have hkeep := decodeCastsKeep raw
  have hyear : (raw / 10000).toNat = raw.toNat / 10000 := rfl
  have hmonth : (raw % 10000 / 100).toNat = raw.toNat % 10000 / 100 := rfl
  have hday : (raw % 10000 % 100).toNat = raw.toNat % 10000 % 100 := rfl
  have hrange : 1 ≤ (raw % 10000 / 100).toUInt8 ∧
      (raw % 10000 / 100).toUInt8 ≤ 12 <->
        1 ≤ raw.toNat % 10000 / 100 ∧ raw.toNat % 10000 / 100 ≤ 12 := by
    rw [UInt8.le_iff_toNat_le, UInt8.le_iff_toNat_le, hkeep.month, hmonth]
    exact Iff.rfl
  unfold decodeIso8601U32 DbnFsm.decodeIso8601
  dsimp only
  rw [if_pos (by omega), hkeep.year, hkeep.month, hkeep.day, hyear, hmonth,
    hday]
  exact if_congr hrange rfl rfl

variable [LawfulCalendarDate D]

theorem encodeCastsKeep {date : D}
    (h : MetadataEncoder.EncodableDate date) : EncodeCastsKeep date := by
  have hmonth := LawfulCalendarDate.month_le date
  have hday := LawfulCalendarDate.day_le date
  rcases Int.eq_ofNat_of_zero_le h.1 with ⟨year, hyearEq⟩
  have hyearLe : year ≤ 9999 := by
    have hle := h.2
    rw [hyearEq] at hle
    exact Int.ofNat_le.mp hle
  have hyear : (Int32.ofInt (CalendarDate.year date)).toUInt32.toNat =
      year := by
    rw [hyearEq]
    change (BitVec.ofInt 32 year).toNat = year
    rw [BitVec.ofInt_natCast, BitVec.toNat_ofNat]
    exact Nat.mod_eq_of_lt (by omega)
  have hsum : (dateU32 date).toNat = year * 10000 +
      CalendarDate.month date * 100 + CalendarDate.day date := by
    unfold dateU32
    rw [UInt32.toNat_add, UInt32.toNat_add, UInt32.toNat_mul,
      UInt32.toNat_mul, hyear, UInt32.toNat_ofNat', UInt8.toNat_toUInt32,
      UInt8.toNat_ofNat']
    simp only [UInt32.reduceToNat]
    omega
  constructor
  · rw [hyear, hyearEq]
  · rw [hsum, hyearEq]
    push_cast
    rfl

/-- The integer is the one that the encoder of metadata writes. -/
theorem toNat_dateU32 (date : D) :
    (dateU32 date).toNat = MetadataEncoder.dateInt date := by
  have hmonth := LawfulCalendarDate.month_le date
  have hday := LawfulCalendarDate.day_le date
  have hyear : (Int32.ofInt (CalendarDate.year date)).toUInt32.toNat =
      (CalendarDate.year date % 2 ^ 32).toNat := BitVec.toNat_ofInt _
  unfold dateU32 MetadataEncoder.dateInt
  rw [UInt32.toNat_add, UInt32.toNat_add, UInt32.toNat_mul, UInt32.toNat_mul,
    hyear, UInt32.toNat_ofNat', UInt8.toNat_toUInt32, UInt8.toNat_ofNat']
  simp only [UInt32.reduceToNat]
  omega

theorem encodeDate_eq {W : Type} [Write W] (context : String) (date : D) :
    MetadataEncoder.encodeDate (W := W) context date =
      WriteM.writeAll (fun e => Error.io e context)
        (leBytes 4 (dateU32 date).toNat) := by
  unfold MetadataEncoder.encodeDate
  rw [toNat_dateU32]

end Casts

/-!
## Both ways
-/

section Codec

variable {date : D} {raw : UInt32}

theorem decodeIso8601U32_dateU32 [LawfulCalendarDate D]
    (h : MetadataEncoder.EncodableDate date) :
    decodeIso8601U32 (dateU32 date) = Res.ok date := by
  have hdecode := (DbnFsm.dateGrammar_dateBytes h).2
  have hlt : MetadataEncoder.dateInt date < 256 ^ 4 := by
    rw [← toNat_dateU32]
    exact (dateU32 date).toNat_lt
  unfold MetadataEncoder.dateBytes at hdecode
  rw [leNat_leBytes_of_lt hlt] at hdecode
  rw [decodeIso8601U32_eq, toNat_dateU32]
  exact hdecode

/-- A date is made of the digits of the integer. -/
theorem decodeIso8601U32_eq_ok (h : decodeIso8601U32 raw = Res.ok date) :
    CalendarDate.fromCalendarDate ((raw.toNat / 10000 : Nat) : Int)
      (raw.toNat % 10000 / 100) (raw.toNat % 10000 % 100) =
        Except.ok date := by
  rw [decodeIso8601U32_eq] at h
  unfold DbnFsm.decodeIso8601 at h
  dsimp only at h
  split at h
  · split at h
    · next hok =>
        cases h
        exact hok
    · cases h
  · cases h

variable [GregorianCalendar D]

theorem encodableDate_of_decode (h : decodeIso8601U32 raw = Res.ok date) :
    MetadataEncoder.EncodableDate date := by
  have hok := decodeIso8601U32_eq_ok h
  have hparts := GregorianCalendar.parts hok
  have hvalid := (GregorianCalendar.accepts (D := D) _ _ _).mp ⟨date, hok⟩
  constructor
  · rw [hparts.1]
    exact Int.natCast_nonneg _
  · rw [hparts.1]
    exact hvalid.2.1

theorem dateU32_of_decode (h : decodeIso8601U32 raw = Res.ok date) :
    dateU32 date = raw := by
  have hparts := GregorianCalendar.parts (decodeIso8601U32_eq_ok h)
  have hsum := (encodeCastsKeep (encodableDate_of_decode h)).sum
  rw [hparts.1, hparts.2.1, hparts.2.2] at hsum
  apply UInt32.toNat_inj.mp
  omega

/-- The integers that are decoded are those of the valid dates. -/
theorem exists_decode_iff :
    (exists date : D, decodeIso8601U32 raw = Res.ok date) <->
      ValidDate ((raw.toNat / 10000 : Nat) : Int) (raw.toNat % 10000 / 100)
        (raw.toNat % 10000 % 100) := by
  rw [← GregorianCalendar.accepts (D := D)]
  constructor
  · intro h
    rcases h with ⟨date, h⟩
    exact ⟨date, decodeIso8601U32_eq_ok h⟩
  · intro h
    rcases h with ⟨date, hok⟩
    have hvalid := (GregorianCalendar.accepts (D := D) _ _ _).mp ⟨date, hok⟩
    exists date
    rw [decodeIso8601U32_eq]
    unfold DbnFsm.decodeIso8601
    dsimp only
    rw [if_pos ⟨hvalid.2.2.1, hvalid.2.2.2.1⟩, hok]

end Codec

/-- What is decoded is what was written, and the other way round. -/
theorem decodeIso8601_encodeDate_inverse [GregorianCalendar D] :
    (forall (W : Type) [Write W] (context : String) (date : D),
      MetadataEncoder.encodeDate (W := W) context date =
        WriteM.writeAll (fun e => Error.io e context)
          (leBytes 4 (dateU32 date).toNat)) ∧
    (forall date : D, 0 ≤ CalendarDate.year date ->
      CalendarDate.year date ≤ 9999 ->
        decodeIso8601U32 (dateU32 date) = Res.ok date ∧
          EncodeCastsKeep date) ∧
    (forall (raw : UInt32) (date : D), decodeIso8601U32 raw = Res.ok date ->
      dateU32 date = raw ∧ EncodeCastsKeep date) ∧
    (forall (raw raw' : UInt32) (date : D),
      decodeIso8601U32 raw = Res.ok date ->
        decodeIso8601U32 raw' = Res.ok date -> raw = raw') ∧
    (forall raw : UInt32, DecodeCastsKeep raw ∧
      ((exists date : D, decodeIso8601U32 raw = Res.ok date) <->
        ValidDate ((raw.toNat / 10000 : Nat) : Int) (raw.toNat % 10000 / 100)
          (raw.toNat % 10000 % 100))) := by
  constructor
  · intro W _ context date
    exact encodeDate_eq context date
  constructor
  · intro date hpos hle
    exact ⟨decodeIso8601U32_dateU32 ⟨hpos, hle⟩, encodeCastsKeep ⟨hpos, hle⟩⟩
  constructor
  · intro raw date h
    exact ⟨dateU32_of_decode h, encodeCastsKeep (encodableDate_of_decode h)⟩
  constructor
  · intro raw raw' date h h'
    rw [← dateU32_of_decode h, ← dateU32_of_decode h']
  · intro raw
    exact ⟨decodeCastsKeep raw, exists_decode_iff⟩

/-- The last date that can be written. -/
theorem decodeIso8601_encodeDate_inverse_last :
    decodeIso8601U32 (dateU32 (⟨9999, 12, 31, by decide⟩ : GregorianDate)) =
        Res.ok (⟨9999, 12, 31, by decide⟩ : GregorianDate) ∧
      EncodeCastsKeep (⟨9999, 12, 31, by decide⟩ : GregorianDate) :=
  (decodeIso8601_encodeDate_inverse (D := GregorianDate)).2.1
    ⟨9999, 12, 31, by decide⟩ (by decide) (by decide)

end Dbn
