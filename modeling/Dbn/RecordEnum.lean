import Dbn.RecordTypes

/-!
# Views of records

The enum with a view of the struct that a record reference is taken for.
-/

namespace Dbn

open Lib

/-- A view of a struct: the memory that it takes up. -/
inductive RecordRefEnum where
  | mbo (rec : List UInt8)
  | trade (rec : List UInt8)
  | mbp1 (rec : List UInt8)
  | mbp10 (rec : List UInt8)
  | ohlcv (rec : List UInt8)
  | status (rec : List UInt8)
  | instrumentDef (rec : List UInt8)
  | imbalance (rec : List UInt8)
  | stat (rec : List UInt8)
  | error (rec : List UInt8)
  | symbolMapping (rec : List UInt8)
  | system (rec : List UInt8)
  | cmbp1 (rec : List UInt8)
  | bbo (rec : List UInt8)
  | cbbo (rec : List UInt8)
deriving DecidableEq, Repr

/-- The struct of a variant. -/
def RecordRefEnum.recordType : RecordRefEnum -> RecordType
  | mbo _ => .mbo
  | trade _ => .trade
  | mbp1 _ => .mbp1
  | mbp10 _ => .mbp10
  | ohlcv _ => .ohlcv
  | status _ => .status
  | instrumentDef _ => .versioned .instrumentDefV3
  | imbalance _ => .imbalance
  | stat _ => .versioned .statV3
  | error _ => .versioned .errorV2
  | symbolMapping _ => .versioned .symbolMappingV2
  | system _ => .versioned .systemV2
  | cmbp1 _ => .cmbp1
  | bbo _ => .bbo
  | cbbo _ => .cbbo

namespace RecordRef

/-- A digit of `{:X}`. -/
def hexDigit (n : Nat) : Char :=
  "0123456789ABCDEF".toList.getD n '0'

/-- `{:#04X}`. -/
def formatHex (b : UInt8) : String :=
  String.ofList ['0', 'x', hexDigit (b.toNat / 16), hexDigit (b.toNat % 16)]

/-- `rec.rtype()`. -/
def rtype (r : RecordRef) : Result RType :=
  match RType.tryFrom (rtypeOf r.bytes) with
  | some rtype => Res.ok rtype
  | none =>
      Res.err (Error.conversion (formatHex (rtypeOf r.bytes))
        "dbn::enums::RType")

/-- `rec.record_size()`. -/
def recordSize (r : RecordRef) : Nat :=
  Dbn.recordSize r.bytes

/-- `rec.get_unchecked::<T>()`, in a build with or without assertions. -/
def getUnchecked (debugAssertions : Bool) (r : RecordRef) (t : RecordType) :
    Result (List UInt8) :=
  if debugAssertions ∧ ¬ r.recordSize ≥ t.size then Res.panic Panic.assertion
  else Res.ok (r.bytes.take t.size)

end RecordRef

namespace RecordRefEnum

/-- The error for a record of an earlier version. -/
def earlierVersion (name : String) : Error :=
  Error.conversion
    ("earlier version of " ++ name ++ " (must be current version)")
    "dbn::record_enum::RecordRefEnum"

/-- The arm of a versioned struct, which compares the sizes first. -/
def tryVersioned (debugAssertions : Bool) (r : RecordRef) (s : RecordStruct)
    (name : String) : Result (List UInt8) :=
  if r.recordSize < s.size then Res.err (earlierVersion name)
  else r.getUnchecked debugAssertions (.versioned s)

/-- `RecordRefEnum::try_from`. -/
def tryFrom (debugAssertions : Bool) (r : RecordRef) :
    Result RecordRefEnum := do
  match ← r.rtype with
  | .mbo => Res.ok (.mbo (← r.getUnchecked debugAssertions .mbo))
  | .mbp0 => Res.ok (.trade (← r.getUnchecked debugAssertions .trade))
  | .mbp1 => Res.ok (.mbp1 (← r.getUnchecked debugAssertions .mbp1))
  | .bbo1S | .bbo1M =>
      Res.ok (.bbo (← r.getUnchecked debugAssertions .bbo))
  | .mbp10 => Res.ok (.mbp10 (← r.getUnchecked debugAssertions .mbp10))
  | .ohlcvDeprecated | .ohlcv1S | .ohlcv1M | .ohlcv1H | .ohlcv1D
  | .ohlcvEod => Res.ok (.ohlcv (← r.getUnchecked debugAssertions .ohlcv))
  | .status => Res.ok (.status (← r.getUnchecked debugAssertions .status))
  | .instrumentDef =>
      Res.ok (.instrumentDef (← tryVersioned debugAssertions r
        .instrumentDefV3 "InstrumentDefMsg"))
  | .imbalance =>
      Res.ok (.imbalance (← r.getUnchecked debugAssertions .imbalance))
  | .statistics =>
      Res.ok (.stat (← tryVersioned debugAssertions r .statV3 "StatMsg"))
  | .error =>
      Res.ok (.error (← tryVersioned debugAssertions r .errorV2 "ErrorMsg"))
  | .symbolMapping =>
      Res.ok (.symbolMapping (← tryVersioned debugAssertions r
        .symbolMappingV2 "SymbolMappingMsg"))
  | .system =>
      Res.ok (.system (← tryVersioned debugAssertions r .systemV2 "SystemMsg"))
  | .cmbp1 | .tcbbo =>
      Res.ok (.cmbp1 (← r.getUnchecked debugAssertions .cmbp1))
  | .cbbo1S | .cbbo1M =>
      Res.ok (.cbbo (← r.getUnchecked debugAssertions .cbbo))

end RecordRefEnum

/-!
## What is checked
-/

namespace RType

/-- The struct that a record of the type is taken for. -/
def viewType : RType -> RecordType
  | mbo => .mbo
  | mbp0 => .trade
  | mbp1 => .mbp1
  | bbo1S | bbo1M => .bbo
  | mbp10 => .mbp10
  | ohlcvDeprecated | ohlcv1S | ohlcv1M | ohlcv1H | ohlcv1D | ohlcvEod =>
      .ohlcv
  | status => .status
  | instrumentDef => .versioned .instrumentDefV3
  | imbalance => .imbalance
  | statistics => .versioned .statV3
  | error => .versioned .errorV2
  | symbolMapping => .versioned .symbolMappingV2
  | system => .versioned .systemV2
  | cmbp1 | tcbbo => .cmbp1
  | cbbo1S | cbbo1M => .cbbo

/-- The record type has structs of several versions. -/
def IsVersioned (r : RType) : Prop :=
  r ∈ [instrumentDef, statistics, error, symbolMapping, system]

instance (r : RType) : Decidable r.IsVersioned :=
  inferInstanceAs (Decidable (_ ∈ _))

end RType

namespace RecordRefEnum

variable {debugAssertions : Bool} {r : RecordRef} {rtype : RType}

/-- What is returned for a known record type. -/
inductive Answers (debugAssertions : Bool) (r : RecordRef) (rtype : RType) :
    Result RecordRefEnum -> Prop where
  | fits {e : RecordRefEnum} (hsize : rtype.viewType.size ≤ r.recordSize)
      (htype : e.recordType = rtype.viewType) :
      Answers debugAssertions r rtype (Res.ok e)
  | checked {e : Error} (hversioned : rtype.IsVersioned)
      (hsize : r.recordSize < rtype.viewType.size) :
      Answers debugAssertions r rtype (Res.err e)
  | asserted (hversioned : ¬ rtype.IsVersioned)
      (hsize : r.recordSize < rtype.viewType.size)
      (hdebug : debugAssertions = true) :
      Answers debugAssertions r rtype (Res.panic Panic.assertion)
  | tooLong {e : RecordRefEnum} (hversioned : ¬ rtype.IsVersioned)
      (hsize : r.recordSize < rtype.viewType.size)
      (hdebug : debugAssertions = false)
      (htype : e.recordType = rtype.viewType) :
      Answers debugAssertions r rtype (Res.ok e)

theorem answers_unchecked {mk : List UInt8 -> RecordRefEnum}
    (hversioned : ¬ rtype.IsVersioned)
    (htype : forall rec, (mk rec).recordType = rtype.viewType) :
    Answers debugAssertions r rtype
      (r.getUnchecked debugAssertions rtype.viewType >>=
        fun rec => Res.ok (mk rec)) := by
  unfold RecordRef.getUnchecked
  by_cases hsize : r.recordSize ≥ rtype.viewType.size
  · rw [if_neg (fun hassert => hassert.2 hsize)]
    exact Answers.fits hsize (htype _)
  · cases debugAssertions with
    | false =>
        rw [if_neg (by simp)]
        exact Answers.tooLong hversioned (Nat.lt_of_not_ge hsize) rfl
          (htype _)
    | true =>
        rw [if_pos ⟨rfl, hsize⟩]
        exact Answers.asserted hversioned (Nat.lt_of_not_ge hsize) rfl

theorem answers_versioned {mk : List UInt8 -> RecordRefEnum}
    {s : RecordStruct} (name : String) (hversioned : rtype.IsVersioned)
    (hview : rtype.viewType = .versioned s)
    (htype : forall rec, (mk rec).recordType = rtype.viewType) :
    Answers debugAssertions r rtype
      (tryVersioned debugAssertions r s name >>=
        fun rec => Res.ok (mk rec)) := by
  have hsize : rtype.viewType.size = s.size := by
    rw [hview]
    exact RecordType.size_eq _
  unfold tryVersioned
  by_cases hlt : r.recordSize < s.size
  · rw [if_pos hlt]
    exact Answers.checked hversioned (by rw [hsize]; exact hlt)
  · have hge : r.recordSize ≥ rtype.viewType.size := by
      rw [hsize]
      exact Nat.le_of_not_lt hlt
    rw [if_neg hlt, ← hview]
    unfold RecordRef.getUnchecked
    rw [if_neg (fun hassert => hassert.2 hge)]
    exact Answers.fits hge (htype _)

/-- Only the arms of the versioned structs compare the sizes. -/
theorem answers_tryFrom (hrtype : r.rtype = Res.ok rtype) :
    Answers debugAssertions r rtype (tryFrom debugAssertions r) := by
  unfold tryFrom
  rw [hrtype, Res.ok_bind]
  cases rtype with
  | instrumentDef =>
      exact answers_versioned _ (by decide) rfl (fun _ => rfl)
  | statistics => exact answers_versioned _ (by decide) rfl (fun _ => rfl)
  | error => exact answers_versioned _ (by decide) rfl (fun _ => rfl)
  | symbolMapping =>
      exact answers_versioned _ (by decide) rfl (fun _ => rfl)
  | system => exact answers_versioned _ (by decide) rfl (fun _ => rfl)
  | _ => exact answers_unchecked (by decide) (fun _ => rfl)

end RecordRefEnum

end Dbn
