import Dbn.RecordTypes

/-!
# Dispatch on record types and schemas

A record is dispatched to the struct that its record type and its size say, a
schema to the current struct of its records.
-/

namespace Dbn

open Lib

namespace RecordType

/-- The record types that `has_rtype` accepts. -/
def rtypes : RecordType -> List RType
  | mbo => [.mbo]
  | trade => [.mbp0]
  | mbp1 => [.mbp1]
  | mbp10 => [.mbp10]
  | bbo => [.bbo1S, .bbo1M]
  | cmbp1 => [.cmbp1, .tcbbo]
  | cbbo => [.cbbo1S, .cbbo1M]
  | ohlcv =>
      [.ohlcv1S, .ohlcv1M, .ohlcv1H, .ohlcv1D, .ohlcvEod, .ohlcvDeprecated]
  | status => [.status]
  | imbalance => [.imbalance]
  | versioned .instrumentDefV1 | versioned .instrumentDefV2
  | versioned .instrumentDefV3 => [.instrumentDef]
  | versioned .statV1 | versioned .statV3 => [.statistics]
  | versioned .symbolMappingV1 | versioned .symbolMappingV2 =>
      [.symbolMapping]
  | versioned .errorV1 | versioned .errorV2 => [.error]
  | versioned .systemV1 | versioned .systemV2 => [.system]

def hasRtype (t : RecordType) (rtype : UInt8) : Bool :=
  t.rtypes.any (fun r => r.toUInt8 == rtype)

end RecordType

/--
`get::<T>()`, or `get::<WithTsOut<T>>()` when `tsOut` is set, of any record
struct.  Panics on a record that is too short.
-/
def RecordRef.getAs (r : RecordRef) (t : RecordType) (tsOut : Bool) :
    Except Panic (Option (List UInt8)) :=
  if t.hasRtype (rtypeOf r.bytes) then
    if Dbn.recordSize r.bytes ≥ t.size + tsOutLen tsOut then
      Except.ok (some (r.bytes.take (t.size + tsOutLen tsOut)))
    else Except.error Panic.assertion
  else Except.ok none

/-- `rtype_dispatch!`, for a record of the given size. -/
def RType.dispatch (rtype : RType) (recordSize : Nat) : RecordType :=
  match rtype with
  | .mbp0 => .trade
  | .mbp1 => .mbp1
  | .mbp10 => .mbp10
  | .ohlcvDeprecated | .ohlcv1S | .ohlcv1M | .ohlcv1H | .ohlcv1D
  | .ohlcvEod => .ohlcv
  | .imbalance => .imbalance
  | .status => .status
  | .instrumentDef =>
      if recordSize < RecordStruct.instrumentDefV2.size then
        .versioned .instrumentDefV1
      else if recordSize < RecordStruct.instrumentDefV3.size then
        .versioned .instrumentDefV2
      else .versioned .instrumentDefV3
  | .symbolMapping =>
      if recordSize < RecordStruct.symbolMappingV2.size then
        .versioned .symbolMappingV1
      else .versioned .symbolMappingV2
  | .error =>
      if recordSize < RecordStruct.errorV2.size then .versioned .errorV1
      else .versioned .errorV2
  | .system =>
      if recordSize < RecordStruct.systemV2.size then .versioned .systemV1
      else .versioned .systemV2
  | .statistics =>
      if recordSize < RecordStruct.statV3.size then .versioned .statV1
      else .versioned .statV3
  | .mbo => .mbo
  | .cmbp1 | .tcbbo => .cmbp1
  | .bbo1S | .bbo1M => .bbo
  | .cbbo1S | .cbbo1M => .cbbo

/-- `schema_dispatch!`. -/
def Schema.dispatch : Schema -> RecordType
  | .mbo => .mbo
  | .mbp1 | .tbbo => .mbp1
  | .bbo1S | .bbo1M => .bbo
  | .mbp10 => .mbp10
  | .trades => .trade
  | .ohlcv1D | .ohlcv1H | .ohlcv1M | .ohlcv1S | .ohlcvEod => .ohlcv
  | .definition => .versioned .instrumentDefV3
  | .statistics => .versioned .statV3
  | .status => .status
  | .imbalance => .imbalance
  | .cmbp1 | .tcbbo => .cmbp1
  | .cbbo1S | .cbbo1M => .cbbo

/-- The structs that the records of a schema have had. -/
def Schema.structs : Schema -> List RecordType
  | .definition =>
      [.versioned .instrumentDefV1, .versioned .instrumentDefV2,
        .versioned .instrumentDefV3]
  | .statistics => [.versioned .statV1, .versioned .statV3]
  | schema => [schema.dispatch]

/-!
## Dispatch is to a struct of the record type
-/

theorem RType.hasRtype_dispatch (rtype : RType) (recordSize : Nat) :
    (rtype.dispatch recordSize).hasRtype rtype.toUInt8 = true := by
  cases rtype <;> unfold dispatch <;> dsimp only
  case instrumentDef =>
    split
    · rfl
    · split <;> rfl
  case symbolMapping => split <;> rfl
  case error => split <;> rfl
  case system => split <;> rfl
  case statistics => split <;> rfl
  all_goals rfl

theorem Schema.dispatch_mem_structs (schema : Schema) (recordSize : Nat) :
    (RType.fromSchema schema).dispatch recordSize ∈ schema.structs := by
  cases schema <;> unfold RType.fromSchema RType.dispatch <;> dsimp only
  case definition =>
    split
    · exact List.mem_cons_self
    · split
      · exact List.mem_cons_of_mem _ List.mem_cons_self
      · exact List.mem_cons_of_mem _
          (List.mem_cons_of_mem _ List.mem_cons_self)
  case statistics =>
    split
    · exact List.mem_cons_self
    · exact List.mem_cons_of_mem _ List.mem_cons_self
  all_goals exact List.mem_cons_self

/-- Records of a schema without versions have one struct. -/
theorem Schema.dispatch_of_not_versioned {schema : Schema}
    (hdefinition : schema ≠ .definition) (hstatistics : schema ≠ .statistics)
    (recordSize : Nat) :
    (RType.fromSchema schema).dispatch recordSize = schema.dispatch := by
  cases schema <;> first | rfl | contradiction

namespace RecordRef

variable {r : RecordRef} {rtype : RType}

/-- A record is as long as the struct that it is dispatched to. -/
def Fits (r : RecordRef) (rtype : RType) (tsOut : Bool) : Prop :=
  (rtype.dispatch (Dbn.recordSize r.bytes)).size + tsOutLen tsOut ≤
    Dbn.recordSize r.bytes

instance (r : RecordRef) (rtype : RType) (tsOut : Bool) :
    Decidable (r.Fits rtype tsOut) :=
  inferInstanceAs (Decidable (_ ≤ _))

theorem getAs_dispatch (hrtype : HasRtype.rtype r = Except.ok rtype)
    (tsOut : Bool) :
    r.getAs (rtype.dispatch (Dbn.recordSize r.bytes)) tsOut =
      if r.Fits rtype tsOut then
        Except.ok (some (r.bytes.take
          ((rtype.dispatch (Dbn.recordSize r.bytes)).size + tsOutLen tsOut)))
      else Except.error Panic.assertion := by
  have hraw : rtype.toUInt8 = rtypeOf r.bytes := by
    unfold HasRtype.rtype at hrtype
    split at hrtype
    · next rtype' hfrom =>
        cases hrtype
        exact RType.tryFrom_eq_some.mp hfrom
    · cases hrtype
  unfold getAs
  rw [← hraw, RType.hasRtype_dispatch, if_pos rfl]
  rfl

end RecordRef
end Dbn
