import Dbn.Lib.Layout
import Dbn.Lib.LittleEndian
import Dbn.Types

/-!
# Records

The structs that differ between versions of the encoding, field by field, and
references to records in a byte buffer.
-/

namespace Dbn

open Lib

/-- The fields of the versioned record structs. -/
inductive Field where
  | hd | tsRecv | minPriceIncrement | displayFactor | expiration | activation
  | highLimitPrice | lowLimitPrice | maxPriceVariation | tradingReferencePrice
  | unitOfMeasureQty | minPriceIncrementAmount | priceRatio | strikePrice
  | rawInstrumentId | legPrice | legDelta | instAttribValue | underlyingId
  | marketDepthImplied | marketDepth | marketSegmentId | maxTradeVol
  | minLotSize | minLotSizeBlock | minLotSizeRoundLot | minTradeVol
  | contractMultiplier | decayQuantity | originalContractSize
  | legInstrumentId | legRatioPriceNumerator | legRatioPriceDenominator
  | legRatioQtyNumerator | legRatioQtyDenominator | legUnderlyingId
  | tradingReferenceDate | applId | maturityYear | decayStartDate | channelId
  | legCount | legIndex | currency | settlCurrency | secsubtype | rawSymbol
  | group | exchange | asset | cfi | securityType | unitOfMeasure | underlying
  | strikePriceCurrency | legRawSymbol | instrumentClass | matchAlgorithm
  | mdSecurityTradingStatus | mainFraction | priceDisplayFormat
  | settlPriceType | subFraction | underlyingProduct | securityUpdateAction
  | maturityMonth | maturityDay | maturityWeek | userDefinedInstrument
  | contractMultiplierUnit | flowScheduleType | tickRule | legInstrumentClass
  | legSide | tsRef | price | quantity | sequence | tsInDelta | statType
  | updateAction | statFlags | stypeIn | stypeInSymbol | stypeOut
  | stypeOutSymbol | startTs | endTs | err | code | isLast | msg
  | reserved | reserved2 | reserved3 | reserved4 | reserved5 | dummy
deriving DecidableEq, Repr

/-- The versioned record structs. -/
inductive RecordStruct where
  | instrumentDefV1 | instrumentDefV2 | instrumentDefV3
  | statV1 | statV3
  | symbolMappingV1 | symbolMappingV2
  | errorV1 | errorV2
  | systemV1 | systemV2
deriving DecidableEq, Repr

namespace RecordStruct

/-- The size of `RecordHeader`, the first field of every record. -/
def headerLen : Nat := 16

def instrumentDefV1Layout : Layout Field :=
  [(.hd, headerLen), (.tsRecv, 8), (.minPriceIncrement, 8),
    (.displayFactor, 8), (.expiration, 8), (.activation, 8),
    (.highLimitPrice, 8), (.lowLimitPrice, 8), (.maxPriceVariation, 8),
    (.tradingReferencePrice, 8), (.unitOfMeasureQty, 8),
    (.minPriceIncrementAmount, 8), (.priceRatio, 8), (.instAttribValue, 4),
    (.underlyingId, 4), (.rawInstrumentId, 4), (.marketDepthImplied, 4),
    (.marketDepth, 4), (.marketSegmentId, 4), (.maxTradeVol, 4),
    (.minLotSize, 4), (.minLotSizeBlock, 4), (.minLotSizeRoundLot, 4),
    (.minTradeVol, 4), (.reserved2, 4), (.contractMultiplier, 4),
    (.decayQuantity, 4), (.originalContractSize, 4), (.reserved3, 4),
    (.tradingReferenceDate, 2), (.applId, 2), (.maturityYear, 2),
    (.decayStartDate, 2), (.channelId, 2), (.currency, 4),
    (.settlCurrency, 4), (.secsubtype, 6), (.rawSymbol, symbolCstrLenV1),
    (.group, 21), (.exchange, 5), (.asset, 7), (.cfi, 7), (.securityType, 7),
    (.unitOfMeasure, 31), (.underlying, 21), (.strikePriceCurrency, 4),
    (.instrumentClass, 1), (.reserved4, 2), (.strikePrice, 8),
    (.reserved5, 6), (.matchAlgorithm, 1), (.mdSecurityTradingStatus, 1),
    (.mainFraction, 1), (.priceDisplayFormat, 1), (.settlPriceType, 1),
    (.subFraction, 1), (.underlyingProduct, 1), (.securityUpdateAction, 1),
    (.maturityMonth, 1), (.maturityDay, 1), (.maturityWeek, 1),
    (.userDefinedInstrument, 1), (.contractMultiplierUnit, 1),
    (.flowScheduleType, 1), (.tickRule, 1), (.dummy, 3)]

def instrumentDefV2Layout : Layout Field :=
  [(.hd, headerLen), (.tsRecv, 8), (.minPriceIncrement, 8),
    (.displayFactor, 8), (.expiration, 8), (.activation, 8),
    (.highLimitPrice, 8), (.lowLimitPrice, 8), (.maxPriceVariation, 8),
    (.tradingReferencePrice, 8), (.unitOfMeasureQty, 8),
    (.minPriceIncrementAmount, 8), (.priceRatio, 8), (.strikePrice, 8),
    (.instAttribValue, 4), (.underlyingId, 4), (.rawInstrumentId, 4),
    (.marketDepthImplied, 4), (.marketDepth, 4), (.marketSegmentId, 4),
    (.maxTradeVol, 4), (.minLotSize, 4), (.minLotSizeBlock, 4),
    (.minLotSizeRoundLot, 4), (.minTradeVol, 4), (.contractMultiplier, 4),
    (.decayQuantity, 4), (.originalContractSize, 4),
    (.tradingReferenceDate, 2), (.applId, 2), (.maturityYear, 2),
    (.decayStartDate, 2), (.channelId, 2), (.currency, 4),
    (.settlCurrency, 4), (.secsubtype, 6), (.rawSymbol, symbolCstrLenV2),
    (.group, 21), (.exchange, 5), (.asset, 7), (.cfi, 7), (.securityType, 7),
    (.unitOfMeasure, 31), (.underlying, 21), (.strikePriceCurrency, 4),
    (.instrumentClass, 1), (.matchAlgorithm, 1),
    (.mdSecurityTradingStatus, 1), (.mainFraction, 1),
    (.priceDisplayFormat, 1), (.settlPriceType, 1), (.subFraction, 1),
    (.underlyingProduct, 1), (.securityUpdateAction, 1), (.maturityMonth, 1),
    (.maturityDay, 1), (.maturityWeek, 1), (.userDefinedInstrument, 1),
    (.contractMultiplierUnit, 1), (.flowScheduleType, 1), (.tickRule, 1),
    (.reserved, 10)]

def instrumentDefV3Layout : Layout Field :=
  [(.hd, headerLen), (.tsRecv, 8), (.minPriceIncrement, 8),
    (.displayFactor, 8), (.expiration, 8), (.activation, 8),
    (.highLimitPrice, 8), (.lowLimitPrice, 8), (.maxPriceVariation, 8),
    (.unitOfMeasureQty, 8), (.minPriceIncrementAmount, 8), (.priceRatio, 8),
    (.strikePrice, 8), (.rawInstrumentId, 8), (.legPrice, 8), (.legDelta, 8),
    (.instAttribValue, 4), (.underlyingId, 4), (.marketDepthImplied, 4),
    (.marketDepth, 4), (.marketSegmentId, 4), (.maxTradeVol, 4),
    (.minLotSize, 4), (.minLotSizeBlock, 4), (.minLotSizeRoundLot, 4),
    (.minTradeVol, 4), (.contractMultiplier, 4), (.decayQuantity, 4),
    (.originalContractSize, 4), (.legInstrumentId, 4),
    (.legRatioPriceNumerator, 4), (.legRatioPriceDenominator, 4),
    (.legRatioQtyNumerator, 4), (.legRatioQtyDenominator, 4),
    (.legUnderlyingId, 4), (.applId, 2), (.maturityYear, 2),
    (.decayStartDate, 2), (.channelId, 2), (.legCount, 2), (.legIndex, 2),
    (.currency, 4), (.settlCurrency, 4), (.secsubtype, 6),
    (.rawSymbol, symbolCstrLenV3), (.group, 21), (.exchange, 5), (.asset, 11),
    (.cfi, 7), (.securityType, 7), (.unitOfMeasure, 31), (.underlying, 21),
    (.strikePriceCurrency, 4), (.legRawSymbol, symbolCstrLenV3),
    (.instrumentClass, 1), (.matchAlgorithm, 1), (.mainFraction, 1),
    (.priceDisplayFormat, 1), (.subFraction, 1), (.underlyingProduct, 1),
    (.securityUpdateAction, 1), (.maturityMonth, 1), (.maturityDay, 1),
    (.maturityWeek, 1), (.userDefinedInstrument, 1),
    (.contractMultiplierUnit, 1), (.flowScheduleType, 1), (.tickRule, 1),
    (.legInstrumentClass, 1), (.legSide, 1), (.reserved, 17)]

/-- The statistics message, whose quantity and reserved tail have grown. -/
def statLayout (quantity reserved : Nat) : Layout Field :=
  [(.hd, headerLen), (.tsRecv, 8), (.tsRef, 8), (.price, 8),
    (.quantity, quantity), (.sequence, 4), (.tsInDelta, 4), (.statType, 2),
    (.channelId, 2), (.updateAction, 1), (.statFlags, 1),
    (.reserved, reserved)]

/-- `repr(C)` layout; no struct has padding. -/
def layout : RecordStruct -> Layout Field
  | instrumentDefV1 => instrumentDefV1Layout
  | instrumentDefV2 => instrumentDefV2Layout
  | instrumentDefV3 => instrumentDefV3Layout
  | statV1 => statLayout 4 6
  | statV3 => statLayout 8 18
  | symbolMappingV1 =>
      [(.hd, headerLen), (.stypeInSymbol, symbolCstrLenV1),
        (.stypeOutSymbol, symbolCstrLenV1), (.dummy, 4), (.startTs, 8),
        (.endTs, 8)]
  | symbolMappingV2 =>
      [(.hd, headerLen), (.stypeIn, 1), (.stypeInSymbol, symbolCstrLenV2),
        (.stypeOut, 1), (.stypeOutSymbol, symbolCstrLenV2), (.startTs, 8),
        (.endTs, 8)]
  | errorV1 => [(.hd, headerLen), (.err, 64)]
  | errorV2 => [(.hd, headerLen), (.err, 302), (.code, 1), (.isLast, 1)]
  | systemV1 => [(.hd, headerLen), (.msg, 64)]
  | systemV2 => [(.hd, headerLen), (.msg, 303), (.code, 1)]

/-- `HasRType::has_rtype`: each of the structs has one record type. -/
def rtype : RecordStruct -> UInt8
  | instrumentDefV1 | instrumentDefV2 | instrumentDefV3 => Rtype.instrumentDef
  | statV1 | statV3 => Rtype.statistics
  | symbolMappingV1 | symbolMappingV2 => Rtype.symbolMapping
  | errorV1 | errorV2 => Rtype.error
  | systemV1 | systemV2 => Rtype.system

/-- `size_of`. -/
def size (s : RecordStruct) : Nat :=
  s.layout.size

@[simp] theorem size_eq (s : RecordStruct) :
    s.size =
      match s with
      | instrumentDefV1 => 360
      | instrumentDefV2 => 400
      | instrumentDefV3 => 520
      | statV1 => 64
      | statV3 => 80
      | symbolMappingV1 => 80
      | symbolMappingV2 => 176
      | errorV1 => 80
      | errorV2 => 320
      | systemV1 => 80
      | systemV2 => 320 := by
  cases s <;> rfl

end RecordStruct

/-- The bytes that `WithTsOut` adds to a record. -/
def tsOutLen (tsOut : Bool) : Nat :=
  if tsOut then 8 else 0

/-- The size of the largest record, `WithTsOut<v3::InstrumentDefMsg>`. -/
def maxRecordLen : Nat :=
  RecordStruct.instrumentDefV3.size + tsOutLen true

@[simp] theorem maxRecordLen_eq : maxRecordLen = 528 := rfl

theorem tsOutLen_le (tsOut : Bool) : tsOutLen tsOut ≤ 8 := by
  cases tsOut <;> decide

/-!
## Record references
-/

/-- `RecordHeader::LENGTH_MULTIPLIER`. -/
def lengthMultiplier : Nat := 4

/-- The size of the record that starts at the front of some bytes. -/
def recordSize (bytes : List UInt8) : Nat :=
  (bytes.headD 0).toNat * lengthMultiplier

/-- The record type in the header at the front of some bytes. -/
def rtypeOf (bytes : List UInt8) : UInt8 :=
  bytes.getD 1 0

/--
A reference to a record: the memory from its first byte on.  `new` is the
constructor, as in a release build, without its `debug_assert`s.
-/
structure RecordRef where
  bytes : List UInt8
deriving DecidableEq, Repr

namespace RecordRef

/-- `AsRef<[u8]>`: as many bytes as the header says. -/
def asRef (r : RecordRef) : List UInt8 :=
  r.bytes.take (recordSize r.bytes)

/--
`get::<T>()`, or `get::<WithTsOut<T>>()` when `tsOut` is set: the bytes of the
struct, `None` for another record type.  Panics on a record that is too short.
-/
def get (r : RecordRef) (s : RecordStruct) (tsOut : Bool) :
    Except Panic (Option (List UInt8)) :=
  if rtypeOf r.bytes = s.rtype then
    if recordSize r.bytes ≥ s.size + tsOutLen tsOut then
      Except.ok (some (r.bytes.take (s.size + tsOutLen tsOut)))
    else Except.error Panic.assertion
  else Except.ok none

end RecordRef

theorem recordSize_le (bytes : List UInt8) : recordSize bytes ≤ 1020 := by
  have h := (bytes.headD 0).toNat_lt
  unfold recordSize lengthMultiplier
  omega

theorem recordSize_append {a b : List UInt8} (h : a ≠ []) :
    recordSize (a ++ b) = recordSize a := by
  cases a with
  | nil => exact absurd rfl h
  | cons x rest => rfl

theorem recordSize_take {n : Nat} (h : 0 < n) (bytes : List UInt8) :
    recordSize (bytes.take n) = recordSize bytes := by
  cases bytes with
  | nil => simp
  | cons b rest =>
      cases n with
      | zero => cases h
      | succ n => rfl

theorem rtypeOf_append {a b : List UInt8} (h : 2 ≤ a.length) :
    rtypeOf (a ++ b) = rtypeOf a := by
  simp only [rtypeOf, List.getD_eq_getElem?_getD]
  rw [List.getElem?_append_left (by omega)]

end Dbn
