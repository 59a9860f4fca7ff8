import Dbn.Lib.Placement
import Dbn.Record
import Mathlib.Data.List.Sort

/-!
# Record types and their fields

The record structs with the types and the attributes of their fields, as they
are declared, and the record types that they go with.
-/

namespace Dbn

open Lib

/-!
## Record types
-/

inductive RType where
  | mbp0 | mbp1 | mbp10 | ohlcvDeprecated | ohlcv1S | ohlcv1M | ohlcv1H
  | ohlcv1D | ohlcvEod | status | instrumentDef | imbalance | error
  | symbolMapping | system | statistics | mbo | cmbp1 | cbbo1S | cbbo1M | tcbbo
  | bbo1S | bbo1M
deriving DecidableEq, Repr

namespace RType

/-- `rtype as u8`. -/
def toUInt8 : RType -> UInt8
  | mbp0 => 0x00 | mbp1 => 0x01 | mbp10 => 0x0A | ohlcvDeprecated => 0x11
  | ohlcv1S => 0x20 | ohlcv1M => 0x21 | ohlcv1H => 0x22 | ohlcv1D => 0x23
  | ohlcvEod => 0x24 | status => 0x12 | instrumentDef => Rtype.instrumentDef
  | imbalance => 0x14 | error => Rtype.error
  | symbolMapping => Rtype.symbolMapping | system => Rtype.system
  | statistics => Rtype.statistics | mbo => 0xA0 | cmbp1 => 0xB1
  | cbbo1S => 0xC0 | cbbo1M => 0xC1 | tcbbo => 0xC2 | bbo1S => 0xC3
  | bbo1M => 0xC4

def all : List RType :=
  [mbp0, mbp1, mbp10, ohlcvDeprecated, ohlcv1S, ohlcv1M, ohlcv1H, ohlcv1D,
    ohlcvEod, status, instrumentDef, imbalance, error, symbolMapping, system,
    statistics, mbo, cmbp1, cbbo1S, cbbo1M, tcbbo, bbo1S, bbo1M]

def tryFrom (rtype : UInt8) : Option RType :=
  all.find? (fun r => r.toUInt8 = rtype)

theorem tryFrom_toUInt8 (r : RType) : tryFrom r.toUInt8 = some r := by
  cases r <;> rfl

theorem tryFrom_eq_some {rtype : UInt8} {r : RType} :
    tryFrom rtype = some r <-> r.toUInt8 = rtype := by
  constructor
  · intro h
    simpa using List.find?_some h
  · intro h
    rw [← h]
    exact tryFrom_toUInt8 r

/-- `format!("{:?}", rtype)`. -/
def debug : RType -> String
  | mbp0 => "Mbp0" | mbp1 => "Mbp1" | mbp10 => "Mbp10"
  | ohlcvDeprecated => "OhlcvDeprecated" | ohlcv1S => "Ohlcv1S"
  | ohlcv1M => "Ohlcv1M" | ohlcv1H => "Ohlcv1H" | ohlcv1D => "Ohlcv1D"
  | ohlcvEod => "OhlcvEod" | status => "Status"
  | instrumentDef => "InstrumentDef" | imbalance => "Imbalance"
  | error => "Error" | symbolMapping => "SymbolMapping" | system => "System"
  | statistics => "Statistics" | mbo => "Mbo" | cmbp1 => "Cmbp1"
  | cbbo1S => "Cbbo1S" | cbbo1M => "Cbbo1M" | tcbbo => "Tcbbo"
  | bbo1S => "Bbo1S" | bbo1M => "Bbo1M"

/-- `RType::from`. -/
def fromSchema : Schema -> RType
  | .mbo => .mbo
  | .mbp1 | .tbbo => .mbp1
  | .mbp10 => .mbp10
  | .trades => .mbp0
  | .ohlcv1S => .ohlcv1S
  | .ohlcv1M => .ohlcv1M
  | .ohlcv1H => .ohlcv1H
  | .ohlcv1D => .ohlcv1D
  | .ohlcvEod => .ohlcvEod
  | .definition => .instrumentDef
  | .statistics => .statistics
  | .status => .status
  | .imbalance => .imbalance
  | .cmbp1 => .cmbp1
  | .cbbo1S => .cbbo1S
  | .cbbo1M => .cbbo1M
  | .tcbbo => .tcbbo
  | .bbo1S => .bbo1S
  | .bbo1M => .bbo1M

end RType

/-- The record type of the header of a record. -/
class HasRtype (R : Type) where
  rawRtype : R -> UInt8

namespace HasRtype

variable {R : Type} [HasRtype R]

/-- `format!("{:#04X}", n)`. -/
def hexText (n : UInt8) : String :=
  let digits := (Nat.toDigits 16 n.toNat).map Char.toUpper
  "0x" ++ String.ofList (List.replicate (2 - digits.length) '0' ++ digits)

/-- `Record::rtype`. -/
def rtype (record : R) : Except Error RType :=
  match RType.tryFrom (rawRtype record) with
  | some rtype => Except.ok rtype
  | none =>
      Except.error
        (Error.conversion (hexText (rawRtype record)) "dbn::enums::RType")

/-- `format!("{:?}", record.rtype())`. -/
def debugRtype (record : R) : String :=
  match RType.tryFrom (rawRtype record) with
  | some rtype => "Ok(" ++ rtype.debug ++ ")"
  | none =>
      "Err(Conversion \x7b input: \"" ++ hexText (rawRtype record) ++
        "\", desired_type: \"dbn::enums::RType\" \x7d)"

end HasRtype

instance : HasRtype RecordRef where
  rawRtype record := rtypeOf record.bytes

/-- The error of the CSV encoder for a record of another type. -/
def mixedSchemas {R : Type} [HasRtype R] (rtype : RType) (record : R) :
    Error :=
  Error.encode ("schema indicated " ++ rtype.debug ++
    ", but found record with rtype " ++ HasRtype.debugRtype record ++
    ". Mixed schemas cannot be encoded in CSV.")

/-!
## Fields
-/

/-- The types of the fields of a record struct. -/
inductive FieldType where
  | u8 | i8 | u16 | i16 | u32 | i32 | u64 | i64
  /-- `c_char`. -/
  | cChar
  /-- `[c_char; N]`. -/
  | chars (len : Nat)
  /-- `[u8; N]`. -/
  | bytes (len : Nat)
  | flagSet
  | securityUpdateAction
  | userDefinedInstrument
  | recordHeader
  | bidAskPairs (levels : Nat)
  | consolidatedBidAskPairs (levels : Nat)
deriving DecidableEq, Repr

namespace FieldType

def size : FieldType -> Nat
  | u8 | i8 | cChar | flagSet | securityUpdateAction
  | userDefinedInstrument => 1
  | u16 | i16 => 2
  | u32 | i32 => 4
  | u64 | i64 => 8
  | chars len | bytes len => len
  | recordHeader => RecordStruct.headerLen
  | bidAskPairs levels | consolidatedBidAskPairs levels => 32 * levels

end FieldType

/-- The arguments of `#[dbn(..)]` that serialization looks at. -/
inductive SerializeAttr where
  | unixNanos | fixedPrice | cChar
deriving DecidableEq, Repr

structure FieldDesc where
  name : String
  ty : FieldType
  attr : Option SerializeAttr
  skip : Bool
  encodeOrder : Option Nat
deriving DecidableEq, Repr

namespace FieldDesc

def field (name : String) (ty : FieldType) : FieldDesc :=
  ⟨name, ty, none, false, none⟩

/-- `#[dbn(unix_nanos)] name: u64`. -/
def nanos (name : String) : FieldDesc :=
  ⟨name, .u64, some .unixNanos, false, none⟩

/-- `#[dbn(fixed_price)] name: i64`. -/
def price (name : String) : FieldDesc :=
  ⟨name, .i64, some .fixedPrice, false, none⟩

/-- `#[dbn(c_char)] name: c_char`. -/
def char (name : String) : FieldDesc :=
  ⟨name, .cChar, some .cChar, false, none⟩

/-- `#[dbn(skip)] name: u8`. -/
def hidden (name : String) : FieldDesc :=
  ⟨name, .u8, none, true, none⟩

/-- `#[dbn(encode_order(order))]`. -/
def ordered (f : FieldDesc) (order : Nat) : FieldDesc :=
  { f with encodeOrder := some order }

/-- Dummy and skipped fields are not serialized. -/
def isHidden (f : FieldDesc) : Bool :=
  f.name.toList.head? = some '_' || f.skip

/-- Moves a field to the place that its encode order asks for. -/
def moveField (fields : List FieldDesc) (order : Nat × FieldDesc) :
    List FieldDesc :=
  let fields := fields.eraseP (fun f => f.name = order.2.name)
  if order.1 ≥ fields.length then fields ++ [order.2]
  else fields.insertIdx order.1 order.2

/-- The fields in the order in which they are serialized. -/
def getSortedFields (fields : List FieldDesc) : List FieldDesc :=
  let encodeOrderFields := fields.filterMap (fun f =>
    f.encodeOrder.map (fun order => (order, f)))
  (encodeOrderFields.insertionSort (fun a b => a.1 ≤ b.1)).foldl moveField
    fields

/-- The fields that are serialized, in order. -/
def serializedFields (fields : List FieldDesc) : List FieldDesc :=
  (getSortedFields fields).filter (fun f => !f.isHidden)

/-!
### Sorting moves fields around
-/

variable {fields : List FieldDesc}

theorem foldl_moveField_eq (orders : List (Nat × FieldDesc)) :
    orders.foldl moveField fields =
      Placement.placeAll name fields orders :=
  rfl

/-- Sorting keeps all of the fields. -/
theorem getSortedFields_perm (hnames : (fields.map name).Nodup) :
    (getSortedFields fields).Perm fields := by
  unfold getSortedFields
  rw [foldl_moveField_eq]
  apply Placement.placeAll_perm hnames
  intro order horder
  rcases List.mem_filterMap.mp ((List.mem_insertionSort _).mp horder) with
    ⟨f, hf, hsome⟩
  rcases Option.map_eq_some_iff.mp hsome with ⟨n, _, rfl⟩
  exact hf

theorem serializedFields_perm (hnames : (fields.map name).Nodup) :
    (serializedFields fields).Perm
      (fields.filter (fun f => !f.isHidden)) :=
  (getSortedFields_perm hnames).filter _

end FieldDesc

/-!
## Record structs
-/

section Tables

open FieldDesc

def recordHeaderFields : List FieldDesc :=
  [hidden "length", field "rtype" .u8, field "publisher_id" .u16,
    field "instrument_id" .u32, (nanos "ts_event").ordered 0]

def mboMsgFields : List FieldDesc :=
  [field "hd" .recordHeader, field "order_id" .u64, (price "price").ordered 4,
    (field "size" .u32).ordered 5, field "flags" .flagSet,
    (field "channel_id" .u8).ordered 6, (char "action").ordered 2,
    (char "side").ordered 3, (nanos "ts_recv").ordered 0,
    field "ts_in_delta" .i32, field "sequence" .u32]

def tradeMsgFields : List FieldDesc :=
  [field "hd" .recordHeader, price "price", field "size" .u32,
    (char "action").ordered 2, (char "side").ordered 3, field "flags" .flagSet,
    (field "depth" .u8).ordered 4, (nanos "ts_recv").ordered 0,
    field "ts_in_delta" .i32, field "sequence" .u32]

def mbp1MsgFields : List FieldDesc :=
  [field "hd" .recordHeader, price "price", field "size" .u32,
    (char "action").ordered 2, (char "side").ordered 3, field "flags" .flagSet,
    (field "depth" .u8).ordered 4, (nanos "ts_recv").ordered 0,
    field "ts_in_delta" .i32, field "sequence" .u32,
    field "levels" (.bidAskPairs 1)]

def mbp10MsgFields : List FieldDesc :=
  [field "hd" .recordHeader, price "price", field "size" .u32,
    (char "action").ordered 2, (char "side").ordered 3, field "flags" .flagSet,
    (field "depth" .u8).ordered 4, (nanos "ts_recv").ordered 0,
    field "ts_in_delta" .i32, field "sequence" .u32,
    field "levels" (.bidAskPairs 10)]

def bboMsgFields : List FieldDesc :=
  [field "hd" .recordHeader, price "price", field "size" .u32,
    field "_reserved1" .u8, (char "side").ordered 2, field "flags" .flagSet,
    field "_reserved2" .u8, (nanos "ts_recv").ordered 0,
    field "_reserved3" (.bytes 4), field "sequence" .u32,
    field "levels" (.bidAskPairs 1)]

def cmbp1MsgFields : List FieldDesc :=
  [field "hd" .recordHeader, price "price", field "size" .u32,
    (char "action").ordered 2, (char "side").ordered 3, field "flags" .flagSet,
    field "_reserved1" (.bytes 1), (nanos "ts_recv").ordered 0,
    field "ts_in_delta" .i32, field "_reserved2" (.bytes 4),
    field "levels" (.consolidatedBidAskPairs 1)]

def cbboMsgFields : List FieldDesc :=
  [field "hd" .recordHeader, price "price", field "size" .u32,
    field "_reserved1" .u8, (char "side").ordered 2, field "flags" .flagSet,
    field "_reserved2" .u8, (nanos "ts_recv").ordered 0,
    field "_reserved3" (.bytes 8), field "levels" (.consolidatedBidAskPairs 1)]

def ohlcvMsgFields : List FieldDesc :=
  [field "hd" .recordHeader, price "open", price "high", price "low",
    price "close", field "volume" .u64]

def statusMsgFields : List FieldDesc :=
  [field "hd" .recordHeader, (nanos "ts_recv").ordered 0, field "action" .u16,
    field "reason" .u16, field "trading_event" .u16, char "is_trading",
    char "is_quoting", char "is_short_sell_restricted",
    field "_reserved" (.bytes 7)]

def imbalanceMsgFields : List FieldDesc :=
  [field "hd" .recordHeader, (nanos "ts_recv").ordered 0, price "ref_price",
    nanos "auction_time", price "cont_book_clr_price",
    price "auct_interest_clr_price", price "ssr_filling_price",
    price "ind_match_price", price "upper_collar", price "lower_collar",
    field "paired_qty" .u32, field "total_imbalance_qty" .u32,
    field "market_imbalance_qty" .u32, field "unpaired_qty" .u32,
    char "auction_type", char "side", field "auction_status" .u8,
    field "freeze_status" .u8, field "num_extensions" .u8,
    char "unpaired_side", char "significant_imbalance",
    field "_reserved" (.bytes 1)]

def instrumentDefMsgV1Fields : List FieldDesc :=
  [field "hd" .recordHeader, (nanos "ts_recv").ordered 0,
    price "min_price_increment", price "display_factor", nanos "expiration",
    nanos "activation", price "high_limit_price", price "low_limit_price",
    price "max_price_variation", price "trading_reference_price",
    price "unit_of_measure_qty", price "min_price_increment_amount",
    price "price_ratio", field "inst_attrib_value" .i32,
    field "underlying_id" .u32, field "raw_instrument_id" .u32,
    field "market_depth_implied" .i32, field "market_depth" .i32,
    field "market_segment_id" .u32, field "max_trade_vol" .u32,
    field "min_lot_size" .i32, field "min_lot_size_block" .i32,
    field "min_lot_size_round_lot" .i32, field "min_trade_vol" .u32,
    field "_reserved2" (.bytes 4), field "contract_multiplier" .i32,
    field "decay_quantity" .i32, field "original_contract_size" .i32,
    field "_reserved3" (.bytes 4), field "trading_reference_date" .u16,
    field "appl_id" .i16, field "maturity_year" .u16,
    field "decay_start_date" .u16, field "channel_id" .u16,
    field "currency" (.chars 4), field "settl_currency" (.chars 4),
    field "secsubtype" (.chars 6),
    (field "raw_symbol" (.chars symbolCstrLenV1)).ordered 2,
    field "group" (.chars 21), field "exchange" (.chars 5),
    field "asset" (.chars 7), field "cfi" (.chars 7),
    field "security_type" (.chars 7), field "unit_of_measure" (.chars 31),
    field "underlying" (.chars 21), field "strike_price_currency" (.chars 4),
    (char "instrument_class").ordered 4, field "_reserved4" (.bytes 2),
    price "strike_price", field "_reserved5" (.bytes 6),
    char "match_algorithm", field "md_security_trading_status" .u8,
    field "main_fraction" .u8, field "price_display_format" .u8,
    field "settl_price_type" .u8, field "sub_fraction" .u8,
    field "underlying_product" .u8,
    (field "security_update_action" .securityUpdateAction).ordered 3,
    field "maturity_month" .u8, field "maturity_day" .u8,
    field "maturity_week" .u8,
    field "user_defined_instrument" .userDefinedInstrument,
    field "contract_multiplier_unit" .i8, field "flow_schedule_type" .i8,
    field "tick_rule" .u8, field "_dummy" (.bytes 3)]

def instrumentDefMsgV2Fields : List FieldDesc :=
  [field "hd" .recordHeader, (nanos "ts_recv").ordered 0,
    price "min_price_increment", price "display_factor", nanos "expiration",
    nanos "activation", price "high_limit_price", price "low_limit_price",
    price "max_price_variation", price "trading_reference_price",
    price "unit_of_measure_qty", price "min_price_increment_amount",
    price "price_ratio", (price "strike_price").ordered 46,
    field "inst_attrib_value" .i32, field "underlying_id" .u32,
    field "raw_instrument_id" .u32, field "market_depth_implied" .i32,
    field "market_depth" .i32, field "market_segment_id" .u32,
    field "max_trade_vol" .u32, field "min_lot_size" .i32,
    field "min_lot_size_block" .i32, field "min_lot_size_round_lot" .i32,
    field "min_trade_vol" .u32, field "contract_multiplier" .i32,
    field "decay_quantity" .i32, field "original_contract_size" .i32,
    field "trading_reference_date" .u16, field "appl_id" .i16,
    field "maturity_year" .u16, field "decay_start_date" .u16,
    field "channel_id" .u16, field "currency" (.chars 4),
    field "settl_currency" (.chars 4), field "secsubtype" (.chars 6),
    (field "raw_symbol" (.chars symbolCstrLenV2)).ordered 2,
    field "group" (.chars 21), field "exchange" (.chars 5),
    field "asset" (.chars 7), field "cfi" (.chars 7),
    field "security_type" (.chars 7), field "unit_of_measure" (.chars 31),
    field "underlying" (.chars 21), field "strike_price_currency" (.chars 4),
    (char "instrument_class").ordered 4, char "match_algorithm",
    field "md_security_trading_status" .u8, field "main_fraction" .u8,
    field "price_display_format" .u8, field "settl_price_type" .u8,
    field "sub_fraction" .u8, field "underlying_product" .u8,
    (char "security_update_action").ordered 3, field "maturity_month" .u8,
    field "maturity_day" .u8, field "maturity_week" .u8,
    field "user_defined_instrument" .userDefinedInstrument,
    field "contract_multiplier_unit" .i8, field "flow_schedule_type" .i8,
    field "tick_rule" .u8, field "_reserved" (.bytes 10)]

def instrumentDefMsgV3Fields : List FieldDesc :=
  [field "hd" .recordHeader, (nanos "ts_recv").ordered 0,
    price "min_price_increment", price "display_factor", nanos "expiration",
    nanos "activation", price "high_limit_price", price "low_limit_price",
    price "max_price_variation", price "unit_of_measure_qty",
    price "min_price_increment_amount", price "price_ratio",
    (price "strike_price").ordered 54,
    (field "raw_instrument_id" .u64).ordered 20,
    (price "leg_price").ordered 165, (price "leg_delta").ordered 166,
    field "inst_attrib_value" .i32, field "underlying_id" .u32,
    field "market_depth_implied" .i32, field "market_depth" .i32,
    field "market_segment_id" .u32, field "max_trade_vol" .u32,
    field "min_lot_size" .i32, field "min_lot_size_block" .i32,
    field "min_lot_size_round_lot" .i32, field "min_trade_vol" .u32,
    field "contract_multiplier" .i32, field "decay_quantity" .i32,
    field "original_contract_size" .i32,
    (field "leg_instrument_id" .u32).ordered 160,
    (field "leg_ratio_price_numerator" .i32).ordered 167,
    (field "leg_ratio_price_denominator" .i32).ordered 168,
    (field "leg_ratio_qty_numerator" .i32).ordered 169,
    (field "leg_ratio_qty_denominator" .i32).ordered 170,
    (field "leg_underlying_id" .u32).ordered 171, field "appl_id" .i16,
    field "maturity_year" .u16, field "decay_start_date" .u16,
    field "channel_id" .u16, (field "leg_count" .u16).ordered 158,
    (field "leg_index" .u16).ordered 159, field "currency" (.chars 4),
    field "settl_currency" (.chars 4), field "secsubtype" (.chars 6),
    (field "raw_symbol" (.chars symbolCstrLenV3)).ordered 2,
    field "group" (.chars 21), field "exchange" (.chars 5),
    field "asset" (.chars 11), field "cfi" (.chars 7),
    field "security_type" (.chars 7), field "unit_of_measure" (.chars 31),
    field "underlying" (.chars 21), field "strike_price_currency" (.chars 4),
    (field "leg_raw_symbol" (.chars symbolCstrLenV3)).ordered 161,
    (char "instrument_class").ordered 4, char "match_algorithm",
    field "main_fraction" .u8, field "price_display_format" .u8,
    field "sub_fraction" .u8, field "underlying_product" .u8,
    (char "security_update_action").ordered 3, field "maturity_month" .u8,
    field "maturity_day" .u8, field "maturity_week" .u8,
    char "user_defined_instrument", field "contract_multiplier_unit" .i8,
    field "flow_schedule_type" .i8, field "tick_rule" .u8,
    (char "leg_instrument_class").ordered 163, (char "leg_side").ordered 164,
    field "_reserved" (.bytes 17)]

def statMsgV1Fields : List FieldDesc :=
  [field "hd" .recordHeader, (nanos "ts_recv").ordered 0, nanos "ts_ref",
    price "price", field "quantity" .i32, field "sequence" .u32,
    field "ts_in_delta" .i32, field "stat_type" .u16, field "channel_id" .u16,
    field "update_action" .u8, field "stat_flags" .u8,
    field "_reserved" (.bytes 6)]

def statMsgV3Fields : List FieldDesc :=
  [field "hd" .recordHeader, (nanos "ts_recv").ordered 0, nanos "ts_ref",
    price "price", field "quantity" .i64, field "sequence" .u32,
    field "ts_in_delta" .i32, field "stat_type" .u16, field "channel_id" .u16,
    field "update_action" .u8, field "stat_flags" .u8,
    field "_reserved" (.bytes 18)]

def symbolMappingMsgV1Fields : List FieldDesc :=
  [field "hd" .recordHeader, field "stype_in_symbol" (.chars symbolCstrLenV1),
    field "stype_out_symbol" (.chars symbolCstrLenV1),
    field "_dummy" (.bytes 4), nanos "start_ts", nanos "end_ts"]

def symbolMappingMsgV2Fields : List FieldDesc :=
  [field "hd" .recordHeader, field "stype_in" .u8,
    field "stype_in_symbol" (.chars symbolCstrLenV3), field "stype_out" .u8,
    field "stype_out_symbol" (.chars symbolCstrLenV3), nanos "start_ts",
    nanos "end_ts"]

def errorMsgV1Fields : List FieldDesc :=
  [field "hd" .recordHeader, field "err" (.chars 64)]

def errorMsgV2Fields : List FieldDesc :=
  [field "hd" .recordHeader, field "err" (.chars 302), field "code" .u8,
    field "is_last" .u8]

def systemMsgV1Fields : List FieldDesc :=
  [field "hd" .recordHeader, field "msg" (.chars 64)]

def systemMsgV2Fields : List FieldDesc :=
  [field "hd" .recordHeader, field "msg" (.chars 303), field "code" .u8]


end Tables

/-- The record structs; those that differ between versions apart. -/
inductive RecordType where
  | mbo | trade | mbp1 | mbp10 | bbo | cmbp1 | cbbo | ohlcv | status | imbalance
  | versioned (s : RecordStruct)
deriving DecidableEq, Repr

namespace RecordType

def fields : RecordType -> List FieldDesc
  | mbo => mboMsgFields
  | trade => tradeMsgFields
  | mbp1 => mbp1MsgFields
  | mbp10 => mbp10MsgFields
  | bbo => bboMsgFields
  | cmbp1 => cmbp1MsgFields
  | cbbo => cbboMsgFields
  | ohlcv => ohlcvMsgFields
  | status => statusMsgFields
  | imbalance => imbalanceMsgFields
  | versioned .instrumentDefV1 => instrumentDefMsgV1Fields
  | versioned .instrumentDefV2 => instrumentDefMsgV2Fields
  | versioned .instrumentDefV3 => instrumentDefMsgV3Fields
  | versioned .statV1 => statMsgV1Fields
  | versioned .statV3 => statMsgV3Fields
  | versioned .symbolMappingV1 => symbolMappingMsgV1Fields
  | versioned .symbolMappingV2 => symbolMappingMsgV2Fields
  | versioned .errorV1 => errorMsgV1Fields
  | versioned .errorV2 => errorMsgV2Fields
  | versioned .systemV1 => systemMsgV1Fields
  | versioned .systemV2 => systemMsgV2Fields

/-- `size_of`; no struct has padding. -/
def size (t : RecordType) : Nat :=
  (t.fields.map (fun f => f.ty.size)).sum

@[simp] theorem size_eq (t : RecordType) :
    t.size =
      match t with
      | mbo => 56
      | trade => 48
      | mbp1 => 80
      | mbp10 => 368
      | bbo => 80
      | cmbp1 => 80
      | cbbo => 80
      | ohlcv => 56
      | status => 40
      | imbalance => 112
      | versioned s => s.size := by
  cases t with
  | versioned s => cases s <;> rfl
  | _ => rfl

end RecordType

end Dbn
