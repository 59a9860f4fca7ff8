import Dbn.Lib.Days
import Dbn.Lib.HashTable
import Dbn.Metadata

/-!
# Symbol maps

The mappings of metadata as tables from instrument IDs to symbols: one with an
entry for each day of each interval, and one for a single date.
-/

namespace Dbn

open Lib

/-- The loop of `u32::from_str` over the digits. -/
def parseDigits (n : UInt32) : List UInt8 -> Option UInt32
  | [] => some n
  | b :: digits =>
      if 0x30 ≤ b ∧ b ≤ 0x39 ∧ n.toNat * 10 + (b - 0x30).toNat < 2 ^ 32 then
        parseDigits (n * 10 + (b - 0x30).toUInt32) digits
      else none

/-- `u32::from_str`, without the reason of an error. -/
def parseU32 : List UInt8 -> Option UInt32
  | [] => none
  | [0x2b] => none
  | 0x2b :: digits => parseDigits 0 digits
  | digits => parseDigits 0 digits

/-- `parse` with the error that the symbol maps make of it. -/
def parseInstrumentId (symbol : Str) : Except Error UInt32 :=
  match parseU32 symbol.bytes with
  | some iid => Except.ok iid
  | none => Except.error (Error.conversion symbol.display "u32")

variable {D : Type}

def isInverse (metadata : Metadata D) : Except Error Bool :=
  match metadata.stypeIn, metadata.stypeOut with
  | _, .instrumentId => Except.ok false
  | some .instrumentId, _ => Except.ok true
  | _, _ => Except.error (Error.badArgument "metadata"
      ("Can only create symbol maps from metadata where either stype_out " ++
        "or stype_in is instrument ID"))

/-!
## Timeseries
-/

abbrev TsSymbolMap (D : Type) [DecidableEq D] := HashMap (D × UInt32) Str

namespace TsSymbolMap

variable [LinearOrder D] [DayCalendar D]

/-- The loop of `insert` over the days. -/
def insertDays (self : TsSymbolMap D) (instrumentId : UInt32)
    (symbol : Str) (endDate : D) : Nat -> D -> Outcome (TsSymbolMap D)
  | 0, _ => .timeout
  | fuel + 1, day =>
      let table := AList.insert (day, instrumentId) symbol self
      match DayCalendar.nextDay day with
      | none => .panic .unwrapNone
      | some day =>
          if endDate ≤ day then .ret table
          else insertDays table instrumentId symbol endDate fuel day

def insert (self : TsSymbolMap D) (instrumentId : UInt32)
    (startDate endDate : D) (symbol : Str) :
    ExceptT Error Outcome (TsSymbolMap D) :=
  if startDate < endDate then
    ExceptT.lift (insertDays self instrumentId symbol endDate
      (daysBetween startDate endDate) startDate)
  else if startDate = endDate then
    -- shouldn't happen but better to just ignore
    pure self
  else throw (Error.badArgument "start_date"
    "start_date cannot come after end_date")

def get (self : TsSymbolMap D) (date : D) (instrumentId : UInt32) :
    Option Str :=
  self.lookup (date, instrumentId)

/-- A round of the loop over the intervals of a mapping. -/
def insertInverse (instrumentId : UInt32) (res : TsSymbolMap D)
    (interval : MappingInterval D) : ExceptT Error Outcome (TsSymbolMap D) :=
  if interval.symbol.bytes = [] then
    -- handle old symbology format
    pure res
  else
    res.insert instrumentId interval.startDate interval.endDate interval.symbol

def insertNormal (symbol : Str) (res : TsSymbolMap D)
    (interval : MappingInterval D) : ExceptT Error Outcome (TsSymbolMap D) :=
  if interval.symbol.bytes = [] then
    -- handle old symbology format
    pure res
  else do
    let instrumentId ← liftM (parseInstrumentId interval.symbol)
    res.insert instrumentId interval.startDate interval.endDate symbol

/-- A round of the loop over the mappings. -/
def addMapping (inverse : Bool) (res : TsSymbolMap D)
    (mapping : SymbolMapping D) : ExceptT Error Outcome (TsSymbolMap D) :=
  if inverse then do
    let instrumentId ← liftM (parseInstrumentId mapping.rawSymbol)
    mapping.intervals.foldlM (insertInverse instrumentId) res
  else mapping.intervals.foldlM (insertNormal mapping.rawSymbol) res

def fromMetadata (metadata : Metadata D) :
    ExceptT Error Outcome (TsSymbolMap D) := do
  let inverse ← liftM (isInverse metadata)
  metadata.mappings.foldlM (addMapping inverse) ∅

end TsSymbolMap

/-!
## Point in time
-/

abbrev PitSymbolMap := HashMap UInt32 Str

namespace PitSymbolMap

variable [LinearOrder D] [DayCalendar D]

def OutsideQueryRange (metadata : Metadata D) (date : D) : Prop :=
  date < DayCalendar.ofUnixNanos metadata.start.toNat ∨
    -- need to compare with `end` as a datetime to handle midnight case
    exists e, e ∈ metadata.endTs ∧
      DayCalendar.midnight date ≥ (e.val.toNat : Int)

instance (metadata : Metadata D) (date : D) :
    Decidable (OutsideQueryRange metadata date) :=
  inferInstanceAs (Decidable (_ ∨ _))

/-- A round of the loop over the mappings. -/
def addMapping (inverse : Bool) (date : D) (res : PitSymbolMap)
    (mapping : SymbolMapping D) : Except Error PitSymbolMap :=
  match mapping.intervals.find? (fun interval =>
      date ≥ interval.startDate ∧ date < interval.endDate) with
  | none => Except.ok res
  | some interval =>
      if interval.symbol.bytes = [] then
        -- handle old symbology format
        Except.ok res
      else if inverse then do
        let instrumentId ← parseInstrumentId mapping.rawSymbol
        Except.ok (AList.insert instrumentId interval.symbol res)
      else do
        let instrumentId ← parseInstrumentId interval.symbol
        Except.ok (AList.insert instrumentId mapping.rawSymbol res)

def fromMetadata (metadata : Metadata D) (date : D) :
    Except Error PitSymbolMap := do
  let inverse ← isInverse metadata
  if OutsideQueryRange metadata date then
    Except.error (Error.badArgument "date" "Outside the query range")
  else metadata.mappings.foldlM (addMapping inverse date) ∅

def get (self : PitSymbolMap) (instrumentId : UInt32) : Option Str :=
  self.lookup instrumentId

end PitSymbolMap

end Dbn
