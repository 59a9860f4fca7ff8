import Dbn.Lib.HashTable
import Dbn.Lib.HalfOpen
import Dbn.Metadata

/-!
# Merging metadata

The metadata of several streams is merged into one.  The intervals of a raw
symbol that is in both are merged with two pointers.
-/

namespace Dbn

open Lib

/-- The text of a value in a message, `{:?}`. -/
class DebugText (α : Type) where
  debug : α -> String

inductive IntervalOrdering where
  | less
  | overlap
  | equal
  | greater
deriving DecidableEq, Repr

namespace MappingInterval

variable {D : Type} [LinearOrder D] [DebugText D] [DebugText Str]

/-- The dates of an interval; the end date is exclusive. -/
def dates (i : MappingInterval D) : HalfOpen D :=
  ⟨i.startDate, i.endDate⟩

def debug (i : MappingInterval D) : String :=
  "MappingInterval \x7b start_date: " ++ DebugText.debug i.startDate ++
    ", end_date: " ++ DebugText.debug i.endDate ++ ", symbol: " ++
    DebugText.debug i.symbol ++ " \x7d"

def ordering (self other : MappingInterval D) :
    Except Error IntervalOrdering :=
  if self.startDate = other.startDate ∧ self.endDate = other.endDate then
    if self.symbol = other.symbol then Except.ok .equal
    else
      Except.error (Error.badArgument "mappings"
        ("conflicting intervals mapping to " ++ self.symbol.display ++
          " and " ++ other.symbol.display))
  else if self.endDate ≤ other.startDate then Except.ok .less
  else if self.startDate ≥ other.endDate then Except.ok .greater
  else if self.symbol = other.symbol then Except.ok .overlap
  else
    Except.error (Error.badArgument "mappings"
      ("invalid mapping interval " ++ self.debug ++ " " ++ other.debug))

def merge (self other : MappingInterval D) : MappingInterval D where
  startDate := min self.startDate other.startDate
  endDate := max self.endDate other.endDate
  symbol := self.symbol

end MappingInterval

structure MetadataMerger (D : Type) where
  version : Nat
  dataset : Str
  schema : Option Schema
  start : UInt64
  endTs : Option NonZeroU64
  limit : Option NonZeroU64
  stypeIn : Option SType
  stypeOut : SType
  tsOut : Bool
  symbolCstrLen : Nat
  symbols : List Str
  partialSymbols : List Str
  notFound : List Str
  mappings : HashMap Str (List (MappingInterval D))

/-- The later of two ends; `None` is less than any other value. -/
def maxEnd : Option NonZeroU64 -> Option NonZeroU64 -> Option NonZeroU64
  | none, b => b
  | a, none => a
  | some a, some b => some (if a.val ≤ b.val then b else a)

namespace MetadataMerger

variable {D : Type} [LinearOrder D] [DebugText D] [DebugText Str]

def new (original : Metadata D) : MetadataMerger D where
  version := original.version
  dataset := original.dataset
  schema := original.schema
  start := original.start
  endTs := original.endTs
  limit := original.limit
  stypeIn := original.stypeIn
  stypeOut := original.stypeOut
  tsOut := original.tsOut
  symbolCstrLen := original.symbolCstrLen
  symbols := HashSet.extend [] original.symbols
  partialSymbols := HashSet.extend [] original.partialSymbols
  notFound := HashSet.extend [] original.notFound
  mappings := HashMap.ofEntries
    (original.mappings.map (fun mapping =>
      (mapping.rawSymbol, mapping.intervals)))

def mergeIntervals : List (MappingInterval D) -> List (MappingInterval D) ->
    Except Error (List (MappingInterval D))
  | int :: origIntervals, otherInt :: addIntervals => do
      match ← int.ordering otherInt with
      | .less =>
          let merged ← mergeIntervals origIntervals (otherInt :: addIntervals)
          Except.ok (int :: merged)
      | .greater =>
          let merged ← mergeIntervals (int :: origIntervals) addIntervals
          Except.ok (otherInt :: merged)
      | .overlap =>
          let merged ← mergeIntervals origIntervals addIntervals
          Except.ok (int.merge otherInt :: merged)
      | .equal =>
          -- advance both
          let merged ← mergeIntervals origIntervals addIntervals
          Except.ok (int :: merged)
  | origIntervals, [] => Except.ok origIntervals
  | [], addIntervals => Except.ok addIntervals
termination_by orig add => orig.length + add.length

/-- A round of the loop over the mappings that are added. -/
def mergeMapping (mappings : HashMap Str (List (MappingInterval D)))
    (addMapping : SymbolMapping D) :
    Except Error (HashMap Str (List (MappingInterval D))) :=
  match mappings.lookup addMapping.rawSymbol with
  | none =>
      Except.ok (mappings.insert addMapping.rawSymbol addMapping.intervals)
  | some intervals => do
      let merged ← mergeIntervals intervals addMapping.intervals
      Except.ok (mappings.insert addMapping.rawSymbol merged)

def badArg (field : String) : Error :=
  Error.badArgument "additional"
    (field ++ " mismatch when attempting to merge Metadata objects")

def merge (self : MetadataMerger D) (additional : Metadata D) :
    Except Error (MetadataMerger D) :=
  if self.version ≠ additional.version then Except.error (badArg "version")
  else if self.dataset ≠ additional.dataset then
    Except.error (badArg "dataset")
  else if self.stypeIn ≠ additional.stypeIn then
    Except.error (badArg "stype_in")
  else if self.stypeOut ≠ additional.stypeOut then
    Except.error (badArg "stype_out")
  else if self.tsOut ≠ additional.tsOut then Except.error (badArg "ts_out")
  else if self.symbolCstrLen ≠ additional.symbolCstrLen then
    Except.error (badArg "symbol_cstr_len")
  else do
    let mappings ← additional.mappings.foldlM mergeMapping self.mappings
    Except.ok
      { self with
        schema := if self.schema ≠ additional.schema then none else self.schema
        start := min self.start additional.start
        endTs := maxEnd self.endTs additional.endTs
        -- limit loses meaning after merge
        limit := none
        symbols := HashSet.extend self.symbols additional.symbols
        partialSymbols :=
          HashSet.extend self.partialSymbols additional.partialSymbols
        notFound := HashSet.extend self.notFound additional.notFound
        mappings := mappings }

def finalize [HashOrder] (self : MetadataMerger D) : Metadata D where
  version := self.version
  dataset := self.dataset
  schema := self.schema
  start := self.start
  endTs := self.endTs
  limit := self.limit
  stypeIn := self.stypeIn
  stypeOut := self.stypeOut
  tsOut := self.tsOut
  symbolCstrLen := self.symbolCstrLen
  symbols := HashOrder.order self.symbols
  partialSymbols := HashOrder.order self.partialSymbols
  notFound := HashOrder.order self.notFound
  mappings := self.mappings.intoIter.map (fun e =>
    ⟨e.1, e.2⟩)

end MetadataMerger

/-- Attempts to merge other metadata into this one. -/
def Metadata.merge {D : Type} [LinearOrder D] [DebugText D] [DebugText Str]
    [HashOrder] (self : Metadata D) (other : List (Metadata D)) :
    Except Error (Metadata D) := do
  let merger ← other.foldlM MetadataMerger.merge (MetadataMerger.new self)
  Except.ok merger.finalize

end Dbn
