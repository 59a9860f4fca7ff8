import Dbn.Lib.Date
import Dbn.Types

/-!
# Metadata

The header of a stream and its upgrade between versions.  Dates are a
parameter `D`.
-/

namespace Dbn

open Lib

/-- `NonZeroU64`. -/
abbrev NonZeroU64 := { n : UInt64 // n ≠ 0 }

/-- `NonZeroU64::new`. -/
def NonZeroU64.new (n : UInt64) : Option NonZeroU64 :=
  if h : n ≠ 0 then some ⟨n, h⟩ else none

theorem NonZeroU64.new_val (n : NonZeroU64) : NonZeroU64.new n.val = some n :=
  dif_pos n.property

/-- The resolved symbol for a date range. -/
structure MappingInterval (D : Type) where
  startDate : D
  endDate : D
  symbol : Str
deriving DecidableEq

/-- A raw symbol and its symbol mappings for different time ranges. -/
structure SymbolMapping (D : Type) where
  rawSymbol : Str
  intervals : List (MappingInterval D)
deriving DecidableEq

/-- Information about the data contained in a stream. -/
structure Metadata (D : Type) where
  version : Nat
  dataset : Str
  schema : Option Schema
  start : UInt64
  endTs : Option NonZeroU64
  limit : Option NonZeroU64
  stypeIn : Option SType
  stypeOut : SType
  tsOut : Bool
  symbolCstrLen : Nat
  symbols : List Str
  partialSymbols : List Str
  notFound : List Str
  mappings : List (SymbolMapping D)
deriving DecidableEq

namespace Metadata

variable {D : Type}

/-- Upgrades the metadata according to the policy if necessary. -/
def upgrade (m : Metadata D) (policy : VersionUpgradePolicy) : Metadata D :=
  if m.version < 2 then
    match policy with
    | .asIs => { m with symbolCstrLen := symbolCstrLenV1 }
    | .upgradeToV2 => { m with version := 2, symbolCstrLen := symbolCstrLenV2 }
    | .upgradeToV3 => { m with version := 3, symbolCstrLen := symbolCstrLenV3 }
  else if m.version = 2 ∧ policy = .upgradeToV3 then { m with version := 3 }
  else m

@[simp] theorem upgrade_tsOut (m : Metadata D)
    (policy : VersionUpgradePolicy) : (m.upgrade policy).tsOut = m.tsOut := by
  unfold upgrade
  split
  · cases policy <;> rfl
  · split <;> rfl

end Metadata

end Dbn
