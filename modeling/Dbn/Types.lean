import Dbn.Lib.Io
import Dbn.Lib.Outcome
import Dbn.Lib.Utf8

/-!
# Basic types of the encoding

Constants, enumerations and errors shared by the encoders and decoders.
-/

namespace Dbn

open Lib

/-- The current version of the encoding. -/
def dbnVersion : Nat := 3

def metadataDatasetCstrLen : Nat := 16
def metadataReservedLen : Nat := 53
def metadataReservedLenV1 : Nat := 47
/-- Excludes magic string, version, and length. -/
def metadataFixedLen : Nat := 100
def symbolCstrLenV1 : Nat := 22
def symbolCstrLenV2 : Nat := 71
def symbolCstrLenV3 : Nat := symbolCstrLenV2
def nullLimit : Nat := 0
def nullRecordCount : Nat := 2 ^ 64 - 1
def nullSchema : Nat := 2 ^ 16 - 1
def nullStype : Nat := 2 ^ 8 - 1
def undefTimestamp : Nat := 2 ^ 64 - 1

/-- The magic string `b"DBN"`. -/
def dbnPrefix : List UInt8 := asciiBytes "DBN"

/-!
## Errors
-/

/-- `dbn::Error`. -/
inductive Error where
  | io (source : IoErrorKind) (context : String)
  | decode (msg : String)
  | encode (msg : String)
  | conversion (input desiredType : String)
  | utf8 (source : Utf8Error) (context : String)
  | badArgument (paramName desc : String)
deriving DecidableEq, Repr

/-- `crate::Result`, with the panic outcome. -/
abbrev Result (α : Type) := Res Error α

/-!
## Upgrade policies
-/

inductive VersionUpgradePolicy where
  | asIs
  | upgradeToV2
  | upgradeToV3
deriving DecidableEq, Repr

namespace VersionUpgradePolicy

instance : Inhabited VersionUpgradePolicy := ⟨upgradeToV3⟩

def validateCompatibility (policy : VersionUpgradePolicy) (version : Nat) :
    Result Unit :=
  if version > 2 ∧ policy = upgradeToV2 then
    Res.err (Error.decode ("Invalid combination of " ++
      "`VersionUpgradePolicy::UpgradeToV2` and input version 3. Choose " ++
      "either `AsIs` and `UpgradeToV3` as an upgrade policy"))
  else Res.ok ()

def isUpgradeSituation (policy : VersionUpgradePolicy) (version : Nat) : Bool :=
  match policy with
  | asIs => false
  | upgradeToV2 => version < 2
  | upgradeToV3 => version < 3

def outputVersion (policy : VersionUpgradePolicy) (inputVersion : Nat) : Nat :=
  match policy with
  | asIs => inputVersion
  | upgradeToV2 => 2
  | upgradeToV3 => 3

/-- The policy accepts streams of the version. -/
def Compatible (policy : VersionUpgradePolicy) (version : Nat) : Prop :=
  ¬ (version > 2 ∧ policy = upgradeToV2)

instance (policy : VersionUpgradePolicy) (version : Nat) :
    Decidable (policy.Compatible version) :=
  inferInstanceAs (Decidable (¬ _))

theorem validateCompatibility_of_compatible {policy : VersionUpgradePolicy}
    {version : Nat} (h : policy.Compatible version) :
    policy.validateCompatibility version = Res.ok () := if_neg h

theorem validateCompatibility_of_not_compatible
    {policy : VersionUpgradePolicy} {version : Nat}
    (h : ¬ policy.Compatible version) :
    (policy.validateCompatibility version).IsErr := by
  unfold Compatible at h
  rw [validateCompatibility, if_pos (not_not.mp h)]
  exact Res.err_isErr _

end VersionUpgradePolicy

/-!
## Schemas and symbology types
-/

inductive Schema where
  | mbo | mbp1 | mbp10 | tbbo | trades | ohlcv1S | ohlcv1M | ohlcv1H | ohlcv1D
  | definition | statistics | status | imbalance | ohlcvEod | cmbp1 | cbbo1S
  | cbbo1M | tcbbo | bbo1S | bbo1M
deriving DecidableEq, Repr

namespace Schema

/-- `schema as u16`. -/
def toNat : Schema -> Nat
  | mbo => 0 | mbp1 => 1 | mbp10 => 2 | tbbo => 3 | trades => 4
  | ohlcv1S => 5 | ohlcv1M => 6 | ohlcv1H => 7 | ohlcv1D => 8
  | definition => 9 | statistics => 10 | status => 11 | imbalance => 12
  | ohlcvEod => 13 | cmbp1 => 14 | cbbo1S => 15 | cbbo1M => 16
  | tcbbo => 17 | bbo1S => 18 | bbo1M => 19

def tryFrom : Nat -> Option Schema
  | 0 => some mbo | 1 => some mbp1 | 2 => some mbp10 | 3 => some tbbo
  | 4 => some trades | 5 => some ohlcv1S | 6 => some ohlcv1M
  | 7 => some ohlcv1H | 8 => some ohlcv1D | 9 => some definition
  | 10 => some statistics | 11 => some status | 12 => some imbalance
  | 13 => some ohlcvEod | 14 => some cmbp1 | 15 => some cbbo1S
  | 16 => some cbbo1M | 17 => some tcbbo | 18 => some bbo1S
  | 19 => some bbo1M | _ => none

theorem tryFrom_toNat (s : Schema) : tryFrom s.toNat = some s := by
  cases s <;> rfl

theorem toNat_lt (s : Schema) : s.toNat < 20 := by
  cases s <;> decide

end Schema

inductive SType where
  | instrumentId | rawSymbol | smart | continuous | parent | nasdaqSymbol
  | cmsSymbol | isin | usCode | bbgCompId | bbgCompTicker | figi | figiTicker
deriving DecidableEq, Repr

namespace SType

/-- `stype as u8`. -/
def toNat : SType -> Nat
  | instrumentId => 0 | rawSymbol => 1 | smart => 2 | continuous => 3
  | parent => 4 | nasdaqSymbol => 5 | cmsSymbol => 6 | isin => 7
  | usCode => 8 | bbgCompId => 9 | bbgCompTicker => 10 | figi => 11
  | figiTicker => 12

def tryFrom : Nat -> Option SType
  | 0 => some instrumentId | 1 => some rawSymbol | 2 => some smart
  | 3 => some continuous | 4 => some parent | 5 => some nasdaqSymbol
  | 6 => some cmsSymbol | 7 => some isin | 8 => some usCode
  | 9 => some bbgCompId | 10 => some bbgCompTicker | 11 => some figi
  | 12 => some figiTicker | _ => none

theorem tryFrom_toNat (s : SType) : tryFrom s.toNat = some s := by
  cases s <;> rfl

theorem toNat_lt (s : SType) : s.toNat < 13 := by
  cases s <;> decide

end SType

/-!
## Record types
-/

namespace Rtype

def instrumentDef : UInt8 := 0x13
def error : UInt8 := 0x15
def symbolMapping : UInt8 := 0x16
def system : UInt8 := 0x17
def statistics : UInt8 := 0x18

end Rtype

end Dbn
