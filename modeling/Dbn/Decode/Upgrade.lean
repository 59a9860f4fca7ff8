import Dbn.Compat

/-!
# Upgrading records while decoding

Which conversion the decoder applies to a record, for a known input version
and by detection, and how the new record is put into the compatibility buffer.
-/

namespace Dbn
namespace DbnFsm

open Lib

/--
The result of upgrading a record: what was written to the front of the
compatibility buffer, and the record, `none` if there was not enough space.
-/
structure UpgradeResult where
  written : List UInt8
  record : Option RecordRef
deriving DecidableEq, Repr

/-- `upgrade_record::<T, U>` into `compatLen` bytes of space. -/
def upgradeRecordTo (c : Conversion) (tsOut : Bool) (compatLen : Nat)
    (input : RecordRef) : Except Panic UpgradeResult :=
  match input.get c.source tsOut with
  | Except.error p => Except.error p
  | Except.ok none => Except.error Panic.unwrapNone
  | Except.ok (some rec) =>
      let upgraded := c.upgraded tsOut rec
      if upgraded.length ≥ compatLen then Except.ok ⟨[], none⟩
      else Except.ok ⟨upgraded, some ⟨upgraded⟩⟩

/-- The conversion for a record of a known version. -/
def conversionFor (version : Nat) (policy : VersionUpgradePolicy)
    (rtype : UInt8) : Option Conversion :=
  if version = 1 ∧ policy = .upgradeToV2 ∧ rtype = Rtype.instrumentDef then
    some .instrumentDefV1ToV2
  else if version = 1 ∧ policy = .upgradeToV3 ∧
      rtype = Rtype.instrumentDef then
    some .instrumentDefV1ToV3
  else if (version = 1 ∨ version = 2) ∧ policy = .upgradeToV3 ∧
      rtype = Rtype.statistics then
    some .statV1ToV3
  else if version = 1 ∧ (policy = .upgradeToV2 ∨ policy = .upgradeToV3) ∧
      rtype = Rtype.symbolMapping then
    some .symbolMappingV1ToV2
  else if version = 1 ∧ (policy = .upgradeToV2 ∨ policy = .upgradeToV3) ∧
      rtype = Rtype.error then
    some .errorV1ToV2
  else if version = 1 ∧ (policy = .upgradeToV2 ∨ policy = .upgradeToV3) ∧
      rtype = Rtype.system then
    some .systemV1ToV2
  else if version = 2 ∧ policy = .upgradeToV3 ∧
      rtype = Rtype.instrumentDef then
    some .instrumentDefV2ToV3
  else none

def upgradeRecordWithVersion (version : Nat) (policy : VersionUpgradePolicy)
    (tsOut : Bool) (readBuffer : List UInt8) (compatLen : Nat) :
    Except Panic UpgradeResult :=
  match conversionFor version policy (rtypeOf readBuffer) with
  | some c => upgradeRecordTo c tsOut compatLen ⟨readBuffer⟩
  | none =>
      if version > dbnVersion then Except.error Panic.explicit
      else Except.ok ⟨[], some ⟨readBuffer⟩⟩

/--
The conversion for a record of unknown version, and the version that its size
reveals.
-/
def detectConversion (rtype : UInt8) (policy : VersionUpgradePolicy)
    (recSize : Nat) : Option (Conversion × Option Nat) :=
  if rtype = Rtype.instrumentDef ∧ policy = .upgradeToV2 ∧
      recSize < RecordStruct.instrumentDefV2.size then
    some (.instrumentDefV1ToV2, some 1)
  else if rtype = Rtype.instrumentDef ∧ policy = .upgradeToV3 ∧
      recSize < RecordStruct.instrumentDefV2.size then
    some (.instrumentDefV1ToV3, some 1)
  else if rtype = Rtype.instrumentDef ∧ policy = .upgradeToV3 ∧
      recSize < RecordStruct.instrumentDefV3.size then
    some (.instrumentDefV2ToV3, some 2)
  else if rtype = Rtype.statistics ∧ policy = .upgradeToV3 ∧
      recSize < RecordStruct.statV3.size then
    -- the input version could be 1 or 2, so it is not set
    some (.statV1ToV3, none)
  else if rtype = Rtype.symbolMapping ∧
      (policy = .upgradeToV2 ∨ policy = .upgradeToV3) ∧
      recSize < RecordStruct.symbolMappingV2.size then
    some (.symbolMappingV1ToV2, some 1)
  else if rtype = Rtype.error ∧
      (policy = .upgradeToV2 ∨ policy = .upgradeToV3) ∧
      recSize < RecordStruct.errorV2.size then
    some (.errorV1ToV2, some 1)
  else if rtype = Rtype.system ∧
      (policy = .upgradeToV2 ∨ policy = .upgradeToV3) ∧
      recSize < RecordStruct.systemV2.size then
    some (.systemV1ToV2, some 1)
  else none

def upgradeRecordDetectVersion (policy : VersionUpgradePolicy) (tsOut : Bool)
    (readBuffer : List UInt8) (compatLen : Nat) :
    Except Panic (Option Nat × UpgradeResult) :=
  match detectConversion (rtypeOf readBuffer) policy
      (recordSize readBuffer) with
  | some (c, version) =>
      (upgradeRecordTo c tsOut compatLen ⟨readBuffer⟩).map
        (fun res => (version, res))
  | none => Except.ok (none, ⟨[], some ⟨readBuffer⟩⟩)

/-- Returns the new input version with the result. -/
def upgradeRecord (inputDbnVersion : Option Nat)
    (policy : VersionUpgradePolicy) (tsOut : Bool) (readBuffer : List UInt8)
    (compatLen : Nat) : Except Panic (Option Nat × UpgradeResult) :=
  match inputDbnVersion with
  | some version =>
      (upgradeRecordWithVersion version policy tsOut readBuffer compatLen).map
        (fun res => (some version, res))
  | none => upgradeRecordDetectVersion policy tsOut readBuffer compatLen

/-!
## What an upgrade does

The conversion is chosen from the first two bytes of the record.  Given the
choice, a call can do four things: hand the record out as it is, panic on a
record that is too short for the struct, ask for more space, or write the new
record.
-/

/-- The conversion that is selected for a record, and the version after it. -/
def selectConversion (version : Option Nat) (policy : VersionUpgradePolicy)
    (rec : List UInt8) : Option Conversion × Option Nat :=
  match version with
  | some v => (conversionFor v policy (rtypeOf rec), some v)
  | none =>
      match detectConversion (rtypeOf rec) policy (recordSize rec) with
      | some (c, v) => (some c, v)
      | none => (none, none)

/-- The version is unknown or one that the decoder supports. -/
def SupportedVersion (version : Option Nat) : Prop :=
  forall v, version = some v -> v ≤ dbnVersion

/-- The size a record must have for a conversion. -/
def requiredSize (c : Conversion) (tsOut : Bool) : Nat :=
  c.source.size + tsOutLen tsOut

theorem conversionFor_rtype {version : Nat} {policy : VersionUpgradePolicy}
    {rtype : UInt8} {c : Conversion}
    (h : conversionFor version policy rtype = some c) :
    c.source.rtype = rtype := by
  unfold conversionFor at h
  split_ifs at h <;> cases h <;> grind [Conversion.source, RecordStruct.rtype]

theorem detectConversion_rtype {policy : VersionUpgradePolicy}
    {rtype : UInt8} {recSize : Nat} {c : Conversion} {v : Option Nat}
    (h : detectConversion rtype policy recSize = some (c, v)) :
    c.source.rtype = rtype := by
  unfold detectConversion at h
  split_ifs at h <;> cases h <;> grind [Conversion.source, RecordStruct.rtype]

theorem selectConversion_rtype {version : Option Nat}
    {policy : VersionUpgradePolicy} {rec : List UInt8} {c : Conversion}
    (h : (selectConversion version policy rec).1 = some c) :
    c.source.rtype = rtypeOf rec := by
  unfold selectConversion at h
  cases version with
  | some v => exact conversionFor_rtype h
  | none =>
      cases hdetect : detectConversion (rtypeOf rec) policy
          (recordSize rec) with
      | none =>
          rw [hdetect] at h
          cases h
      | some found =>
          rw [hdetect] at h
          cases h
          exact detectConversion_rtype hdetect

/-- Without a conversion nothing is learned about the version. -/
theorem selectConversion_version {version : Option Nat}
    {policy : VersionUpgradePolicy} {rec : List UInt8}
    (h : (selectConversion version policy rec).1 = none) :
    (selectConversion version policy rec).2 = version := by
  cases version with
  | some v => rfl
  | none =>
      simp only [selectConversion] at h ⊢
      cases hdetect : detectConversion (rtypeOf rec) policy
          (recordSize rec) with
      | none => rfl
      | some found =>
          rw [hdetect] at h
          cases h

/-- The version stays one that the decoder supports. -/
theorem supportedVersion_selectConversion {version : Option Nat}
    (h : SupportedVersion version) (policy : VersionUpgradePolicy)
    (rec : List UInt8) :
    SupportedVersion (selectConversion version policy rec).2 := by
  unfold selectConversion
  cases version with
  | some v => exact h
  | none =>
      unfold detectConversion SupportedVersion dbnVersion
      split_ifs <;> simp

/-- The selection reads only the header. -/
theorem selectConversion_append {a b : List UInt8} (h : 2 ≤ a.length)
    (version : Option Nat) (policy : VersionUpgradePolicy) :
    selectConversion version policy (a ++ b) =
      selectConversion version policy a := by
  have hne : a ≠ [] := by
    intro hnil
    simp [hnil] at h
  unfold selectConversion
  rw [rtypeOf_append h, recordSize_append hne]

/-- What a call for a selected conversion does. -/
theorem upgradeRecordTo_eq {c : Conversion} {tsOut : Bool} {compatLen : Nat}
    {rec : List UInt8} (h : c.source.rtype = rtypeOf rec) :
    upgradeRecordTo c tsOut compatLen ⟨rec⟩ =
      if recordSize rec < requiredSize c tsOut then
        Except.error Panic.assertion
      else
        let image := c.upgraded tsOut (rec.take (requiredSize c tsOut))
        if c.target.size + tsOutLen tsOut ≥ compatLen then
          Except.ok ⟨[], none⟩
        else Except.ok ⟨image, some ⟨image⟩⟩ := by
  unfold upgradeRecordTo RecordRef.get
  simp only [h, if_true, ge_iff_le]
  by_cases hsize : recordSize rec < requiredSize c tsOut
  · rw [if_pos hsize, if_neg (by simpa [requiredSize] using hsize)]
  · rw [if_neg hsize, if_pos (by simpa [requiredSize] using hsize)]
    simp only [Conversion.length_upgraded, requiredSize]

/-- What a call does, for a supported version. -/
theorem upgradeRecord_eq {version : Option Nat} (h : SupportedVersion version)
    (policy : VersionUpgradePolicy) (tsOut : Bool) (rec : List UInt8)
    (compatLen : Nat) :
    upgradeRecord version policy tsOut rec compatLen =
      match (selectConversion version policy rec).1 with
      | none => Except.ok (version, ⟨[], some ⟨rec⟩⟩)
      | some c =>
          (upgradeRecordTo c tsOut compatLen ⟨rec⟩).map
            (fun res => ((selectConversion version policy rec).2, res)) := by
  cases version with
  | some v =>
      have hv : ¬ v > dbnVersion := by
        have := h v rfl
        omega
      simp only [upgradeRecord, upgradeRecordWithVersion, selectConversion]
      cases conversionFor v policy (rtypeOf rec) with
      | none =>
          rw [if_neg hv]
          rfl
      | some c => rfl
  | none =>
      simp only [upgradeRecord, upgradeRecordDetectVersion, selectConversion]
      cases detectConversion (rtypeOf rec) policy (recordSize rec) with
      | none => rfl
      | some found => rfl

end DbnFsm
end Dbn
