import Dbn.Decode.Process

/-!
# Streams of well-formed records

In a stream of records of a known version, each with the size of the struct
that it is upgraded from, a call of `process` hands out the image of the next
record as soon as all of it is buffered, and asks for more before.
-/

namespace Dbn
namespace DbnFsm

open Lib

variable {B D : Type} [Buffer B] [CalendarDate D]

section Records

variable (version : Nat) (policy : VersionUpgradePolicy) (tsOut : Bool)

/--
A record of a stream: its header has its size, and a record of a type that is
upgraded has the size of its struct.
-/
structure WellFormedRecord (rec : List UInt8) : Prop where
  size : recordSize rec = rec.length
  header : headerLen ≤ rec.length
  structSize : forall c, c ∈ conversionFor version policy (rtypeOf rec) ->
    rec.length = requiredSize c tsOut

instance (rec : List UInt8) :
    Decidable (WellFormedRecord version policy tsOut rec) :=
  decidable_of_iff
    (recordSize rec = rec.length ∧ headerLen ≤ rec.length ∧
      forall c, c ∈ conversionFor version policy (rtypeOf rec) ->
        rec.length = requiredSize c tsOut)
    ⟨fun h => ⟨h.1, h.2.1, h.2.2⟩, fun h => ⟨h.size, h.header, h.structSize⟩⟩

/-- The record as it is handed out. -/
def upgradedImage (rec : List UInt8) : List UInt8 :=
  match conversionFor version policy (rtypeOf rec) with
  | none => rec
  | some c => c.upgraded tsOut rec

end Records

/-- The start of a record, possibly empty. -/
def PartialRecord (bytes : List UInt8) : Prop :=
  bytes.length < headerLen ∨ bytes.length < recordSize bytes

instance (bytes : List UInt8) : Decidable (PartialRecord bytes) :=
  inferInstanceAs (Decidable (_ ∨ _))

variable {version : Nat} {policy : VersionUpgradePolicy} {tsOut : Bool}
  {rec bytes rest : List UInt8}

theorem upgradedImage_asIs (version : Nat) (tsOut : Bool) (rec : List UInt8) :
    upgradedImage version .asIs tsOut rec = rec := by
  simp [upgradedImage, conversionFor]

/-- A record for which the right conversion is selected. -/
theorem next_of_selectConversion {known : Option Nat}
    (h : WellFormedRecord version policy tsOut rec)
    (hselect : (selectConversion known policy rec).1 =
      conversionFor version policy (rtypeOf rec)) :
    next policy tsOut known (rec ++ rest) =
      .record (upgradedImage version policy tsOut rec)
        (selectConversion known policy rec).2 := by
  have hheader := h.header
  rw [headerLen_eq] at hheader
  have hne : rec ≠ [] := by
    rintro rfl
    simp at hheader
  have hsize : recordSize (rec ++ rest) = rec.length := by
    rw [recordSize_append hne, h.size]
  have hcomplete : CompleteRecord (rec ++ rest) := by
    constructor
    · rw [hsize]
      exact hheader
    · rw [hsize, List.length_append]
      omega
  rw [next_of_complete hcomplete]
  unfold nextImage upgradedImage
  rw [selectConversion_append (by omega)]
  rcases hpair : selectConversion known policy rec with ⟨c, v⟩
  rw [hpair] at hselect
  dsimp only at hselect
  rw [← hselect]
  cases c with
  | none =>
      dsimp only
      rw [hsize, List.take_left]
  | some c =>
      have hstruct := h.structSize c hselect.symm
      dsimp only
      rw [hsize, ← hstruct, if_neg (Nat.lt_irrefl _), List.take_left]

theorem next_wellFormedRecord
    (h : WellFormedRecord version policy tsOut rec) :
    next policy tsOut (some version) (rec ++ rest) =
      .record (upgradedImage version policy tsOut rec) (some version) :=
  next_of_selectConversion h rfl

theorem next_partialRecord (policy : VersionUpgradePolicy) (tsOut : Bool)
    (version : Option Nat) (h : PartialRecord bytes) :
    exists n, next policy tsOut version bytes = .needMore n ∧ 0 < n ∧
      n + bytes.length ≤ max headerLen (recordSize bytes) := by
  unfold next
  by_cases hshort : bytes.length < headerLen
  · rw [if_pos hshort]
    exact ⟨_, rfl, by omega, by omega⟩
  · have hsize : bytes.length < recordSize bytes := by
      rcases h with hlt | hlt
      · exact absurd hlt hshort
      · exact hlt
    rw [if_neg hshort, if_neg (by omega), if_pos hsize]
    exact ⟨_, rfl, by omega, by omega⟩

theorem partialRecord_take (h : PartialRecord bytes) (n : Nat) :
    PartialRecord (bytes.take n) := by
  unfold PartialRecord
  rw [List.length_take]
  cases n with
  | zero => exact Or.inl (by simp)
  | succ n =>
      rw [recordSize_take (Nat.succ_pos n)]
      unfold PartialRecord at h
      omega

theorem partialRecord_of_prefix (hpiece : bytes <+: rec ++ rest)
    (hsize : recordSize rec = rec.length) (hlt : bytes.length < rec.length) :
    PartialRecord bytes := by
  cases bytes with
  | nil => exact Or.inl (by simp)
  | cons b tail =>
      obtain ⟨more, hmore⟩ := hpiece
      have hne : rec ≠ [] := by
        rintro rfl
        simp at hlt
      refine Or.inr ?_
      rw [← recordSize_append (b := more) (List.cons_ne_nil b tail), hmore,
        recordSize_append hne, hsize]
      exact hlt

/-- A version that is known stays. -/
theorem version_of_next {image : List UInt8} {version' : Option Nat}
    (h : next policy tsOut (some version) bytes = .record image version') :
    version' = some version := by
  rw [next_of_complete (complete_of_next_record h)] at h
  have hselect : selectConversion (some version) policy bytes =
      (conversionFor version policy (rtypeOf bytes), some version) := rfl
  unfold nextImage at h
  rw [hselect] at h
  cases hconversion : conversionFor version policy (rtypeOf bytes) with
  | none =>
      rw [hconversion] at h
      cases h
      rfl
  | some c =>
      rw [hconversion] at h
      dsimp only at h
      split_ifs at h
      cases h
      rfl

/-- Complete records and records with an invalid length are no parts. -/
theorem partialRecord_iff (policy : VersionUpgradePolicy) (tsOut : Bool)
    (version : Option Nat) : PartialRecord bytes <->
      exists n, next policy tsOut version bytes = .needMore n := by
  constructor
  · intro h
    rcases next_partialRecord policy tsOut version h with ⟨n, hn, _⟩
    exact ⟨n, hn⟩
  · intro h
    rcases h with ⟨n, hn⟩
    have hlength := length_of_next_needMore hn
    have hpos : 0 < n := by
      unfold next at hn
      split_ifs at hn <;> grind [nextImage_cases]
    unfold PartialRecord
    split at hlength
    · exact Or.inl ‹_›
    · exact Or.inr (by omega)

/-- What comes next is decided as soon as it is no part of a record. -/
theorem next_append (policy : VersionUpgradePolicy) (tsOut : Bool)
    (version : Option Nat) (h : ¬ PartialRecord bytes) (rest : List UInt8) :
    next policy tsOut version (bytes ++ rest) =
        next policy tsOut version bytes ∧
      recordSize (bytes ++ rest) = recordSize bytes := by
  unfold PartialRecord at h
  rw [not_or, Nat.not_lt, Nat.not_lt, headerLen_eq] at h
  have hne : bytes ≠ [] := by
    rintro rfl
    simp at h
  have hsize : recordSize (bytes ++ rest) = recordSize bytes :=
    recordSize_append hne
  refine ⟨?_, hsize⟩
  by_cases hheader : headerLen ≤ recordSize bytes
  · have hcomplete : CompleteRecord bytes := ⟨hheader, h.2⟩
    have hcomplete' : CompleteRecord (bytes ++ rest) := by
      constructor
      · rw [hsize]
        exact hheader
      · rw [hsize, List.length_append]
        omega
    rw [next_of_complete hcomplete, next_of_complete hcomplete']
    unfold nextImage
    rw [hsize, selectConversion_append (by omega)]
    split
    · rw [List.take_append_of_le_length h.2]
    · next c v _ =>
      by_cases hroom : recordSize bytes < requiredSize c tsOut
      · rw [if_pos hroom, if_pos hroom]
      · rw [if_neg hroom, if_neg hroom,
          List.take_append_of_le_length (by omega)]
  · unfold next
    rw [headerLen_eq] at hheader
    rw [hsize, List.length_append, headerLen_eq,
      if_neg (show ¬ bytes.length + rest.length < 16 by omega),
      if_neg (show ¬ bytes.length < 16 by omega),
      if_pos (show recordSize bytes < 16 by omega),
      if_pos (show recordSize bytes < 16 by omega)]

/-!
## Records of a version
-/

/-- The struct of a record type in a version, for the versioned types. -/
def structFor (version : Nat) (rtype : UInt8) : Option RecordStruct :=
  if rtype = Rtype.instrumentDef then
    some (if version = 1 then .instrumentDefV1
      else if version = 2 then .instrumentDefV2 else .instrumentDefV3)
  else if rtype = Rtype.statistics then
    some (if version ≤ 2 then .statV1 else .statV3)
  else if rtype = Rtype.symbolMapping then
    some (if version = 1 then .symbolMappingV1 else .symbolMappingV2)
  else if rtype = Rtype.error then
    some (if version = 1 then .errorV1 else .errorV2)
  else if rtype = Rtype.system then
    some (if version = 1 then .systemV1 else .systemV2)
  else none

/--
A record of a version: its header has its size, which is that of its struct
and of the send timestamp.
-/
structure VersionRecord (version : Nat) (tsOut : Bool) (rec : List UInt8) :
    Prop where
  size : recordSize rec = rec.length
  header : headerLen ≤ rec.length
  structSize : forall s, s ∈ structFor version (rtypeOf rec) ->
    rec.length = s.size + tsOutLen tsOut

instance (version : Nat) (tsOut : Bool) (rec : List UInt8) :
    Decidable (VersionRecord version tsOut rec) :=
  decidable_of_iff
    (recordSize rec = rec.length ∧ headerLen ≤ rec.length ∧
      forall s, s ∈ structFor version (rtypeOf rec) ->
        rec.length = s.size + tsOutLen tsOut)
    ⟨fun h => ⟨h.1, h.2.1, h.2.2⟩, fun h => ⟨h.size, h.header, h.structSize⟩⟩

/-- Only the structs of the version are converted. -/
theorem structFor_of_conversionFor {rtype : UInt8} {c : Conversion}
    (h : conversionFor version policy rtype = some c) :
    structFor version rtype = some c.source := by
  unfold conversionFor at h
  unfold structFor
  split_ifs at h <;> cases h <;>
    grind [Conversion.source, Rtype.instrumentDef, Rtype.error, Rtype.system,
      Rtype.symbolMapping, Rtype.statistics]

theorem VersionRecord.wellFormed (h : VersionRecord version tsOut rec)
    (policy : VersionUpgradePolicy) :
    WellFormedRecord version policy tsOut rec where
  size := h.size
  header := h.header
  structSize := by
    intro c hc
    exact h.structSize c.source (structFor_of_conversionFor hc)

/-- A version 1 system message with a heartbeat. -/
def heartbeatV1 : List UInt8 :=
  [20, 0x17] ++ List.replicate 14 0 ++ asciiBytes "Heartbeat" ++
    List.replicate 55 0

/-!
## Calls
-/

/-- A machine in the record phase, with its unprocessed data. -/
structure InRecords (version : Nat) (policy : VersionUpgradePolicy)
    (tsOut : Bool) (bytes : List UInt8) (fsm : DbnFsm B) : Prop where
  recordPhase : fsm.RecordPhase
  inv : fsm.Inv
  inputDbnVersion : fsm.inputDbnVersion = some version
  upgradePolicy : fsm.upgradePolicy = policy
  tsOut : fsm.tsOut = tsOut
  data : fsm.data = bytes

variable {fsm fsm' : DbnFsm B}

theorem InRecords.of_appends {chunk : List UInt8}
    (h : InRecords version policy tsOut bytes fsm)
    (happ : fsm.Appends chunk fsm') :
    InRecords version policy tsOut (bytes ++ chunk) fsm' where
  recordPhase := happ.recordPhase.mpr h.recordPhase
  inv := happ.inv
  inputDbnVersion := happ.inputDbnVersion.trans h.inputDbnVersion
  upgradePolicy := happ.upgradePolicy.trans h.upgradePolicy
  tsOut := happ.tsOut.trans h.tsOut
  data := by rw [happ.data, h.data]

theorem InRecords.nextItem_eq (h : InRecords version policy tsOut bytes fsm) :
    fsm.nextItem = next policy tsOut (some version) bytes := by
  unfold nextItem
  rw [h.upgradePolicy, h.tsOut, h.inputDbnVersion, h.data]

variable [LawfulBuffer B]

theorem InRecords.settle (h : InRecords version policy tsOut bytes fsm) :
    InRecords version policy tsOut bytes fsm.settle := by
  have hsettle := h.of_appends (appends_settle h.inv)
  rwa [List.append_nil] at hsettle

/-- The item that comes next is handed out, and the version stays known. -/
theorem InRecords.process_image {image : List UInt8} {version' : Option Nat}
    (h : InRecords version policy tsOut bytes fsm)
    (hnext : next policy tsOut (some version) bytes = .record image version') :
    exists fsm', fsm.process (D := D) = .ret (.record (), fsm') ∧
      fsm'.lastBytes = some image ∧
      InRecords version policy tsOut (bytes.drop (recordSize bytes)) fsm' ∧
      fsm'.buffer = fsm.settle.buffer ∧ fsm'.state ≠ .record := by
  have hversion := version_of_next hnext
  rw [hversion] at hnext
  have hitem := h.nextItem_eq
  rw [hnext] at hitem
  have hbuffer := data_buffer_settle h.recordPhase
  have hsettled : next fsm.settle.upgradePolicy fsm.settle.tsOut
      fsm.settle.inputDbnVersion (Buffer.data fsm.settle.buffer) =
      .record image (some version) := by
    rw [hbuffer, settle_upgradePolicy, settle_tsOut, settle_inputDbnVersion]
    exact hitem
  obtain ⟨fsm', hret, hout⟩ :=
    DbnFsm.process_record (D := D) h.inv h.recordPhase hitem
  refine ⟨fsm', hret, hout.lastBytes_eq hsettled, ?_, hout.buffer,
    by rw [hout.state]; simp⟩
  exact
    { recordPhase := hout.recordPhase
      inv := hout.inv (complete_of_next_record hsettled) (by
        have hversion := h.inv.supportedVersion h.recordPhase
        rwa [h.inputDbnVersion] at hversion)
      inputDbnVersion := hout.version
      upgradePolicy := by
        rw [hout.upgradePolicy, settle_upgradePolicy, h.upgradePolicy]
      tsOut := by rw [hout.tsOut, settle_tsOut, h.tsOut]
      data := by
        rw [hout.data_eq (state_settle h.recordPhase), data_settle, h.data] }

/-- A complete record is handed out. -/
theorem InRecords.process_record
    (h : InRecords version policy tsOut (rec ++ rest) fsm)
    (hrec : WellFormedRecord version policy tsOut rec) :
    exists fsm', fsm.process (D := D) = .ret (.record (), fsm') ∧
      fsm'.lastBytes = some (upgradedImage version policy tsOut rec) ∧
      InRecords version policy tsOut rest fsm' ∧
      fsm'.buffer = fsm.settle.buffer ∧ fsm'.state ≠ .record := by
  have hheader := hrec.header
  rw [headerLen_eq] at hheader
  have hne : rec ≠ [] := by
    rintro rfl
    simp at hheader
  have himage := h.process_image (D := D) (next_wellFormedRecord hrec)
  rwa [recordSize_append hne, hrec.size, List.drop_left] at himage

/-- A part of a record is waited for. -/
theorem InRecords.process_partial
    (h : InRecords version policy tsOut bytes fsm)
    (hpart : PartialRecord bytes) :
    exists n, fsm.process (D := D) = .ret (.readMore n, fsm.settle) ∧ 0 < n ∧
      n + bytes.length ≤ max headerLen (recordSize bytes) := by
  obtain ⟨n, hnext, hbound⟩ :=
    next_partialRecord policy tsOut (some version) hpart
  rw [← h.nextItem_eq] at hnext
  exact ⟨n, process_needMore h.recordPhase hnext, hbound⟩

end DbnFsm
end Dbn
