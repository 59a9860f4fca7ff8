import Dbn.Decode.BulkAgreement
import Dbn.Decode.StreamRoundTrip

/-!
# Detection of the version

Without metadata and without a version of the input the machine infers the
version from the sizes of records.  For records of one version it converts
each record as it would with that version, and it infers no other one.
-/

namespace Dbn
namespace DbnFsm

open Lib

variable {B D : Type} [Buffer B] [CalendarDate D]

variable {version : Nat} {policy : VersionUpgradePolicy} {tsOut : Bool}
  {rec bytes rest : List UInt8}

/-- The version is not known yet or is the one of the stream. -/
def NoneOr (version : Nat) (known : Option Nat) : Prop :=
  known = none ∨ known = some version

instance (version : Nat) (known : Option Nat) :
    Decidable (NoneOr version known) :=
  inferInstanceAs (Decidable (_ ∨ _))

/-- What is detected from the type and the size of a record is right. -/
def DetectsRight (version : Nat) (policy : VersionUpgradePolicy)
    (rtype : UInt8) (recSize : Nat) : Prop :=
  (detectConversion rtype policy recSize).map Prod.fst =
      conversionFor version policy rtype ∧
    NoneOr version ((detectConversion rtype policy recSize).bind Prod.snd)

instance (version : Nat) (policy : VersionUpgradePolicy) (rtype : UInt8)
    (recSize : Nat) : Decidable (DetectsRight version policy rtype recSize) :=
  inferInstanceAs (Decidable (_ ∧ _))

/-- The records whose structs differ between the versions. -/
theorem structFor_eq_none_iff {rtype : UInt8} :
    structFor version rtype = none <->
      rtype ≠ Rtype.instrumentDef ∧ rtype ≠ Rtype.statistics ∧
        rtype ≠ Rtype.symbolMapping ∧ rtype ≠ Rtype.error ∧
        rtype ≠ Rtype.system := by
  constructor
  · intro hstruct
    refine ⟨?_, ?_, ?_, ?_, ?_⟩ <;> rintro rfl <;> cases hstruct
  · rintro ⟨hdefinition, hstat, hmapping, herror, hsystem⟩
    unfold structFor
    rw [if_neg hdefinition, if_neg hstat, if_neg hmapping, if_neg herror,
      if_neg hsystem]

/-- The sizes of the structs tell the versions apart, with `ts_out` as well. -/
theorem detectsRight_of_struct (hversion : 1 ≤ version)
    (hversion' : version ≤ dbnVersion) {rtype : UInt8} {s : RecordStruct}
    (hstruct : structFor version rtype = some s) :
    DetectsRight version policy rtype (s.size + tsOutLen tsOut) := by
  unfold dbnVersion at hversion'
  have hrtype : rtype = Rtype.instrumentDef ∨ rtype = Rtype.statistics ∨
      rtype = Rtype.symbolMapping ∨ rtype = Rtype.error ∨
      rtype = Rtype.system := by
    by_contra hnot
    simp only [not_or] at hnot
    rw [structFor_eq_none_iff.mpr hnot] at hstruct
    cases hstruct
  have hcases : version = 1 ∨ version = 2 ∨ version = 3 := by omega
  rcases hrtype with rfl | rfl | rfl | rfl | rfl <;>
    rcases hcases with rfl | rfl | rfl <;> cases hstruct <;>
    cases policy <;> cases tsOut <;> decide

theorem detectsRight_of_no_struct {rtype : UInt8} (recSize : Nat)
    (hstruct : structFor version rtype = none) :
    DetectsRight version policy rtype recSize := by
  have hconversion : conversionFor version policy rtype = none := by
    cases hfor : conversionFor version policy rtype with
    | none => rfl
    | some c =>
        rw [structFor_of_conversionFor hfor] at hstruct
        cases hstruct
  have hdetect : detectConversion rtype policy recSize = none := by
    rcases structFor_eq_none_iff.mp hstruct with
      ⟨hdefinition, hstat, hmapping, herror, hsystem⟩
    unfold detectConversion
    rw [if_neg (fun h => hdefinition h.1), if_neg (fun h => hdefinition h.1),
      if_neg (fun h => hdefinition h.1), if_neg (fun h => hstat h.1),
      if_neg (fun h => hmapping h.1), if_neg (fun h => herror h.1),
      if_neg (fun h => hsystem h.1)]
  unfold DetectsRight
  rw [hconversion, hdetect]
  exact ⟨rfl, Or.inl rfl⟩

/-- The conversion for a record of a version is found from its size. -/
theorem VersionRecord.detectsRight (hversion : 1 ≤ version)
    (hversion' : version ≤ dbnVersion)
    (h : VersionRecord version tsOut rec) (policy : VersionUpgradePolicy) :
    DetectsRight version policy (rtypeOf rec) (recordSize rec) := by
  cases hstruct : structFor version (rtypeOf rec) with
  | none => exact detectsRight_of_no_struct _ hstruct
  | some s =>
      rw [h.size, h.structSize s hstruct]
      exact detectsRight_of_struct hversion hversion' hstruct

/-- A record is delivered the same, whether the version is known or not. -/
theorem VersionRecord.next (hversion : 1 ≤ version)
    (hversion' : version ≤ dbnVersion)
    (h : VersionRecord version tsOut rec) (policy : VersionUpgradePolicy)
    {known : Option Nat} (hknown : NoneOr version known)
    (rest : List UInt8) :
    exists known', NoneOr version known' ∧
      next policy tsOut known (rec ++ rest) =
        .record (upgradedImage version policy tsOut rec) known' := by
  have hwell := h.wellFormed policy
  rcases hknown with hnone | hsome
  · rw [hnone]
    rcases h.detectsRight hversion hversion' policy with ⟨hfst, hsnd⟩
    have hselect : selectConversion none policy rec =
        ((detectConversion (rtypeOf rec) policy (recordSize rec)).map Prod.fst,
          (detectConversion (rtypeOf rec) policy (recordSize rec)).bind
            Prod.snd) := by
      unfold selectConversion
      cases detectConversion (rtypeOf rec) policy (recordSize rec) with
      | none => rfl
      | some found => rfl
    refine ⟨_, ?_, next_of_selectConversion hwell ?_⟩
    · rw [hselect]
      exact hsnd
    · rw [hselect]
      exact hfst
  · rw [hsome]
    exact ⟨some version, Or.inr rfl, next_wellFormedRecord hwell⟩

/-!
## Machines
-/

/-- A machine in the record phase of a stream of a version. -/
structure Detecting (version : Nat) (policy : VersionUpgradePolicy)
    (tsOut : Bool) (bytes : List UInt8) (fsm : DbnFsm B) : Prop where
  recordPhase : fsm.RecordPhase
  inv : fsm.Inv
  known : NoneOr version fsm.inputDbnVersion
  upgradePolicy : fsm.upgradePolicy = policy
  tsOut : fsm.tsOut = tsOut
  data : fsm.data = bytes

theorem Detecting.of_appends {chunk : List UInt8} {fsm fsm' : DbnFsm B}
    (h : Detecting version policy tsOut bytes fsm)
    (happ : fsm.Appends chunk fsm') :
    Detecting version policy tsOut (bytes ++ chunk) fsm' where
  recordPhase := happ.recordPhase.mpr h.recordPhase
  inv := happ.inv
  known := by
    rw [happ.inputDbnVersion]
    exact h.known
  upgradePolicy := happ.upgradePolicy.trans h.upgradePolicy
  tsOut := happ.tsOut.trans h.tsOut
  data := by rw [happ.data, h.data]

section Machines

variable [LawfulBuffer B]

theorem Detecting.process_record (hversion : 1 ≤ version)
    (hversion' : version ≤ dbnVersion) {fsm : DbnFsm B}
    (h : Detecting version policy tsOut (rec ++ rest) fsm)
    (hrec : VersionRecord version tsOut rec) :
    exists fsm', fsm.process (D := D) = .ret (.record (), fsm') ∧
      fsm'.lastBytes = some (upgradedImage version policy tsOut rec) ∧
      Detecting version policy tsOut rest fsm' := by
  rcases hrec.next hversion hversion' policy h.known rest with
    ⟨known', hknown', hnext⟩
  have hitem : fsm.nextItem =
      .record (upgradedImage version policy tsOut rec) known' := by
    unfold nextItem
    rw [h.upgradePolicy, h.tsOut, h.data]
    exact hnext
  rcases exists_call (D := D) h.inv h.recordPhase hitem with ⟨fsm', hdone⟩
  cases hdone.calls with
  | cons call last tail =>
      cases tail
      refine ⟨fsm', call, last, ?_⟩
      have hne : rec ≠ [] := by
        intro hnil
        have hheader := hrec.header
        rw [hnil] at hheader
        exact absurd hheader (by decide)
      have hdata := hdone.data
      rw [h.data, recordSize_append hne, hrec.size, List.drop_left] at hdata
      exact
        { recordPhase := hdone.recordPhase
          inv := hdone.inv
          known := by
            rw [hdone.version]
            exact hknown'
          upgradePolicy := hdone.upgradePolicy.trans h.upgradePolicy
          tsOut := hdone.tsOut.trans h.tsOut
          data := hdata }

theorem Detecting.serves (hversion : 1 ≤ version)
    (hversion' : version ≤ dbnVersion) {records : List (List UInt8)}
    (hrecords : forall rec, rec ∈ records -> VersionRecord version tsOut rec) :
    Serves (B := B) D records (upgradedImage version policy tsOut)
      (Detecting version policy tsOut) where
  size rec hrec := ⟨(hrecords rec hrec).size, (hrecords rec hrec).header⟩
  data bytes fsm h := h.data
  writeAll bytes fsm chunk h := h.of_appends (appends_writeAll h.inv chunk)
  record rec rest fsm hrec h :=
    h.process_record hversion hversion' (hrecords rec hrec)
  more bytes fsm hpart h := by
    rcases next_partialRecord fsm.upgradePolicy fsm.tsOut fsm.inputDbnVersion
      hpart with ⟨n, hnext, _⟩
    rw [← h.data] at hnext
    have hsettle := h.of_appends (appends_settle h.inv)
    rw [List.append_nil] at hsettle
    exact ⟨n, fsm.settle, process_needMore h.recordPhase hnext, hsettle⟩

theorem Detecting.of_build {b : DbnFsmBuilder} {fsm : DbnFsm B}
    (hbuild : b.build = Res.ok fsm) (hskip : b.skipMetadata = true)
    (hknown : NoneOr version (b.inputDbnVersion.map Subtype.val)) :
    Detecting version b.upgradePolicy b.tsOut [] fsm := by
  have hinv := inv_build hbuild
  rw [DbnFsmBuilder.build_eq_ok hbuild] at hinv ⊢
  rw [hskip] at hinv ⊢
  exact
    { recordPhase := rfl
      inv := hinv
      known := hknown
      upgradePolicy := rfl
      tsOut := rfl
      data := LawfulBuffer.data_withCapacity _ }

end Machines

/--
For records of a version, a machine that skips metadata returns the same
records with that version and without a version, however the records are cut
into chunks, and the version that it detects, if any, is the right one.
-/
theorem feed_detecting_eq_declared (B : Type) {D : Type} [Buffer B]
    [LawfulBuffer B] [CalendarDate D] (v : DbnVersion) {b : DbnFsmBuilder}
    (hskip : b.skipMetadata = true)
    (hcompat : b.upgradePolicy.Compatible v.val)
    {records : List (List UInt8)}
    (hrecords : forall rec, rec ∈ records ->
      VersionRecord v.val b.tsOut rec) :
    exists detecting declared : DbnFsm B,
      { b with inputDbnVersion := none }.build = Res.ok detecting ∧
      { b with inputDbnVersion := some v }.build = Res.ok declared ∧
      forall chunks : List (List UInt8), chunks.flatten <+: records.flatten ->
        exists (events : List (Event D)) (fsm fsm' : DbnFsm B),
          feed chunks detecting = .ret (events, fsm) ∧
          feed chunks declared = .ret (events, fsm') ∧
          NoneOr v.val fsm.inputDbnVersion ∧
          (chunks.flatten = records.flatten ->
            events = records.map
              (recordEvent v.val b.upgradePolicy b.tsOut)) := by
  have hbuild' : exists declared : DbnFsm B,
      { b with inputDbnVersion := some v }.build = Res.ok declared := by
    unfold DbnFsmBuilder.build DbnFsmBuilder.checkVersion
    dsimp only
    rw [VersionUpgradePolicy.validateCompatibility_of_compatible hcompat]
    exact ⟨_, rfl⟩
  rcases hbuild' with ⟨declared, hbuild'⟩
  refine ⟨_, declared, rfl, hbuild', ?_⟩
  intro chunks hpiece
  have hserves : Serves (B := B) D records
      (upgradedImage v.val b.upgradePolicy b.tsOut)
      (Detecting v.val b.upgradePolicy b.tsOut) :=
    Detecting.serves v.property.1 v.property.2 hrecords
  have hpending : Pending records [] := by
    intro rec rest heq
    have hheader := (hrecords rec (by rw [heq]; exact List.mem_cons_self)).header
    exact Nat.lt_of_lt_of_le (by decide) hheader
  have hstart : Detecting v.val b.upgradePolicy b.tsOut [] _ :=
    Detecting.of_build (B := B) (b := { b with inputDbnVersion := none }) rfl
      hskip (Or.inl rfl)
  have hstart' : Detecting v.val b.upgradePolicy b.tsOut [] declared :=
    Detecting.of_build (b := { b with inputDbnVersion := some v }) hbuild'
      hskip (Or.inr rfl)
  rcases hserves.feed hstart hpending hpiece with
    ⟨done, left, pending, fsm, hsplit, hbytes, hleft, hfeed, hfsm⟩
  rcases hserves.feed hstart' hpending hpiece with
    ⟨done', left', pending', fsm', hsplit', hbytes', hleft', hfeed', _⟩
  have hdone : done' = done := by
    apply hleft'.unique hleft
    · rw [← hsplit, ← hsplit']
    · rw [← hbytes, ← hbytes']
  rw [hdone] at hfeed'
  refine ⟨_, fsm, fsm', hfeed, hfeed', hfsm.known, ?_⟩
  intro hall
  rw [List.nil_append, hall] at hbytes
  rw [hsplit] at hbytes
  have hnil := hleft.left_nil hbytes
  rw [hsplit, hnil, List.append_nil]
  rfl

theorem feed_detecting_eq_declared_heartbeat :
    exists detecting declared : DbnFsm VecBuffer,
      { fragmentBuilder none .upgradeToV3 with
        inputDbnVersion := none }.build = Res.ok detecting ∧
      { fragmentBuilder none .upgradeToV3 with
        inputDbnVersion := some ⟨1, by decide⟩ }.build = Res.ok declared ∧
      forall chunks : List (List UInt8),
        chunks.flatten <+: [heartbeatV1, heartbeatV1].flatten ->
        exists (events : List (Event GregorianDate))
            (fsm fsm' : DbnFsm VecBuffer),
          feed chunks detecting = .ret (events, fsm) ∧
          feed chunks declared = .ret (events, fsm') ∧
          NoneOr 1 fsm.inputDbnVersion ∧
          (chunks.flatten = [heartbeatV1, heartbeatV1].flatten ->
            events = [heartbeatV1, heartbeatV1].map
              (recordEvent 1 .upgradeToV3 false)) :=
  feed_detecting_eq_declared VecBuffer ⟨1, by decide⟩
    (b := fragmentBuilder none .upgradeToV3) rfl (by decide)
    (by decide +kernel)

end DbnFsm
end Dbn
