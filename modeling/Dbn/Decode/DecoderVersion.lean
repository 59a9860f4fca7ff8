import Dbn.Decode.RecordReaders
import Dbn.Decode.Runs
import Dbn.Decode.Serviceable

/-!
# The version of the metadata of a decoder

`Decoder` keeps the metadata beside the machine that decodes the records.  The
records follow the current policy, while the metadata is upgraded in place and
never goes back to an earlier version.
-/

namespace Dbn

open Lib
open DbnFsm (afterRead)

variable {R B D : Type} [Read R] [Buffer B] [CalendarDate D]

omit [Read R] [CalendarDate D] in
/-- A metadata decoder with the default policy. -/
def MetadataDecoder.new (reader : R) : MetadataDecoder R B :=
  ⟨reader, DbnFsm.new DbnFsm.defaultBufSize 0⟩

/-- A decoder of metadata and records. -/
structure Decoder (R B D : Type) where
  metadata : Metadata D
  decoder : RecordDecoder R B

namespace Decoder

/-!
## Calls
-/

/-- The part of the constructors that follows the metadata decoder. -/
def fromMetadataDecoder (metadataDecoder : MetadataDecoder R B) :
    Outcome (Except Error (Decoder R B D)) :=
  match metadataDecoder.decode (D := D) with
  | .timeout => .timeout
  | .panic p => .panic p
  | .ret (Except.error e, _) => .ret (Except.error e)
  | .ret (Except.ok metadata, metadataDecoder) =>
      match RecordDecoder.fromMetadataDecoder metadataDecoder with
      | Res.ok decoder => .ret (Except.ok ⟨metadata, decoder⟩)
      | Res.err e => .ret (Except.error e)
      | Res.panic p => .panic p

def new (reader : R) : Outcome (Except Error (Decoder R B D)) :=
  fromMetadataDecoder (MetadataDecoder.new reader)

def withUpgradePolicy (reader : R) (policy : VersionUpgradePolicy) :
    Outcome (Except Error (Decoder R B D)) :=
  match MetadataDecoder.withUpgradePolicy reader policy with
  | Res.ok metadataDecoder => fromMetadataDecoder metadataDecoder
  | Res.err _ => .panic Panic.unwrapNone
  | Res.panic p => .panic p

/-- `set_upgrade_policy` with the decoder that it leaves behind. -/
def setUpgradePolicy (d : Decoder R B D) (policy : VersionUpgradePolicy) :
    Result Unit × Decoder R B D :=
  match d.decoder.fsm.setUpgradePolicyCall policy with
  | (Res.ok (), fsm) =>
      (Res.ok (), ⟨d.metadata.upgrade policy, { d.decoder with fsm := fsm }⟩)
  | (r, fsm) => (r, { d with decoder := { d.decoder with fsm := fsm } })

def decodeRecordRef (d : Decoder R B D) :
    Outcome (Except Error (Option RecordRef) × Decoder R B D) :=
  match d.decoder.decodeRef D with
  | .timeout => .timeout
  | .panic p => .panic p
  | .ret (res, decoder) => .ret (res, { d with decoder := decoder })

/-- The current policy. -/
def upgradePolicy (d : Decoder R B D) : VersionUpgradePolicy :=
  d.decoder.fsm.upgradePolicy

/-- A call with what it returned. -/
inductive Action where
  | setUpgradePolicy (policy : VersionUpgradePolicy) (r : Result Unit)
  | decodeRecordRef (res : Except Error (Option RecordRef))

/-- The decoder before and after a call. -/
inductive Step : Decoder R B D -> Action -> Decoder R B D -> Prop where
  | setUpgradePolicy {d d' : Decoder R B D} {policy : VersionUpgradePolicy}
      {r : Result Unit} (call : d.setUpgradePolicy policy = (r, d')) :
      Step d (.setUpgradePolicy policy r) d'
  | decodeRecordRef {d d' : Decoder R B D}
      {res : Except Error (Option RecordRef)}
      (call : d.decodeRecordRef = .ret (res, d')) :
      Step d (.decodeRecordRef res) d'

/-- A decoder that was constructed on the stream, whatever a read returns. -/
def Opened (stream : List UInt8) (d : Decoder ShortReader B D) : Prop :=
  exists r : ShortReader, r.rest = stream ∧
    (new r = .ret (Except.ok d) ∨
      exists policy, withUpgradePolicy r policy = .ret (Except.ok d))

/-- The runs of the decoders of a stream. -/
abbrev Runs (stream : List UInt8)
    (history : List (Decoder ShortReader B D × Action))
    (d : Decoder ShortReader B D) : Prop :=
  Run (Opened stream) Step history d

/-- The version byte of a stream. -/
def streamVersion (stream : List UInt8) : Option Nat :=
  stream[dbnPrefix.length]?.map UInt8.toNat

/-- The metadata has the version of the records to come. -/
def VersionFits (version : Nat) (d : Decoder R B D) : Prop :=
  d.metadata.version = d.upgradePolicy.outputVersion version

/-- A policy that is set does not lower the version of the output. -/
def Action.Raises (version : Nat) (d : Decoder R B D) : Action -> Prop
  | .setUpgradePolicy policy (Res.ok ()) =>
      d.upgradePolicy.outputVersion version ≤ policy.outputVersion version
  | _ => True

end Decoder

/-!
## Decoding keeps the setup
-/

namespace DbnFsm

section Keeps

variable {policy : VersionUpgradePolicy} {tsOut : Bool}
  {P : Option Nat -> Prop}

theorem DecodesAs.readSpace {reader reader' : R} {fsm fsm' : DbnFsm B}
    {res : Except IoErrorKind Nat} (h : fsm.DecodesAs policy tsOut P)
    (call : readSpace reader fsm = (res, reader', fsm')) :
    fsm'.DecodesAs policy tsOut P := by
  unfold Dbn.readSpace at call
  split at call
  · cases call
    exact h.with_buffers _ _
  · cases call
    exact h

/-- Reading records keeps the setup of the machine. -/
theorem DecodesAs.decodeRefLoop {fuel : Nat} {d d' : RecordDecoder R B}
    {res : Except Error (Option RecordRef)}
    (hkept : KeptByUpgrade policy tsOut P)
    (h : d.fsm.DecodesAs policy tsOut P)
    (call : d.decodeRefLoop D fuel = .ret (res, d')) :
    d'.fsm.DecodesAs policy tsOut P := by
  induction fuel generalizing d with
  | zero => cases call
  | succ fuel ih =>
      rw [RecordDecoder.decodeRefLoop] at call
      split at call
      · cases call
      · cases call
      · next n fsm hprocess =>
          have hfsm := h.process hkept hprocess
          split at call
          · next nbytes reader fsm' hread =>
              have hfsm' := hfsm.readSpace hread
              split_ifs at call
              · cases call
                exact hfsm'
              · exact ih (hfsm'.with_buffers _ _) call
          · next hread =>
              cases call
              exact hfsm.readSpace hread
          · next hread =>
              cases call
              exact hfsm.readSpace hread
      · next hprocess =>
          cases call
          exact h.process hkept hprocess
      · next hprocess =>
          cases call
          exact h.process hkept hprocess
      · cases call

end Keeps

end DbnFsm

/-!
## Metadata
-/

namespace Metadata

variable {D : Type} {m : Metadata D} {version : Nat}
  {policy : VersionUpgradePolicy}

/-- Metadata is never taken back to an earlier version. -/
theorem version_upgrade (m : Metadata D) (policy : VersionUpgradePolicy) :
    (m.upgrade policy).version =
      max m.version (policy.outputVersion 0) := by
  unfold upgrade VersionUpgradePolicy.outputVersion
  cases policy with
  | asIs => split_ifs <;> simp_all
  | upgradeToV2 =>
      split_ifs with hlt heq
      · exact (Nat.max_eq_right (Nat.le_of_lt hlt)).symm
      · cases heq.2
      · exact (Nat.max_eq_left (Nat.le_of_not_lt hlt)).symm
  | upgradeToV3 =>
      split_ifs with hlt heq
      · exact (Nat.max_eq_right (Nat.le_succ_of_le (Nat.le_of_lt hlt))).symm
      · rw [heq.1]
        rfl
      · have hge : 3 ≤ m.version := by
          have hne : m.version ≠ 2 := fun heq' => heq ⟨heq', rfl⟩
          omega
        exact (Nat.max_eq_left hge).symm

/-- Metadata is upgraded to the version that the records are upgraded to. -/
theorem version_upgrade_of_compatible (hle : m.version ≤ dbnVersion)
    (hcompat : policy.Compatible m.version) :
    (m.upgrade policy).version = policy.outputVersion m.version := by
  rw [version_upgrade]
  unfold dbnVersion at hle
  unfold VersionUpgradePolicy.outputVersion
  cases policy with
  | asIs => exact Nat.max_eq_left (Nat.zero_le _)
  | upgradeToV2 =>
      have hle' : m.version ≤ 2 := by
        by_contra hgt
        exact hcompat ⟨Nat.lt_of_not_le hgt, rfl⟩
      exact Nat.max_eq_right hle'
  | upgradeToV3 => exact Nat.max_eq_right hle

/--
Metadata in the version of an output keeps up with a new policy exactly if the
policy does not lower that version.
-/
theorem version_upgrade_iff {old : VersionUpgradePolicy}
    (hle : version ≤ dbnVersion) (hcompat : old.Compatible version)
    (hversion : m.version = old.outputVersion version) :
    (m.upgrade policy).version = policy.outputVersion version <->
      old.outputVersion version ≤ policy.outputVersion version := by
  rw [version_upgrade, hversion]
  unfold dbnVersion at hle
  unfold VersionUpgradePolicy.Compatible at hcompat
  unfold VersionUpgradePolicy.outputVersion
  cases old with
  | asIs => cases policy <;> simp
  | upgradeToV2 =>
      have hle' : version ≤ 2 := by
        by_contra hgt
        exact hcompat ⟨Nat.lt_of_not_le hgt, rfl⟩
      cases policy <;> simp; omega
  | upgradeToV3 => cases policy <;> simp; omega

end Metadata

namespace DbnFsm

/-- The metadata that a machine returns is upgraded from the version it has. -/
def UpgradedFor (m : Metadata D) (fsm : DbnFsm B) : Prop :=
  exists m0 : Metadata D, fsm.inputDbnVersion = some m0.version ∧
    m = m0.upgrade fsm.upgradePolicy

section Metadata

variable {fsm fsm' : DbnFsm B} {m : Metadata D}

theorem upgradedFor_of_decodeMetadata {length : Nat}
    (h : fsm.decodeMetadata length = (Res.ok m, fsm')) :
    UpgradedFor m fsm' := by
  unfold decodeMetadata at h
  split at h
  · cases h
  · next version hversion =>
      split at h
      · cases h
      · cases h
      · next m0 hdecode =>
          cases h
          have hm0 := version_of_decodeMetadataImpl hdecode
          rw [← hm0] at hversion
          exact ⟨m0, hversion, rfl⟩

omit [CalendarDate D] in
theorem processRecord_ne_metadata (fsm : DbnFsm B) (m : Metadata D)
    (fsm' : DbnFsm B) :
    fsm.processRecord ≠ Round.done (.metadata m) fsm' := by
  unfold processRecord
  dsimp only
  split_ifs
  · nofun
  · nofun
  · nofun
  · split <;> nofun

theorem upgradedFor_of_processLoop {fuel : Nat}
    (call : fsm.processLoop fuel = .ret (.metadata m, fsm')) :
    UpgradedFor m fsm' := by
  induction fuel generalizing fsm with
  | zero => cases call
  | succ fuel ih =>
      rw [processLoop] at call
      split at call
      · exact ih call
      · next res fsm1 hround =>
          cases call
          cases hstate : fsm.state with
          | prelude =>
              simp only [processRound, hstate] at hround
              split at hround
              · cases hround
              · split at hround <;> cases hround
          | metadata length =>
              simp only [processRound, hstate] at hround
              split at hround
              · cases hround
              · split at hround
                · next hdecode =>
                    cases hround
                    exact upgradedFor_of_decodeMetadata hdecode
                · cases hround
                · cases hround
          | record =>
              simp only [processRound, hstate] at hround
              exact absurd hround (processRecord_ne_metadata fsm m fsm')
          | consume read compat compatFill expandCompat =>
              simp only [processRound, hstate] at hround
              cases hround
      · cases call

end Metadata

end DbnFsm

/-!
## Runs
-/

namespace Decoder

section Steps

variable {version : Nat} {d d' : Decoder R B D}

omit [Read R] [CalendarDate D] [Buffer B] in
/-- A call sets the policy and upgrades the metadata, or changes nothing. -/
theorem setUpgradePolicy_cases {policy : VersionUpgradePolicy}
    {r : Result Unit} (h : d.setUpgradePolicy policy = (r, d')) :
    (r = Res.ok () ∧ d'.metadata = d.metadata.upgrade policy ∧
      d'.decoder.fsm = { d.decoder.fsm with upgradePolicy := policy } ∧
      forall v, d.decoder.fsm.inputDbnVersion = some v ->
        d.upgradePolicy.Compatible v) ∨
    (r ≠ Res.ok () ∧ d' = d) := by
  unfold setUpgradePolicy at h
  split at h
  · next fsm hcall =>
      cases h
      rcases DbnFsm.setUpgradePolicyCall_cases hcall with
        ⟨_, hset, hfsm⟩ | ⟨hr, _⟩
      · left
        constructor
        · rfl
        · constructor
          · rfl
          · constructor
            · exact hfsm
            · intro v hv hbad
              rcases Res.bind_eq_ok.mp hset with ⟨_, hcheck, _⟩
              rw [hv] at hcheck
              unfold VersionUpgradePolicy.validateCompatibility at hcheck
              dsimp only at hcheck
              split at hcheck
              · cases hcheck
              · exact absurd hbad (by assumption)
      · exact absurd rfl hr
  · next r fsm hr hcall =>
      cases h
      rcases DbnFsm.setUpgradePolicyCall_cases hcall with
        ⟨heq, _⟩ | ⟨hr, rfl, _⟩
      · exact absurd heq hr
      · exact Or.inr ⟨hr, rfl⟩

/-- The decoder decodes records of the version with its own policy. -/
def Decodes (version : Nat) (d : Decoder R B D) : Prop :=
  d.decoder.fsm.RecordPhase ∧ d.decoder.fsm.inputDbnVersion = some version

/-- Reading a record keeps the version and the policy. -/
theorem Decodes.decodeRecordRef {res : Except Error (Option RecordRef)}
    (hd : d.Decodes version) (call : d.decodeRecordRef = .ret (res, d')) :
    d'.Decodes version ∧ d'.metadata = d.metadata ∧
      d'.upgradePolicy = d.upgradePolicy := by
  unfold Decoder.decodeRecordRef at call
  split at call
  · cases call
  · cases call
  · next hdecode =>
      cases call
      have hstart : d.decoder.fsm.DecodesAs d.upgradePolicy
          d.decoder.fsm.tsOut (fun v => v = some version) :=
        ⟨hd.1, rfl, rfl, hd.2⟩
      have hnext := hstart.decodeRefLoop
        (DbnFsm.keptByUpgrade_some _ _ version) hdecode
      exact ⟨⟨hnext.recordPhase, hnext.version⟩, rfl, hnext.upgradePolicy⟩

theorem Step.decodes {e : Action} (h : Step d e d') (hd : d.Decodes version) :
    d'.Decodes version := by
  cases h with
  | setUpgradePolicy call =>
      rcases setUpgradePolicy_cases call with ⟨_, _, hfsm, _⟩ | ⟨_, rfl⟩
      · unfold Decodes
        rw [hfsm]
        exact hd
      · exact hd
  | decodeRecordRef call => exact (hd.decodeRecordRef call).1

/--
A call keeps the version of the metadata right exactly if it does not lower
the version of the output.
-/
theorem Step.versionFits_iff {e : Action} (h : Step d e d')
    (hle : version ≤ dbnVersion) (hd : d.Decodes version)
    (hfits : d.VersionFits version) :
    d'.VersionFits version <-> e.Raises version d := by
  cases h with
  | setUpgradePolicy call =>
      rename_i policy r
      rcases setUpgradePolicy_cases call with
        ⟨rfl, hmetadata, hfsm, hcompat⟩ | ⟨hr, rfl⟩
      · unfold VersionFits upgradePolicy
        rw [hmetadata, hfsm]
        exact Metadata.version_upgrade_iff hle
          (hcompat version hd.2) hfits
      · apply iff_of_true hfits
        cases r with
        | ok u => exact absurd rfl hr
        | err e => trivial
        | panic p => trivial
  | decodeRecordRef call =>
      apply iff_of_true _ trivial
      rcases hd.decodeRecordRef call with ⟨_, hmetadata, hpolicy⟩
      unfold VersionFits
      rw [hmetadata, hpolicy]
      exact hfits

end Steps

/-!
## Construction
-/

section Construction

variable {stream : List UInt8} {d : Decoder ShortReader B D}

theorem streamVersion_eq {policy : VersionUpgradePolicy}
    {version length : Nat}
    (h : DbnFsm.AcceptsPrelude policy stream version length) :
    streamVersion stream = some version := by
  have hroom := h.room
  rw [DbnFsm.metadataPreludeLen_eq] at hroom
  have hlt : dbnPrefix.length < stream.length :=
    Nat.lt_of_lt_of_le (by decide) hroom
  have hbyte : (stream.drop dbnPrefix.length).take 1 =
      [stream[dbnPrefix.length]] := by
    rw [List.drop_eq_getElem_cons hlt, List.take_succ_cons, List.take_zero]
  rw [streamVersion, h.version_eq, List.getElem?_eq_getElem hlt,
    DbnFsm.uintAt, hbyte]
  rfl

/-- A constructor has decoded the metadata and goes on with its machine. -/
theorem Opened.exists_metadata (h : Opened stream d) :
    exists r policy md, r.rest = stream ∧
      DbnFsm.syncMetadata B D policy r = .ret (Except.ok d.metadata, md) ∧
      RecordDecoder.fromMetadataDecoder md = Res.ok d.decoder := by
  have hfrom : forall md0 : MetadataDecoder ShortReader B,
      fromMetadataDecoder md0 = .ret (Except.ok d) -> exists md,
        md0.decode = .ret (Except.ok d.metadata, md) ∧
          RecordDecoder.fromMetadataDecoder md = Res.ok d.decoder := by
    intro md0 hmd0
    unfold fromMetadataDecoder at hmd0
    split at hmd0
    · cases hmd0
    · cases hmd0
    · cases hmd0
    · next m md hdecode =>
        split at hmd0
        · next decoder hdecoder =>
            cases hmd0
            exact ⟨md, hdecode, hdecoder⟩
        · cases hmd0
        · cases hmd0
  rcases h with ⟨r, hrest, hnew | ⟨policy, hnew⟩⟩
  · rcases hfrom _ hnew with ⟨md, hmd⟩
    exact ⟨r, .upgradeToV3, md, hrest, hmd⟩
  · rcases hfrom _ hnew with ⟨md, hmd⟩
    exact ⟨r, policy, md, hrest, hmd⟩

variable [LawfulBuffer B]

/-- A decoder that was constructed decodes the version of the stream. -/
theorem Opened.spec (h : Opened stream d) :
    exists version, streamVersion stream = some version ∧
      version ≤ dbnVersion ∧ d.Decodes version ∧ d.VersionFits version := by
  rcases h.exists_metadata with ⟨r, policy, md, rfl, hmetadata, hdecoder⟩
  rcases DbnFsm.reading_of_syncMetadata hmetadata with
    ⟨fed, fsm, hreading, hprocess⟩
  rcases hreading.process_metadata hprocess with
    ⟨version, length, haccept, buffered, hbuffers⟩
  rcases hbuffers.fromMetadataDecoder with ⟨d0, hd0, hbuffers0⟩
  rw [hdecoder] at hd0
  cases hd0
  have hin := hbuffers0.inRecords
  have hpolicy : d.upgradePolicy = policy := hin.upgradePolicy
  rcases DbnFsm.upgradedFor_of_processLoop hprocess with ⟨m0, hm0, hmd⟩
  rw [hbuffers.inRecords.inputDbnVersion] at hm0
  rw [hbuffers.inRecords.upgradePolicy] at hmd
  cases hm0
  have hfits : d.VersionFits m0.version := by
    unfold VersionFits
    rw [hpolicy, hmd]
    exact Metadata.version_upgrade_of_compatible haccept.version_le
      haccept.compatible
  exact ⟨m0.version, streamVersion_eq haccept, haccept.version_le,
    ⟨hin.recordPhase, hin.inputDbnVersion⟩, hfits⟩

end Construction

/--
In a run over a stream the version of the metadata is the version of the
records to come in every state exactly if no policy that was set lowers that
version.
-/
theorem runs_versionFits_iff [LawfulBuffer B] {stream : List UInt8}
    {version : Nat} (hversion : streamVersion stream = some version)
    {history : List (Decoder ShortReader B D × Action)}
    {d : Decoder ShortReader B D} (run : Runs stream history d) :
    Run.Always (fun _ d => d.metadata.version =
        d.upgradePolicy.outputVersion version) history d <->
      forall p, p ∈ history -> p.2.Raises version p.1 := by
  have hopened : forall d : Decoder ShortReader B D, Opened stream d ->
      version ≤ dbnVersion ∧ d.Decodes version ∧ d.VersionFits version := by
    intro d hd
    rcases hd.spec with ⟨v, hv, hspec⟩
    rw [hversion] at hv
    cases hv
    exact hspec
  apply Run.always_iff (C := fun d e => e.Raises version d) _ _ run
  · intro d hd
    exact (hopened d hd).2.2
  · intro history d e d' hrun hfits hstep
    have hinv : version ≤ dbnVersion ∧ d.Decodes version := by
      refine Run.invariant
        (J := fun d => version ≤ dbnVersion ∧ d.Decodes version) ?_ ?_ hrun
      · intro d hd
        exact ⟨(hopened d hd).1, (hopened d hd).2.1⟩
      · intro d e d' hd hstep
        exact ⟨hd.1, hstep.decodes hd.2⟩
    exact hstep.versionFits_iff hinv.1 hinv.2 hfits

/-!
## Policies on a stream of the first version
-/

section Samples

open DbnFsm (emptyMetadataV1 syncMetadata)

/-- The decoder after a policy that is accepted was set. -/
def withPolicy (d : Decoder R B D) (policy : VersionUpgradePolicy) :
    Decoder R B D where
  metadata := d.metadata.upgrade policy
  decoder :=
    { d.decoder with fsm := { d.decoder.fsm with upgradePolicy := policy } }

theorem step_withPolicy {d : Decoder R B D} {version : Nat}
    (hd : d.Decodes version) (hcompat : d.upgradePolicy.Compatible version)
    (policy : VersionUpgradePolicy) :
    Step d (.setUpgradePolicy policy (Res.ok ())) (d.withPolicy policy) := by
  apply Step.setUpgradePolicy
  have hcall : d.decoder.fsm.setUpgradePolicyCall policy =
      (Res.ok (), { d.decoder.fsm with upgradePolicy := policy }) := by
    have hcheck := VersionUpgradePolicy.validateCompatibility_of_compatible
      hcompat
    unfold upgradePolicy at hcheck
    unfold DbnFsm.setUpgradePolicyCall
    simp only [hd.2, hcheck]
  unfold Decoder.setUpgradePolicy
  rw [hcall]
  rfl

set_option maxRecDepth 8000 in
/-- A decoder of empty metadata of the first version. -/
theorem exists_opened_emptyMetadataV1 (policy : VersionUpgradePolicy) :
    exists d : Decoder ShortReader VecBuffer GregorianDate,
      Opened emptyMetadataV1 d ∧ d.upgradePolicy = policy := by
  have hopen : exists d : Decoder ShortReader VecBuffer GregorianDate,
      withUpgradePolicy ⟨emptyMetadataV1, fun _ => 128⟩ policy =
        .ret (Except.ok d) ∧ d.upgradePolicy = policy := by
    cases policy <;> exact ⟨_, rfl, rfl⟩
  rcases hopen with ⟨d, hd, hpolicy⟩
  exact ⟨d, ⟨_, rfl, Or.inr ⟨policy, hd⟩⟩, hpolicy⟩

/-- Records that are upgraded after they were decoded as they are. -/
theorem runs_versionFits_iff_upgrade :
    exists d d' : Decoder ShortReader VecBuffer GregorianDate,
      d.upgradePolicy = .asIs ∧ d'.upgradePolicy = .upgradeToV3 ∧
        d.metadata.version = 1 ∧ d'.metadata.version = 3 := by
  rcases exists_opened_emptyMetadataV1 .asIs with ⟨d, hd, hpolicy⟩
  rcases hd.spec with ⟨version, hversion, _, hdecodes, _⟩
  cases hversion
  have hcompat : d.upgradePolicy.Compatible 1 := by
    rw [hpolicy]
    decide
  have run : Runs emptyMetadataV1
      [(d, .setUpgradePolicy .upgradeToV3 (Res.ok ()))]
      (d.withPolicy .upgradeToV3) :=
    Run.step (Run.start hd) (step_withPolicy hdecodes hcompat _)
  have hone : streamVersion emptyMetadataV1 = some 1 := rfl
  have halways := (runs_versionFits_iff hone run).mpr (by
    intro p hp
    cases List.mem_singleton.mp hp
    show d.upgradePolicy.outputVersion 1 ≤ 3
    rw [hpolicy]
    decide)
  have hfirst : d.metadata.version = d.upgradePolicy.outputVersion 1 :=
    halways.2 _ _ List.suffix_rfl
  rw [hpolicy] at hfirst
  exact ⟨d, d.withPolicy .upgradeToV3, hpolicy, rfl, hfirst, halways.1⟩

/-- Metadata of the third version with records of the first. -/
theorem not_versionFits_asIs :
    exists history, exists d : Decoder ShortReader VecBuffer GregorianDate,
      Runs emptyMetadataV1 history d ∧
        streamVersion emptyMetadataV1 = some 1 ∧
        d.metadata.version ≠ d.upgradePolicy.outputVersion 1 := by
  rcases exists_opened_emptyMetadataV1 .upgradeToV3 with ⟨d, hd, hpolicy⟩
  rcases hd.spec with ⟨version, hversion, _, hdecodes, hfits⟩
  cases hversion
  have hcompat : d.upgradePolicy.Compatible 1 := by
    rw [hpolicy]
    decide
  refine ⟨[(d, .setUpgradePolicy .asIs (Res.ok ()))], d.withPolicy .asIs,
    Run.step (Run.start hd) (step_withPolicy hdecodes hcompat _), rfl, ?_⟩
  have hmetadata : d.metadata.version = 3 := by
    unfold VersionFits at hfits
    rw [hfits, hpolicy]
    rfl
  have hsame : (d.withPolicy .asIs).metadata.version = 3 := by
    unfold withPolicy
    rw [Metadata.version_upgrade, hmetadata]
    rfl
  rw [hsame]
  show 3 ≠ VersionUpgradePolicy.asIs.outputVersion 1
  decide

end Samples

end Decoder

end Dbn
