import Dbn.Decode.PolicyCompatibility
import Dbn.Decode.RecordSafety
import Dbn.Decode.Serviceable

/-!
# The version of the input

The prelude stores the version byte before it is checked, and version 0 is not
refused at all.  Everything else that sets the version of the machine sets one
that is supported.
-/

namespace Dbn

open Lib

/-- The version, if there is one, is supported. -/
def KnownVersion (version : Option Nat) : Prop :=
  forall v, version = some v -> 1 ≤ v ∧ v ≤ dbnVersion

namespace DbnFsm

variable {B D : Type} [Buffer B] [CalendarDate D]

/-- A prelude that is about to be decoded has a supported version. -/
def DeclaresKnown (fsm : DbnFsm B) : Prop :=
  fsm.state = .prelude ->
    metadataPreludeLen ≤ (Buffer.data fsm.buffer).length ->
    (Buffer.data fsm.buffer).take dbnPrefix.length = dbnPrefix ->
    KnownVersion (some (uintAt 1 (Buffer.data fsm.buffer) dbnPrefix.length))

/-- A decoding call finds a supported version in a prelude. -/
def Action.FindsKnown (fsm : DbnFsm B) : Action D -> Prop
  | .process _ => fsm.DeclaresKnown
  | .processMultiple _ _ => fsm.DeclaresKnown
  | _ => True

section Versions

variable {policy : VersionUpgradePolicy} {tsOut : Bool}

/-- Only the first two versions are detected. -/
theorem knownVersion_of_detectConversion {rtype : UInt8} {recSize : Nat}
    {c : Conversion} {version : Option Nat}
    (h : detectConversion rtype policy recSize = some (c, version)) :
    KnownVersion version := by
  intro v hv
  unfold detectConversion at h
  split_ifs at h <;> cases h <;> cases hv <;> decide

theorem keptByUpgrade_known (policy : VersionUpgradePolicy) (tsOut : Bool) :
    KeptByUpgrade policy tsOut KnownVersion := by
  intro version version' rec space res hversion h
  rcases version_of_upgradeRecord h with rfl | ⟨_, c, hdetect⟩
  · exact hversion
  · exact knownVersion_of_detectConversion hdetect

end Versions

/-!
## Calls before the record phase
-/

section Calls

variable {fsm fsm' : DbnFsm B} {version : Nat}

theorem state_of_decodeMetadata {length : Nat} {r : Result (Metadata D)}
    (h : fsm.decodeMetadata length = (r, fsm')) :
    fsm'.state = fsm.state ∨ fsm'.state = .record := by
  unfold decodeMetadata at h
  split at h
  · cases h
    exact Or.inl rfl
  · split at h
    · cases h
      exact Or.inl rfl
    · cases h
      exact Or.inl rfl
    · cases h
      exact Or.inr rfl

/-- The prelude is behind the machine, and its version has the property. -/
def PastPrelude (P : Option Nat -> Prop) (fsm : DbnFsm B) : Prop :=
  fsm.state ≠ .prelude ∧ P fsm.inputDbnVersion

theorem PastPrelude.of_decodeMetadata {P : Option Nat -> Prop} {length : Nat}
    {r : Result (Metadata D)} (h : fsm.PastPrelude P)
    (call : fsm.decodeMetadata length = (r, fsm')) : fsm'.PastPrelude P := by
  constructor
  · rcases state_of_decodeMetadata call with hstate | hstate
    · rw [hstate]
      exact h.1
    · rw [hstate]
      nofun
  · rw [(fields_of_decodeMetadata call).2]
    exact h.2

omit [Buffer B] [CalendarDate D] in
theorem DecodesAs.pastPrelude {policy : VersionUpgradePolicy} {tsOut : Bool}
    {P : Option Nat -> Prop} (h : fsm.DecodesAs policy tsOut P) :
    fsm.PastPrelude P := by
  constructor
  · rcases recordPhase_iff.mp h.recordPhase with
      hstate | ⟨_, _, _, _, hstate⟩
    · rw [hstate]
      nofun
    · rw [hstate]
      nofun
  · exact h.version

theorem PastPrelude.processRound {P : Option Nat -> Prop}
    (hkept : forall policy tsOut, KeptByUpgrade policy tsOut P)
    (h : fsm.PastPrelude P) :
    (fsm.processRound : Round D B).Reaches (PastPrelude P) := by
  by_cases hphase : fsm.RecordPhase
  · have hstart : fsm.DecodesAs fsm.upgradePolicy fsm.tsOut P :=
      ⟨hphase, rfl, rfl, h.2⟩
    have hround := hstart.processRound (D := D) (hkept _ _)
    cases hcase : (fsm.processRound : Round D B) with
    | again fsm' =>
        rw [hcase] at hround
        exact hround.pastPrelude
    | done res fsm' =>
        rw [hcase] at hround
        exact hround.pastPrelude
    | panicked p => trivial
  · cases hstate : fsm.state with
    | prelude => exact absurd hstate h.1
    | metadata length =>
        simp only [DbnFsm.processRound, hstate]
        split
        · exact h
        · split
          · next hdecode => exact h.of_decodeMetadata hdecode
          · next hdecode => exact h.of_decodeMetadata hdecode
          · trivial
    | record => exact absurd (recordPhase_iff.mpr (Or.inl hstate)) hphase
    | consume read compat compatFill expandCompat =>
        exact absurd (recordPhase_iff.mpr (Or.inr ⟨_, _, _, _, hstate⟩)) hphase

omit [CalendarDate D] in
/-- What the prelude leaves behind: the version byte, if it is one of DBN. -/
theorem decodePrelude_version {r : Result Unit}
    (hlen : metadataPreludeLen ≤ (Buffer.data fsm.buffer).length)
    (call : fsm.decodePrelude = (r, fsm')) :
    ((Buffer.data fsm.buffer).take dbnPrefix.length ≠ dbnPrefix ∧
      r ≠ Res.ok () ∧ fsm' = fsm) ∨
    ((Buffer.data fsm.buffer).take dbnPrefix.length = dbnPrefix ∧
      fsm'.inputDbnVersion =
        some (uintAt 1 (Buffer.data fsm.buffer) dbnPrefix.length) ∧
      (r = Res.ok () -> fsm'.state ≠ .prelude)) := by
  unfold decodePrelude at call
  dsimp only at call
  rw [preludeVersion_eq hlen] at call
  by_cases hmagic : (Buffer.data fsm.buffer).take dbnPrefix.length = dbnPrefix
  · right
    rw [if_neg (not_not.mpr hmagic)] at call
    dsimp only at call
    split at call
    · cases call
      exact ⟨hmagic, rfl, nofun⟩
    · cases call
      exact ⟨hmagic, rfl, nofun⟩
    · cases call
      constructor
      · exact hmagic
      · constructor
        · split <;> rfl
        · intro _
          nofun
  · left
    rw [if_pos hmagic] at call
    cases call
    exact ⟨hmagic, nofun, rfl⟩

/-- A call on a prelude leaves the version of the prelude behind. -/
theorem knownVersion_iff_of_prelude {res : ProcessResult D Unit}
    (hstate : fsm.state = .prelude)
    (hlen : metadataPreludeLen ≤ (Buffer.data fsm.buffer).length)
    (h : KnownVersion fsm.inputDbnVersion)
    (call : fsm.process = .ret (res, fsm')) :
    KnownVersion fsm'.inputDbnVersion <-> fsm.DeclaresKnown := by
  have hroom : ¬ Buffer.availableData fsm.buffer < metadataPreludeLen :=
    Nat.not_lt.mpr hlen
  unfold process at call
  rw [processLoop] at call
  simp only [processRound, hstate, if_neg hroom] at call
  cases hdecode : fsm.decodePrelude with
  | mk r fsm1 =>
      rw [hdecode] at call
      have hspec := decodePrelude_version hlen hdecode
      have hfinds : fsm'.inputDbnVersion = fsm1.inputDbnVersion := by
        cases r with
        | ok u =>
            rcases hspec with ⟨_, hr, _⟩ | ⟨_, hversion, hstate1⟩
            · exact absurd rfl hr
            · have hpast : fsm1.PastPrelude (fun v => v = some
                  (uintAt 1 (Buffer.data fsm.buffer) dbnPrefix.length)) :=
                ⟨hstate1 rfl, hversion⟩
              have hnext := processLoop_reaches
                (fun _ hfsm => hfsm.processRound
                  (fun policy tsOut => keptByUpgrade_some policy tsOut _))
                hpast call
              rw [hnext.2, hversion]
        | err e =>
            cases call
            rfl
        | panic p => cases call
      rw [hfinds]
      rcases hspec with ⟨hmagic, _, rfl⟩ | ⟨hmagic, hversion, _⟩
      · apply iff_of_true h
        intro _ _ hmagic'
        exact absurd hmagic' hmagic
      · rw [hversion]
        constructor
        · intro hknown _ _ _
          exact hknown
        · intro hknown
          exact hknown hstate hlen hmagic

/-- A call leaves a supported version behind exactly if it finds one. -/
theorem process_knownVersion_iff {res : ProcessResult D Unit}
    (h : KnownVersion fsm.inputDbnVersion)
    (call : fsm.process = .ret (res, fsm')) :
    KnownVersion fsm'.inputDbnVersion <-> fsm.DeclaresKnown := by
  by_cases hstate : fsm.state = .prelude
  · by_cases hshort : (Buffer.data fsm.buffer).length < metadataPreludeLen
    · rw [process_prelude_short hstate hshort] at call
      cases call
      apply iff_of_true h
      intro _ hlen
      exact absurd hshort (Nat.not_lt.mpr hlen)
    · rw [Nat.not_lt] at hshort
      exact knownVersion_iff_of_prelude hstate hshort h call
  · have hpast : fsm.PastPrelude KnownVersion := ⟨hstate, h⟩
    have hnext := processLoop_reaches
      (fun _ hfsm => hfsm.processRound keptByUpgrade_known) hpast call
    apply iff_of_true hnext.2
    intro hprelude
    exact absurd hprelude hstate

theorem processMultiple_knownVersion_iff {buf : RecRefBuf}
    {res : ProcessResult D Nat} {recs : List RecordRef}
    (h : KnownVersion fsm.inputDbnVersion)
    (call : fsm.processMultiple buf = .ret (res, recs, fsm')) :
    KnownVersion fsm'.inputDbnVersion <-> fsm.DeclaresKnown := by
  by_cases hphase : fsm.RecordPhase
  · have hstart : fsm.DecodesAs fsm.upgradePolicy fsm.tsOut KnownVersion :=
      ⟨hphase, rfl, rfl, h⟩
    have hnext := hstart.processMultiple (keptByUpgrade_known _ _) call
    apply iff_of_true hnext.version
    intro hprelude
    exact absurd hprelude hstart.pastPrelude.1
  · rcases process_of_processMultiple hphase call with ⟨res', call'⟩
    exact process_knownVersion_iff h call'

/-- A call keeps the version supported exactly if it finds a supported one. -/
theorem Step.knownVersion_iff {e : Action D} (hstep : Step fsm e fsm')
    (h : KnownVersion fsm.inputDbnVersion) :
    KnownVersion fsm'.inputDbnVersion <-> e.FindsKnown fsm := by
  cases hstep with
  | setInputDbnVersion call =>
      apply iff_of_true _ trivial
      rcases setInputDbnVersionCall_cases call with ⟨_, hset, _⟩ | ⟨_, rfl⟩
      · rcases Res.bind_eq_ok.mp hset with ⟨v, _, hset⟩
        rcases Res.bind_eq_ok.mp hset with ⟨_, _, heq⟩
        cases heq
        intro w hw
        cases hw
        exact v.property
      · exact h
  | setUpgradePolicy call =>
      apply iff_of_true _ trivial
      rcases setUpgradePolicyCall_cases call with ⟨_, _, rfl⟩ | ⟨_, rfl, _⟩
      · exact h
      · exact h
  | setTsOut tsOut => exact iff_of_true h trivial
  | writeSpace bytes => exact iff_of_true h trivial
  | fill nbytes => exact iff_of_true h trivial
  | writeAll bytes =>
      apply iff_of_true _ trivial
      rw [(writeAll_fields fsm bytes).2]
      exact h
  | growCompat size => exact iff_of_true h trivial
  | skip nbytes =>
      apply iff_of_true _ trivial
      have hsettle : KnownVersion fsm.settle.inputDbnVersion := by
        rw [settle_inputDbnVersion]
        exact h
      exact hsettle
  | reset =>
      apply iff_of_true _ trivial
      intro v hv
      cases hv
  | process call => exact process_knownVersion_iff h call
  | processMultiple call => exact processMultiple_knownVersion_iff h call

theorem Fresh.knownVersion (h : fsm.Fresh) :
    KnownVersion fsm.inputDbnVersion := by
  rcases h.exists_build with ⟨b, hb⟩
  rw [DbnFsmBuilder.build_eq_ok hb]
  intro v hv
  rcases Option.map_eq_some_iff.mp hv with ⟨version, _, rfl⟩
  exact version.property

end Calls

/-!
## Runs
-/

/-- A decoding call does not reach a `panic!`. -/
def NeverExplicit (D : Type) [CalendarDate D] (fsm : DbnFsm B) : Prop :=
  fsm.process (D := D) ≠ .panic Panic.explicit ∧
    forall buf, fsm.processMultiple (D := D) buf ≠ .panic Panic.explicit

/-- The version of a machine that decodes records is not above the maximum. -/
theorem neverExplicit_of_recordPhase [LawfulBuffer B] {fsm : DbnFsm B}
    (hinv : fsm.Inv) (hphase : fsm.RecordPhase) : NeverExplicit D fsm := by
  constructor
  · cases hitem : fsm.nextItem with
    | needMore n =>
        rw [process_needMore (D := D) hphase hitem]
        nofun
    | invalid e =>
        rw [process_invalid (D := D) hphase hitem]
        nofun
    | truncated =>
        rw [process_truncated (D := D) hinv hphase hitem]
        nofun
    | record image version =>
        rcases process_record (D := D) hinv hphase hitem with ⟨fsm', hret, _⟩
        rw [hret]
        nofun
  · intro buf
    rcases exists_bulkVisits_end fsm buf with ⟨s, hvisit, hend⟩
    have hanswers := processMultiple_answers (D := D) hinv hphase hvisit hend
    cases hitem : fsm.bulkItem buf s with
    | record s' => exact absurd hitem (hend s')
    | truncated =>
        rw [hitem] at hanswers
        rw [show fsm.processMultiple buf = .panic Panic.assertion from hanswers]
        nofun
    | stop =>
        rw [hitem] at hanswers
        rcases hanswers with ⟨recs, fsm', hret, _⟩
        rw [hret]
        nofun
    | invalid e =>
        rw [hitem] at hanswers
        rcases hanswers with ⟨recs, fsm', hret, _⟩
        rw [hret]
        nofun
    | noSpace v =>
        rw [hitem] at hanswers
        rcases hanswers with ⟨recs, fsm', hret, _⟩
        rw [hret]
        nofun

/--
In a run the version of the machine is supported in every state exactly if each
prelude that was decoded declares a supported version.  Whatever it declares,
records are not decoded with a version that upgrading panics on.
-/
theorem runs_knownVersion_iff [LawfulBuffer B] {fsm : DbnFsm B}
    {history : List (DbnFsm B × Action D)} (run : Runs history fsm) :
    (Run.Always (fun _ m => forall v, m.inputDbnVersion = some v ->
        1 ≤ v ∧ v ≤ dbnVersion) history fsm <->
      forall p, p ∈ history -> p.2.FindsKnown p.1) ∧
    (fsm.RecordPhase -> NeverExplicit D fsm) := by
  constructor
  · apply Run.always_iff (C := fun m e => e.FindsKnown m) _ _ run
    · intro m hm
      exact hm.knownVersion
    · intro _ m e m' _ hknown hstep
      exact hstep.knownVersion_iff hknown
  · intro hphase
    exact neverExplicit_of_recordPhase run.reachable.inv hphase

/-- Metadata without symbols of any version, and the default policy. -/
def emptyMetadata (version : UInt8) : List UInt8 :=
  dbnPrefix ++ [version] ++ leBytes 4 120 ++ List.replicate 120 0

/-- A new machine that has been written such metadata. -/
def withEmptyMetadata (version : UInt8) : DbnFsm VecBuffer :=
  (DbnFsm.new defaultBufSize 0).writeAll (emptyMetadata version)

theorem runs_withEmptyMetadata {version : UInt8} {fsm : DbnFsm VecBuffer}
    {res : ProcessResult GregorianDate Unit}
    (h : (withEmptyMetadata version).process = .ret (res, fsm)) :
    Runs [(withEmptyMetadata version, .process res),
      (DbnFsm.new defaultBufSize 0, .writeAll (emptyMetadata version))] fsm :=
  Run.step (Run.step (Run.start (Or.inr ⟨_, _, rfl⟩)) (Step.writeAll _ _))
    (Step.process h)

set_option maxRecDepth 8000 in
theorem runs_knownVersion_iff_first :
    exists m : Metadata GregorianDate, exists fsm,
      (withEmptyMetadata 1).process = .ret (.metadata m, fsm) ∧
        forall v, fsm.inputDbnVersion = some v -> 1 ≤ v ∧ v ≤ dbnVersion := by
  have hprocess : exists m : Metadata GregorianDate, exists fsm,
      (withEmptyMetadata 1).process = .ret (.metadata m, fsm) := ⟨_, _, rfl⟩
  rcases hprocess with ⟨m, fsm, hprocess⟩
  have hfinds : (withEmptyMetadata 1).DeclaresKnown := by
    intro _ _ _ v hv
    cases hv
    decide
  have halways := (runs_knownVersion_iff
    (runs_withEmptyMetadata hprocess)).1.mpr (by
      intro p hp
      rcases List.mem_pair.mp hp with rfl | rfl
      · exact hfinds
      · trivial)
  exact ⟨m, fsm, hprocess, halways.1⟩

set_option maxRecDepth 8000 in
/-- Metadata of version 0 is upgraded, and the records to come are not. -/
theorem not_knownVersion_zero :
    exists history, exists fsm : DbnFsm VecBuffer,
      exists m : Metadata GregorianDate, Runs history fsm ∧
        (withEmptyMetadata 0, Action.process (.metadata m)) ∈ history ∧
        m.version = 3 ∧ fsm.inputDbnVersion = some 0 ∧
        forall rtype, conversionFor 0 fsm.upgradePolicy rtype = none := by
  have hprocess : exists m : Metadata GregorianDate, exists fsm,
      (withEmptyMetadata 0).process = .ret (.metadata m, fsm) ∧
        m.version = 3 ∧ fsm.inputDbnVersion = some 0 := ⟨_, _, rfl, rfl, rfl⟩
  rcases hprocess with ⟨m, fsm, hprocess, hmetadata, hversion⟩
  refine ⟨_, fsm, m, runs_withEmptyMetadata hprocess, List.mem_cons_self,
    hmetadata, hversion, ?_⟩
  intro rtype
  simp [conversionFor]

end DbnFsm
end Dbn
