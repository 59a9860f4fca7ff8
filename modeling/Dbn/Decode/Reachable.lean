import Dbn.Decode.Bulk
import Dbn.Decode.MetadataRuns

/-!
# Reachable machines

The machines that a program can get from a builder with the public operations
of the state machine.  Every operation keeps the invariant.
-/

namespace Dbn
namespace DbnFsm

open Lib

variable {B D : Type} [Buffer B] [CalendarDate D]

/-- The machines that the public operations lead to. -/
inductive Reachable (D : Type) [CalendarDate D] : DbnFsm B -> Prop where
  | build {b : DbnFsmBuilder} {fsm : DbnFsm B} (call : b.build = Res.ok fsm) :
      Reachable D fsm
  | writeSpace {fsm : DbnFsm B} (bytes : List UInt8)
      (before : Reachable D fsm) : Reachable D (fsm.writeSpace bytes)
  | fill {fsm : DbnFsm B} (nbytes : Nat) (before : Reachable D fsm) :
      Reachable D (fsm.fill nbytes)
  | writeAll {fsm : DbnFsm B} (bytes : List UInt8)
      (before : Reachable D fsm) : Reachable D (fsm.writeAll bytes)
  | growCompat {fsm : DbnFsm B} (size : Nat) (before : Reachable D fsm) :
      Reachable D (fsm.growCompat size)
  | reset {fsm : DbnFsm B} (before : Reachable D fsm) : Reachable D fsm.reset
  | skip {fsm : DbnFsm B} (nbytes : Nat) (before : Reachable D fsm) :
      Reachable D (fsm.skip nbytes)
  | setInputDbnVersion {fsm fsm' : DbnFsm B} {version : Nat}
      (before : Reachable D fsm)
      (call : fsm.setInputDbnVersion version = Res.ok fsm') :
      Reachable D fsm'
  | setUpgradePolicy {fsm fsm' : DbnFsm B} {policy : VersionUpgradePolicy}
      (before : Reachable D fsm)
      (call : fsm.setUpgradePolicy policy = Res.ok fsm') : Reachable D fsm'
  | setTsOut {fsm : DbnFsm B} (tsOut : Bool) (before : Reachable D fsm) :
      Reachable D (fsm.setTsOut tsOut)
  | process {fsm fsm' : DbnFsm B} {res : ProcessResult D Unit}
      (before : Reachable D fsm) (call : fsm.process = .ret (res, fsm')) :
      Reachable D fsm'
  | processMultiple {fsm fsm' : DbnFsm B} {buf : RecRefBuf}
      {res : ProcessResult D Nat} {recs : List RecordRef}
      (before : Reachable D fsm)
      (call : fsm.processMultiple buf = .ret (res, recs, fsm')) :
      Reachable D fsm'

/-!
## Calls outside of the record phase
-/

section Metadata

variable {fsm fsm' : DbnFsm B}

theorem state_of_decodePrelude (h : fsm.decodePrelude = (Res.ok (), fsm')) :
    exists length, fsm'.state = .metadata length := by
  unfold decodePrelude at h
  dsimp only at h
  split at h
  · cases h
  · cases h
  · split at h
    · cases h
    · cases h
    · cases h
      exact ⟨_, rfl⟩

/-- In the metadata phase a bulk call does what a single call does. -/
theorem processLoop_of_processMultipleLoop {buf : RecRefBuf} {length : Nat}
    {res : ProcessResult D Nat} {recs : List RecordRef}
    (hstate : fsm.state = .metadata length) {fuel : Nat} (fuel' : Nat)
    (h : fsm.processMultipleLoop buf (fuel + 1) = .ret (res, recs, fsm')) :
    exists res', fsm.processLoop (D := D) (fuel' + 1) = .ret (res', fsm') := by
  rw [processMultipleLoop] at h
  rw [processLoop]
  simp only [hstate] at h
  simp only [processRound, hstate]
  split at h
  · next hshort =>
      cases h
      rw [if_pos hshort]
      exact ⟨_, rfl⟩
  · next hshort =>
      rw [if_neg hshort]
      cases hdecode : fsm.decodeMetadata (D := D) length with
      | mk r fsm1 =>
          rw [hdecode] at h
          cases r with
          | ok m =>
              cases h
              exact ⟨_, rfl⟩
          | err e =>
              cases h
              exact ⟨_, rfl⟩
          | panic p => cases h

/-- Before the record phase a bulk call does what a single call does. -/
theorem process_of_processMultiple {buf : RecRefBuf}
    {res : ProcessResult D Nat} {recs : List RecordRef}
    (hphase : ¬ fsm.RecordPhase)
    (h : fsm.processMultiple buf = .ret (res, recs, fsm')) :
    exists res', fsm.process (D := D) = .ret (res', fsm') := by
  cases hstate : fsm.state with
  | metadata length => exact processLoop_of_processMultipleLoop hstate 3 h
  | record => exact absurd (recordPhase_iff.mpr (Or.inl hstate)) hphase
  | consume read compat compatFill expandCompat =>
      exact absurd (recordPhase_iff.mpr (Or.inr ⟨_, _, _, _, hstate⟩)) hphase
  | prelude =>
      unfold processMultiple at h
      unfold process
      rw [processMultipleLoop] at h
      rw [processLoop]
      simp only [hstate] at h
      simp only [processRound, hstate]
      split at h
      · next hshort =>
          cases h
          rw [if_pos hshort]
          exact ⟨_, rfl⟩
      · next hshort =>
          rw [if_neg hshort]
          cases hdecode : fsm.decodePrelude with
          | mk r fsm1 =>
              rw [hdecode] at h
              cases r with
              | ok _ =>
                  obtain ⟨length, hmeta⟩ := state_of_decodePrelude hdecode
                  exact processLoop_of_processMultipleLoop hmeta 2 h
              | err e =>
                  cases h
                  exact ⟨_, rfl⟩
              | panic p => cases h

/-!
## The invariant
-/

theorem inv_processLoop_metadata {res : ProcessResult D Unit}
    {length fuel : Nat} (hinv : fsm.Inv) (hstate : fsm.state = .metadata length)
    (h : fsm.processLoop (fuel + 1) = .ret (res, fsm')) : fsm'.Inv := by
  have hfields := hinv
  unfold Inv at hfields
  rw [hstate] at hfields
  obtain ⟨hcompat, hsupported, hsome⟩ := hfields
  obtain ⟨version, hversion⟩ := Option.ne_none_iff_exists'.mp hsome
  by_cases hshort : (Buffer.data fsm.buffer).length < length
  · rw [processLoop_metadata_short hstate hshort] at h
    cases h
    exact hinv
  · rw [processLoop_metadata hstate hversion (Nat.not_lt.mp hshort)] at h
    split at h
    · cases h
      exact ⟨hcompat, hsupported⟩
    · cases h
      exact hinv
    · cases h

variable [LawfulBuffer B]

theorem inv_process {res : ProcessResult D Unit} (hinv : fsm.Inv)
    (h : fsm.process = .ret (res, fsm')) : fsm'.Inv := by
  by_cases hphase : fsm.RecordPhase
  · cases hitem : fsm.nextItem with
    | needMore n =>
        rw [process_needMore hphase hitem] at h
        cases h
        exact inv_settle hinv
    | invalid e =>
        rw [process_invalid hphase hitem] at h
        cases h
        exact inv_settle hinv
    | truncated =>
        rw [process_truncated hinv hphase hitem] at h
        cases h
    | record image version =>
        obtain ⟨fsm1, hret, hout⟩ := process_record (D := D) hinv hphase hitem
        rw [hret] at h
        cases h
        unfold nextItem at hitem
        refine hout.inv ?_ (supportedVersion_next
          (hinv.supportedVersion hphase) hitem)
        rw [data_buffer_settle hphase]
        exact complete_of_next_record hitem
  cases hstate : fsm.state with
  | metadata length => exact inv_processLoop_metadata hinv hstate h
  | record => exact absurd (recordPhase_iff.mpr (Or.inl hstate)) hphase
  | consume read compat compatFill expandCompat =>
      exact absurd (recordPhase_iff.mpr (Or.inr ⟨_, _, _, _, hstate⟩)) hphase
  | prelude =>
      by_cases hshort : (Buffer.data fsm.buffer).length < metadataPreludeLen
      · rw [process_prelude_short hstate hshort] at h
        cases h
        exact hinv
      by_cases haccept : exists version length, AcceptsPrelude
          fsm.upgradePolicy (Buffer.data fsm.buffer) version length
      · obtain ⟨version, length, haccept⟩ := haccept
        obtain ⟨fsm1, hdone, hprocess⟩ :=
          process_prelude_accepts (D := D) hstate haccept
        rw [hprocess] at h
        exact inv_processLoop_metadata (hdone.holds hinv hstate haccept).inv
          hdone.state h
      · obtain ⟨e, version, hprocess⟩ := process_prelude_rejects (D := D)
          hstate (Nat.not_lt.mp hshort) (fun v l hv => haccept ⟨v, l, hv⟩)
        rw [hprocess] at h
        cases h
        unfold Inv at hinv ⊢
        rw [hstate] at hinv
        simpa [hstate] using hinv

theorem inv_processMultiple {buf : RecRefBuf} {res : ProcessResult D Nat}
    {recs : List RecordRef} (hinv : fsm.Inv)
    (h : fsm.processMultiple buf = .ret (res, recs, fsm')) : fsm'.Inv := by
  by_cases hphase : fsm.RecordPhase
  swap
  · obtain ⟨res', hret⟩ := process_of_processMultiple hphase h
    exact inv_process hinv hret
  obtain ⟨s, hvisit, hend⟩ := exists_bulkVisits_end fsm buf
  have hanswers := processMultiple_answers (D := D) hinv hphase hvisit hend
  rw [h] at hanswers
  cases hitem : fsm.bulkItem buf s with
  | record s' => exact absurd hitem (hend s')
  | stop =>
      rw [hitem] at hanswers
      obtain ⟨_, _, hret, hdone, _⟩ := hanswers
      cases hret
      exact hdone.inv
  | invalid e =>
      rw [hitem] at hanswers
      obtain ⟨_, _, hret, hdone, _⟩ := hanswers
      cases hret
      exact hdone.inv
  | truncated =>
      rw [hitem] at hanswers
      cases hanswers
  | noSpace v =>
      rw [hitem] at hanswers
      obtain ⟨_, _, hret, hdone, _⟩ := hanswers
      cases hret
      exact hdone.inv

end Metadata

section Operations

variable [LawfulBuffer B] {fsm fsm' : DbnFsm B}

theorem inv_growCompat (h : fsm.Inv) (size : Nat) :
    (fsm.growCompat size).Inv := by
  have hspace : Buffer.availableSpace fsm.compatBuffer ≤
      Buffer.availableSpace (Buffer.grow fsm.compatBuffer size) := by
    simp only [Buffer.availableSpace_eq, LawfulBuffer.capacity_grow,
      LawfulBuffer.position_grow, LawfulBuffer.data_grow]
    omega
  unfold Inv at h ⊢
  unfold growCompat
  dsimp only
  cases hstate : fsm.state with
  | prelude => simpa [hstate] using h
  | metadata length => simpa [hstate] using h
  | record => simpa [hstate] using h
  | consume read compat compatFill expandCompat =>
      simp only [hstate, LawfulBuffer.data_grow] at h ⊢
      exact ⟨h.1, h.2.1, Nat.le_trans h.2.2.1 hspace, h.2.2.2⟩

theorem inv_skip (h : fsm.Inv) (nbytes : Nat) : (fsm.skip nbytes).Inv := by
  have hsettle := inv_settle h
  have hstate : forall read compat compatFill expandCompat,
      fsm.settle.state ≠ .consume read compat compatFill expandCompat := by
    intro read compat compatFill expandCompat hcons
    have hphase : fsm.settle.RecordPhase :=
      recordPhase_iff.mpr (Or.inr ⟨_, _, _, _, hcons⟩)
    rw [state_settle ((appends_settle h).recordPhase.mp hphase)] at hcons
    cases hcons
  unfold Inv at hsettle ⊢
  unfold skip
  dsimp only
  cases hsettled : fsm.settle.state with
  | prelude => simpa [hsettled] using hsettle
  | metadata length => simpa [hsettled] using hsettle
  | record => simpa [hsettled] using hsettle
  | consume read compat compatFill expandCompat =>
      exact absurd hsettled (hstate _ _ _ _)

omit [LawfulBuffer B] in
theorem inv_setInputDbnVersion {version : Nat} (h : fsm.Inv)
    (hset : fsm.setInputDbnVersion version = Res.ok fsm') : fsm'.Inv := by
  obtain ⟨v, _, hset⟩ := Res.bind_eq_ok.mp hset
  obtain ⟨_, _, heq⟩ := Res.bind_eq_ok.mp hset
  cases heq
  have hversion : SupportedVersion (some v.val) := by
    intro w hw
    cases hw
    exact v.property.2
  unfold Inv at h ⊢
  dsimp only
  cases hstate : fsm.state with
  | prelude => simpa [hstate] using h
  | metadata length =>
      simp only [hstate] at h ⊢
      exact ⟨h.1, hversion, by simp⟩
  | record =>
      simp only [hstate] at h ⊢
      exact ⟨h.1, hversion⟩
  | consume read compat compatFill expandCompat =>
      simp only [hstate] at h ⊢
      exact ⟨h.1, h.2.1, h.2.2.1, hversion⟩

omit [LawfulBuffer B] in
theorem inv_setUpgradePolicy {policy : VersionUpgradePolicy} (h : fsm.Inv)
    (hset : fsm.setUpgradePolicy policy = Res.ok fsm') : fsm'.Inv := by
  obtain ⟨_, _, heq⟩ := Res.bind_eq_ok.mp hset
  cases heq
  exact h

/-- Every reachable machine satisfies the invariant. -/
theorem Reachable.inv (h : Reachable D fsm) : fsm.Inv := by
  induction h with
  | build call => exact inv_build call
  | writeSpace bytes _ ih => exact inv_with_buffer ih (by simp)
  | fill nbytes _ ih =>
      refine inv_with_buffer ih ?_
      rw [LawfulBuffer.data_fill, List.length_append]
      omega
  | writeAll bytes _ ih => exact (appends_writeAll ih bytes).inv
  | growCompat size _ ih => exact inv_growCompat ih size
  | reset _ _ => exact LawfulBuffer.data_reset _
  | skip nbytes _ ih => exact inv_skip ih nbytes
  | setInputDbnVersion _ call ih => exact inv_setInputDbnVersion ih call
  | setUpgradePolicy _ call ih => exact inv_setUpgradePolicy ih call
  | setTsOut tsOut _ ih => exact ih
  | process _ call ih => exact inv_process ih call
  | processMultiple _ call ih => exact inv_processMultiple ih call

end Operations

/-!
## Streams without metadata
-/

/-- The builder for a stream without metadata, with no compatibility buffer. -/
def fragmentBuilder (version : Option DbnVersion)
    (policy : VersionUpgradePolicy) : DbnFsmBuilder where
  inputDbnVersion := version
  upgradePolicy := policy
  tsOut := false
  skipMetadata := true
  bufferSize := defaultBufSize
  compatSize := some 0

/-- A machine for a stream without metadata, with some bytes buffered. -/
def fragment (version : Option DbnVersion) (policy : VersionUpgradePolicy)
    (bytes : List UInt8) : DbnFsm VecBuffer :=
  DbnFsm.writeAll
    { inputDbnVersion := version.map Subtype.val
      upgradePolicy := policy
      tsOut := false
      state := .record
      buffer := Buffer.withCapacity defaultBufSize
      compatBuffer := Buffer.withCapacity 0 }
    bytes

theorem reachable_fragment {version : Option DbnVersion}
    {policy : VersionUpgradePolicy}
    (h : (fragmentBuilder version policy).checkVersion = Res.ok ())
    (bytes : List UInt8) : Reachable D (fragment version policy bytes) := by
  refine Reachable.writeAll bytes
    (Reachable.build (b := fragmentBuilder version policy) ?_)
  unfold DbnFsmBuilder.build
  rw [h]
  rfl

end DbnFsm
end Dbn
