import Dbn.Decode.Representation
import Dbn.Decode.WellFormedRecords
import Dbn.Lib.Rounds

/-!
# The loop of `process` ends

The loop has no counter.  It goes from the prelude to the metadata and from a
deferred `consume` to a record, and it stays at a record while it grows the
compatibility buffer.  Growing twice leaves more space than the longest record
needs.
-/

namespace Dbn
namespace DbnFsm

open Lib

variable {B D : Type} [Buffer B] [CalendarDate D]

/-- A round of the loop: the next machine, or what the call ends with. -/
def processStep (D : Type) [CalendarDate D] (fsm : DbnFsm B) :
    Sum (DbnFsm B) (Outcome (ProcessResult D Unit × DbnFsm B)) :=
  match (fsm.processRound : Round D B) with
  | .again fsm' => Sum.inl fsm'
  | .done res fsm' => Sum.inr (.ret (res, fsm'))
  | .panicked p => Sum.inr (.panic p)

/-- How often the compatibility buffer is grown for a record at most. -/
def growths (fsm : DbnFsm B) : Nat :=
  if maxRecordLen < Buffer.availableSpace fsm.compatBuffer then 0
  else if maxRecordLen <
      Buffer.availableSpace fsm.doubleCompatBuffer.compatBuffer then 1
  else 2

/-- The rounds that are left: the order of the states, and in the `record`
state the space that the compatibility buffer lacks. -/
def roundsLeft (fsm : DbnFsm B) : Nat :=
  match fsm.state with
  | .metadata _ => 0
  | .prelude => 1
  | .record => fsm.growths
  | .consume _ _ _ _ => 3

/-!
## What a round leads to
-/

section Steps

variable {fsm fsm' : DbnFsm B}

theorem processLoop_eq_upTo (fuel : Nat) (fsm : DbnFsm B) :
    fsm.processLoop (D := D) fuel =
      (Rounds.upTo (processStep D) fuel fsm).getD .timeout := by
  induction fuel generalizing fsm with
  | zero => rfl
  | succ fuel ih =>
      unfold processLoop Rounds.upTo processStep
      cases (fsm.processRound : Round D B) with
      | again fsm' => exact ih fsm'
      | done res fsm' => rfl
      | panicked p => rfl

theorem processStep_eq_inl :
    processStep D fsm = Sum.inl fsm' <->
      (fsm.processRound : Round D B) = .again fsm' := by
  unfold processStep
  cases (fsm.processRound : Round D B) with
  | again other =>
      constructor
      · intro h
        rw [Sum.inl.inj h]
      · intro h
        cases h
        rfl
  | done res other =>
      constructor
      · intro h
        cases h
      · intro h
        cases h
  | panicked p =>
      constructor
      · intro h
        cases h
      · intro h
        cases h

/-- An upgrade fails only for lack of space. -/
theorem compatLen_le_of_upgradeRecordTo {c : Conversion} {tsOut : Bool}
    {compatLen : Nat} {input : RecordRef} {written : List UInt8}
    (h : upgradeRecordTo c tsOut compatLen input = .ok ⟨written, none⟩) :
    compatLen ≤ maxRecordLen := by
  unfold upgradeRecordTo at h
  split at h
  · cases h
  · cases h
  · next rec _ =>
      dsimp only at h
      split at h
      · next hsize =>
          exact Nat.le_trans hsize (Conversion.length_upgraded_le _ _ _).2
      · cases h

theorem compatLen_le_of_upgradeRecord {version version' : Option Nat}
    {policy : VersionUpgradePolicy} {tsOut : Bool} {rec : List UInt8}
    {compatLen : Nat} {written : List UInt8}
    (h : upgradeRecord version policy tsOut rec compatLen =
      .ok (version', ⟨written, none⟩)) : compatLen ≤ maxRecordLen := by
  cases version with
  | some v =>
      unfold upgradeRecord upgradeRecordWithVersion at h
      dsimp only at h
      cases hfor : conversionFor v policy (rtypeOf rec) with
      | some c =>
          rw [hfor] at h
          dsimp only at h
          cases hto : upgradeRecordTo c tsOut compatLen ⟨rec⟩ with
          | error p =>
              rw [hto] at h
              cases h
          | ok res =>
              rw [hto] at h
              cases h
              exact compatLen_le_of_upgradeRecordTo hto
      | none =>
          rw [hfor] at h
          dsimp only at h
          split at h
          · cases h
          · cases h
  | none =>
      unfold upgradeRecord upgradeRecordDetectVersion at h
      dsimp only at h
      cases hdetect : detectConversion (rtypeOf rec) policy
          (recordSize rec) with
      | some found =>
          rw [hdetect] at h
          dsimp only at h
          cases hto : upgradeRecordTo found.1 tsOut compatLen ⟨rec⟩ with
          | error p =>
              rw [hto] at h
              cases h
          | ok res =>
              rw [hto] at h
              cases h
              exact compatLen_le_of_upgradeRecordTo hto
      | none =>
          rw [hdetect] at h
          cases h

/-- At a record the loop goes on with a larger compatibility buffer, if it is
too small for the longest record. -/
theorem again_of_record (hstate : fsm.state = .record)
    (h : (fsm.processRound : Round D B) = .again fsm') :
    Buffer.availableSpace fsm.compatBuffer ≤ maxRecordLen ∧
      exists version, fsm' = fsm.expanded version := by
  rw [processRound_record hstate] at h
  unfold processRecord at h
  dsimp only at h
  split at h
  · cases h
  · split at h
    · cases h
    · split at h
      · cases h
      · split at h
        · cases h
        · next version written hup =>
            cases h
            exact ⟨compatLen_le_of_upgradeRecord hup, version, rfl⟩
        · cases h

theorem again_of_prelude (hstate : fsm.state = .prelude)
    (h : (fsm.processRound : Round D B) = .again fsm') :
    exists length, fsm'.state = .metadata length := by
  unfold processRound at h
  rw [hstate] at h
  dsimp only at h
  split at h
  · cases h
  · split at h
    · next hdecode =>
        cases h
        exact state_of_decodePrelude hdecode
    · cases h
    · cases h

theorem not_again_of_metadata {length : Nat}
    (hstate : fsm.state = .metadata length) :
    (fsm.processRound : Round D B) ≠ .again fsm' := by
  intro h
  unfold processRound at h
  rw [hstate] at h
  dsimp only at h
  split at h
  · cases h
  · split at h
    · cases h
    · cases h
    · cases h

theorem again_of_consume {read compat compatFill : Nat} {expandCompat : Bool}
    (hstate : fsm.state = .consume read compat compatFill expandCompat)
    (h : (fsm.processRound : Round D B) = .again fsm') :
    fsm' = fsm.settle := by
  unfold processRound at h
  rw [hstate] at h
  cases h
  rw [settle_eq_consume hstate]

end Steps

/-!
## The measure decreases
-/

section Measure

variable {fsm fsm' : DbnFsm B}

omit [CalendarDate D] in
theorem growths_le (fsm : DbnFsm B) : fsm.growths ≤ 2 := by
  unfold growths
  split
  · exact Nat.zero_le 2
  · split
    · exact Nat.le_succ 1
    · exact Nat.le_refl 2

variable [LawfulBuffer B]

omit [CalendarDate D] in
/-- Growing once more is needed less often. -/
theorem growths_expanded_lt {version : Option Nat}
    (h : Buffer.availableSpace fsm.compatBuffer ≤ maxRecordLen) :
    (fsm.expanded version).growths < fsm.growths := by
  have htwice : maxRecordLen < Buffer.availableSpace
      (fsm.expanded version).doubleCompatBuffer.compatBuffer :=
    space_expanded_twice
  unfold growths
  rw [if_neg (Nat.not_lt.mpr h), if_pos htwice]
  by_cases honce : maxRecordLen <
      Buffer.availableSpace fsm.doubleCompatBuffer.compatBuffer
  · rw [if_pos honce, if_pos]
    · exact Nat.lt_succ_self 0
    · exact honce
  · rw [if_neg honce, if_neg]
    · exact Nat.lt_succ_self 1
    · exact honce

omit [LawfulBuffer B] in
theorem roundsLeft_le (fsm : DbnFsm B) : fsm.roundsLeft ≤ 3 := by
  unfold roundsLeft
  cases fsm.state with
  | prelude => exact Nat.le_add_left 1 2
  | metadata length => exact Nat.zero_le 3
  | record => exact Nat.le_succ_of_le fsm.growths_le
  | consume read compat compatFill expandCompat => exact Nat.le_refl 3

theorem roundsLeft_lt (h : processStep D fsm = Sum.inl fsm') :
    fsm'.roundsLeft < fsm.roundsLeft := by
  rw [processStep_eq_inl] at h
  cases hstate : fsm.state with
  | prelude =>
      rcases again_of_prelude hstate h with ⟨length, hnext⟩
      unfold roundsLeft
      rw [hstate, hnext]
      exact Nat.zero_lt_one
  | metadata length => exact absurd h (not_again_of_metadata hstate)
  | record =>
      rcases again_of_record hstate h with ⟨hspace, version, rfl⟩
      have hlt : (fsm.expanded version).growths < fsm.growths :=
        growths_expanded_lt hspace
      have hnext : (fsm.expanded version).state = .record := hstate
      unfold roundsLeft
      rw [hstate, hnext]
      exact hlt
  | consume read compat compatFill expandCompat =>
      have hphase : fsm.RecordPhase :=
        recordPhase_iff.mpr (Or.inr ⟨_, _, _, _, hstate⟩)
      rw [again_of_consume hstate h]
      unfold roundsLeft
      rw [hstate, state_settle hphase]
      exact Nat.lt_succ_of_le fsm.settle.growths_le

end Measure

/-!
## The loop
-/

/-- What the loop does when it stays at a record. -/
structure Retries (D : Type) [CalendarDate D] (fsm : DbnFsm B) : Prop where
  empty : Buffer.data fsm.compatBuffer = []
  doubles : forall fsm', processStep D fsm = Sum.inl fsm' ->
    fsm'.state = .record ∧
      fsm'.compatBuffer = fsm.doubleCompatBuffer.compatBuffer
  fits : forall fsm1 fsm2, processStep D fsm = Sum.inl fsm1 ->
    processStep D fsm1 = Sum.inl fsm2 ->
      forall (c : Conversion) (tsOut : Bool) (rec : List UInt8),
        (c.upgraded tsOut rec).length ≤ maxRecordLen ∧
          (c.upgraded tsOut rec).length <
            Buffer.availableSpace fsm2.compatBuffer
  ends : forall fsm1 fsm2 fsm3, processStep D fsm = Sum.inl fsm1 ->
    processStep D fsm1 = Sum.inl fsm2 -> processStep D fsm2 ≠ Sum.inl fsm3

/-- What holds in front of every round of a call. -/
def LoopInv (fsm : DbnFsm B) : Prop :=
  fsm.Inv ∨ (fsm.state = .record ∧ Buffer.data fsm.compatBuffer = []) ∨
    exists length, fsm.state = .metadata length

section Loop

variable [LawfulBuffer B] {fsm fsm' : DbnFsm B}

omit [CalendarDate D] [LawfulBuffer B] in
theorem LoopInv.compat_nil (h : fsm.LoopInv) (hstate : fsm.state = .record) :
    Buffer.data fsm.compatBuffer = [] := by
  rcases h with hinv | hrecord | hmetadata
  · exact hinv.compat_nil hstate
  · exact hrecord.2
  · rcases hmetadata with ⟨length, hmetadata⟩
    cases hstate.symm.trans hmetadata

theorem LoopInv.next (h : fsm.LoopInv)
    (hstep : processStep D fsm = Sum.inl fsm') : fsm'.LoopInv := by
  rw [processStep_eq_inl] at hstep
  cases hstate : fsm.state with
  | prelude => exact Or.inr (Or.inr (again_of_prelude hstate hstep))
  | metadata length => exact absurd hstep (not_again_of_metadata hstate)
  | record =>
      rcases again_of_record hstate hstep with ⟨_, version, rfl⟩
      apply Or.inr
      apply Or.inl
      constructor
      · exact hstate
      · exact (LawfulBuffer.data_grow _ _).trans (h.compat_nil hstate)
  | consume read compat compatFill expandCompat =>
      have hphase : fsm.RecordPhase :=
        recordPhase_iff.mpr (Or.inr ⟨_, _, _, _, hstate⟩)
      rw [again_of_consume hstate hstep]
      rcases h with hinv | hrecord | hmetadata
      · exact Or.inl (inv_settle hinv)
      · cases hstate.symm.trans hrecord.1
      · rcases hmetadata with ⟨length, hmetadata⟩
        cases hstate.symm.trans hmetadata

theorem LoopInv.retries (h : fsm.LoopInv) (hstate : fsm.state = .record) :
    fsm.Retries D := by
  have htwice : forall fsm1 fsm2, processStep D fsm = Sum.inl fsm1 ->
      processStep D fsm1 = Sum.inl fsm2 -> fsm2.state = .record ∧
        maxRecordLen < Buffer.availableSpace fsm2.compatBuffer := by
    intro fsm1 fsm2 h1 h2
    rw [processStep_eq_inl] at h1 h2
    rcases again_of_record hstate h1 with ⟨_, version, rfl⟩
    have hstate1 : (fsm.expanded version).state = .record := hstate
    rcases again_of_record hstate1 h2 with ⟨_, version', rfl⟩
    constructor
    · exact hstate
    · exact space_expanded_twice
  constructor
  · exact h.compat_nil hstate
  · intro fsm1 h1
    rw [processStep_eq_inl] at h1
    rcases again_of_record hstate h1 with ⟨_, version, rfl⟩
    exact ⟨hstate, rfl⟩
  · intro fsm1 fsm2 h1 h2 c tsOut rec
    have hmax := (Conversion.length_upgraded_le c tsOut rec).2
    exact ⟨hmax, Nat.lt_of_le_of_lt hmax (htwice fsm1 fsm2 h1 h2).2⟩
  · intro fsm1 fsm2 fsm3 h1 h2 h3
    rw [processStep_eq_inl] at h3
    have h2 := htwice fsm1 fsm2 h1 h2
    exact Nat.not_le.mpr h2.2 (again_of_record h2.1 h3).1

omit [LawfulBuffer B] in
theorem ne_timeout_of_ends {out : Outcome (ProcessResult D Unit × DbnFsm B)}
    (h : Rounds.Ends (processStep D) fsm out) : out ≠ .timeout := by
  induction h with
  | last ended =>
      unfold processStep at ended
      split at ended
      · cases ended
      · cases ended
        intro h
        cases h
      · cases ended
        intro h
        cases h
  | next _ _ ih => exact ih

/-- The loop of a call is over after at most four rounds. -/
theorem exists_upTo_process (fsm : DbnFsm B) :
    exists out, fsm.process (D := D) = out ∧ forall fuel, 4 ≤ fuel ->
      Rounds.upTo (processStep D) fuel fsm = some out := by
  have hdecreases : forall s s' : DbnFsm B, processStep D s = Sum.inl s' ->
      s'.roundsLeft < s.roundsLeft := by
    intro s s' h
    exact roundsLeft_lt h
  rcases Rounds.exists_upTo hdecreases
    (Nat.lt_succ_of_le fsm.roundsLeft_le) with ⟨out, hout⟩
  exists out
  constructor
  · unfold process
    rw [processLoop_eq_upTo, hout]
    rfl
  · intro fuel hle
    exact Rounds.upTo_mono hle hout

/-- The loop of `process` ends in every reachable machine, and the retries
after a failed upgrade are few. -/
theorem process_terminates (h : Reachable D fsm) :
    Rounds.Terminates (processStep D) fsm ∧
    Rounds.Ends (processStep D) fsm fsm.process ∧
    fsm.process (D := D) ≠ .timeout ∧
    (forall fuel, 4 ≤ fuel ->
      fsm.processLoop (D := D) fuel = fsm.process) ∧
    forall fsm', Rounds.Passes (processStep D) fsm fsm' ->
      fsm'.state = .record -> fsm'.Retries D := by
  rcases exists_upTo_process (D := D) fsm with ⟨out, hprocess, hout⟩
  have hends : Rounds.Ends (processStep D) fsm fsm.process := by
    rw [hprocess]
    exact Rounds.ends_of_upTo (hout 4 (Nat.le_refl 4))
  constructor
  · exact hends.terminates
  constructor
  · exact hends
  constructor
  · exact ne_timeout_of_ends hends
  constructor
  · intro fuel hle
    rw [processLoop_eq_upTo, hout fuel hle, hprocess]
    rfl
  · intro fsm' hpasses hstate
    have hinv : fsm'.LoopInv :=
      hpasses.invariant (Or.inl h.inv) (fun _ _ hinv => hinv.next)
    exact hinv.retries hstate

end Loop

/-- A system message that is upgraded, with no compatibility buffer yet. -/
theorem process_terminates_heartbeat :
    Rounds.Terminates (processStep GregorianDate)
      (fragment (some ⟨1, by decide⟩) .upgradeToV3 heartbeatV1) ∧
    Rounds.Ends (processStep GregorianDate)
      (fragment (some ⟨1, by decide⟩) .upgradeToV3 heartbeatV1)
      (fragment (some ⟨1, by decide⟩) .upgradeToV3 heartbeatV1).process := by
  have hreach : Reachable GregorianDate (fragment (some ⟨1, by decide⟩)
      .upgradeToV3 heartbeatV1) := reachable_fragment rfl heartbeatV1
  exact ⟨(process_terminates hreach).1, (process_terminates hreach).2.1⟩

end DbnFsm
end Dbn
