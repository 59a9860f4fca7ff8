import Dbn.Decode.Runs
import Dbn.Lib.Bisimulation

/-!
# Machines after a reset

Two machines are interchangeable when they agree on what `process` looks at:
the phase, the unprocessed data, the policy and, once they matter, the version
and the timestamp flag.  Neither the capacities nor the compatibility buffer
are looked at by a caller.  A machine that was reset is interchangeable with a
new one.
-/

namespace Dbn
namespace DbnFsm

open Lib

variable {B D : Type} [Buffer B] [CalendarDate D]

/-- What a consumer of a stream calls. -/
inductive Call where
  | writeAll (chunk : List UInt8)
  | process

/-- A result of `process` with the bytes of the record that it refers to. -/
def answer (fsm : DbnFsm B) :
    ProcessResult D Unit -> ProcessResult D (Option (List UInt8))
  | .readMore n => .readMore n
  | .metadata m => .metadata m
  | .record () => .record fsm.lastBytes
  | .err e => .err e

/-- One call; only `process` has a result. -/
def call (c : Call) (fsm : DbnFsm B) :
    Outcome (Option (ProcessResult D (Option (List UInt8))) × DbnFsm B) :=
  match c with
  | .writeAll chunk => .ret (none, fsm.writeAll chunk)
  | .process => do
      let (res, fsm) ← fsm.process
      .ret (some (fsm.answer res), fsm)

/-- The results of `process` in a list of calls. -/
def results (D : Type) [CalendarDate D] (calls : List Call) (fsm : DbnFsm B) :
    List (Outcome (Option (ProcessResult D (Option (List UInt8))))) :=
  answers call calls fsm

/-!
## Interchangeable machines
-/

/-- The machines agree on what `process` looks at. -/
structure Agrees (fsm fsm' : DbnFsm B) : Prop where
  upgradePolicy : fsm.upgradePolicy = fsm'.upgradePolicy
  data : fsm.data = fsm'.data
  recordPhase : fsm.RecordPhase <-> fsm'.RecordPhase
  state : ¬ fsm.RecordPhase -> fsm.state = fsm'.state
  -- the prelude sets the version, the metadata the flag
  version : fsm.state ≠ .prelude ->
    fsm.inputDbnVersion = fsm'.inputDbnVersion
  tsOut : fsm.RecordPhase -> fsm.tsOut = fsm'.tsOut

/-- The machines agree and are in order. -/
structure Interchangeable (fsm fsm' : DbnFsm B) : Prop where
  left : fsm.Inv
  right : fsm'.Inv
  agrees : fsm.Agrees fsm'

omit [Buffer B] in
theorem not_prelude_of_recordPhase {fsm : DbnFsm B} (h : fsm.RecordPhase) :
    fsm.state ≠ .prelude := by
  intro hstate
  unfold RecordPhase hasDecodedMetadata at h
  rw [hstate] at h
  cases h

section Agrees

variable {fsm fsm' fsm1 fsm1' : DbnFsm B} {bytes : List UInt8}

theorem Agrees.nextItem (h : fsm.Agrees fsm') (hphase : fsm.RecordPhase) :
    fsm.nextItem = fsm'.nextItem := by
  unfold DbnFsm.nextItem
  rw [h.upgradePolicy, h.tsOut hphase, h.data,
    h.version (not_prelude_of_recordPhase hphase)]

theorem Agrees.data_buffer (h : fsm.Agrees fsm') (hphase : ¬ fsm.RecordPhase) :
    Buffer.data fsm.buffer = Buffer.data fsm'.buffer := by
  have hphase' : ¬ fsm'.RecordPhase := by rwa [← h.recordPhase]
  rw [← data_of_not_recordPhase hphase, ← data_of_not_recordPhase hphase',
    h.data]

/-- Machines that agree still do after the same bytes were appended. -/
theorem Agrees.of_appends (h : fsm.Agrees fsm')
    (happ : fsm.Appends bytes fsm1) (happ' : fsm'.Appends bytes fsm1') :
    fsm1.Agrees fsm1' where
  upgradePolicy := by
    rw [happ.upgradePolicy, happ'.upgradePolicy, h.upgradePolicy]
  data := by rw [happ.data, happ'.data, h.data]
  recordPhase := by
    rw [happ.recordPhase, happ'.recordPhase, h.recordPhase]
  state := by
    intro hphase
    rw [happ.recordPhase] at hphase
    have hphase' : ¬ fsm'.RecordPhase := by rwa [← h.recordPhase]
    rw [happ.state hphase, happ'.state hphase', h.state hphase]
  version := by
    intro hprelude
    rw [happ.inputDbnVersion, happ'.inputDbnVersion]
    apply h.version
    intro hstate
    apply hprelude
    rw [happ.state (fun hphase => not_prelude_of_recordPhase hphase hstate),
      hstate]
  tsOut := by
    intro hphase
    rw [happ.tsOut, happ'.tsOut]
    exact h.tsOut (happ.recordPhase.mp hphase)

/-- In the record phase it is enough to agree on the abstract state. -/
theorem agrees_of_recordPhase (hphase : fsm.RecordPhase)
    (hphase' : fsm'.RecordPhase)
    (hpolicy : fsm.upgradePolicy = fsm'.upgradePolicy)
    (hdata : fsm.data = fsm'.data) (htsOut : fsm.tsOut = fsm'.tsOut)
    (hversion : fsm.inputDbnVersion = fsm'.inputDbnVersion) :
    fsm.Agrees fsm' where
  upgradePolicy := hpolicy
  data := hdata
  recordPhase := ⟨fun _ => hphase', fun _ => hphase⟩
  state := fun h => absurd hphase h
  version := fun _ => hversion
  tsOut := fun _ => htsOut

/-- Before the record phase the state and the buffered bytes matter. -/
theorem agrees_of_state (hphase : ¬ fsm.RecordPhase)
    (hstate : fsm.state = fsm'.state)
    (hpolicy : fsm.upgradePolicy = fsm'.upgradePolicy)
    (hdata : Buffer.data fsm.buffer = Buffer.data fsm'.buffer)
    (hversion : fsm.state ≠ .prelude ->
      fsm.inputDbnVersion = fsm'.inputDbnVersion) :
    fsm.Agrees fsm' := by
  have hiff : fsm.RecordPhase <-> fsm'.RecordPhase := by
    unfold RecordPhase hasDecodedMetadata
    rw [hstate]
  have hphase' : ¬ fsm'.RecordPhase := by rwa [← hiff]
  constructor
  · exact hpolicy
  · rw [data_of_not_recordPhase hphase, data_of_not_recordPhase hphase',
      hdata]
  · exact hiff
  · intro _
    exact hstate
  · exact hversion
  · intro h
    exact absurd h hphase

end Agrees

/-!
## The prelude
-/

/-- The version and the length that a prelude declares, if it is accepted. -/
def readPrelude (policy : VersionUpgradePolicy) (data : List UInt8) :
    Result (Nat × Nat) := do
  let version ← preludeVersion data
  let length ← preludeLength policy version data
  Res.ok (version, length)

omit [CalendarDate D] in
/-- A failure leaves the machine as it was, but for the version. -/
theorem decodePrelude_spec (fsm : DbnFsm B) :
    match readPrelude fsm.upgradePolicy (Buffer.data fsm.buffer) with
    | Res.ok (version, length) =>
        exists fsm', fsm.decodePrelude = (Res.ok (), fsm') ∧
          fsm.PreludeDone version length fsm'
    | Res.err e => exists version, fsm.decodePrelude =
        (Res.err e, { fsm with inputDbnVersion := version })
    | Res.panic p => exists fsm', fsm.decodePrelude = (Res.panic p, fsm') := by
  unfold readPrelude decodePrelude
  cases hversion : preludeVersion (Buffer.data fsm.buffer) with
  | err e =>
      simp only [hversion, Res.err_bind]
      exact ⟨fsm.inputDbnVersion, rfl⟩
  | panic p =>
      simp only [hversion, Res.panic_bind]
      exact ⟨_, rfl⟩
  | ok version =>
      cases hlength : preludeLength fsm.upgradePolicy version
          (Buffer.data fsm.buffer) with
      | err e =>
          simp only [hversion, Res.ok_bind, hlength, Res.err_bind]
          exact ⟨some version, rfl⟩
      | panic p =>
          simp only [hversion, Res.ok_bind, hlength, Res.panic_bind]
          exact ⟨_, rfl⟩
      | ok length =>
          simp only [hversion, Res.ok_bind, hlength]
          split
          · exact ⟨_, rfl, rfl, rfl, rfl, rfl, rfl, Or.inr rfl⟩
          · exact ⟨_, rfl, rfl, rfl, rfl, rfl, rfl, Or.inl rfl⟩

/-!
## One call of `process`
-/

/-- The machines agree and refer to the same last record. -/
structure AgreesLast (fsm fsm' : DbnFsm B) : Prop where
  agrees : fsm.Agrees fsm'
  lastBytes : fsm.lastBytes = fsm'.lastBytes

section Process

variable {fsm fsm' : DbnFsm B}

/-- Only a deferred `consume` refers to a record. -/
theorem lastBytes_of_record (h : fsm.state = .record) :
    fsm.lastBytes = none := by
  unfold lastBytes lastRecord
  rw [h]
  rfl

theorem lastBytes_of_not_recordPhase (h : ¬ fsm.RecordPhase) :
    fsm.lastBytes = none := by
  unfold lastBytes lastRecord
  cases hstate : fsm.state with
  | prelude => rfl
  | metadata length => rfl
  | record => rfl
  | consume read compat compatFill expandCompat =>
      exact absurd (recordPhase_iff.mpr (Or.inr ⟨_, _, _, _, hstate⟩)) h

theorem Agrees.last_of_not_recordPhase (h : fsm.Agrees fsm')
    (hphase : ¬ fsm.RecordPhase) : fsm.AgreesLast fsm' where
  agrees := h
  lastBytes := by
    have hphase' : ¬ fsm'.RecordPhase := by rwa [← h.recordPhase]
    rw [lastBytes_of_not_recordPhase hphase,
      lastBytes_of_not_recordPhase hphase']

theorem Agrees.last_of_record (h : fsm.Agrees fsm')
    (hstate : fsm.state = .record) (hstate' : fsm'.state = .record) :
    fsm.AgreesLast fsm' where
  agrees := h
  lastBytes := by
    rw [lastBytes_of_record hstate, lastBytes_of_record hstate']

variable [LawfulBuffer B]

/-- The metadata block is decoded alike. -/
theorem Agrees.processLoop_metadata {version length : Nat}
    (h : fsm.Agrees fsm') (hstate : fsm.state = .metadata length)
    (hversion : fsm.inputDbnVersion = some version) (fuel fuel' : Nat) :
    AnswersAlike AgreesLast (fsm.processLoop (D := D) (fuel + 1))
      (fsm'.processLoop (fuel' + 1)) := by
  have hphase : ¬ fsm.RecordPhase := by simp [recordPhase_iff, hstate]
  have hstate' : fsm'.state = .metadata length := by
    rw [← h.state hphase, hstate]
  have hversion' : fsm'.inputDbnVersion = some version := by
    rw [← h.version (by simp [hstate]), hversion]
  have hdata := h.data_buffer hphase
  by_cases hshort : (Buffer.data fsm.buffer).length < length
  · rw [processLoop_metadata_short hstate hshort,
      processLoop_metadata_short hstate' (hdata ▸ hshort), hdata]
    exact AnswersAlike.ret (h.last_of_not_recordPhase hphase)
  rw [Nat.not_lt] at hshort
  rw [DbnFsm.processLoop_metadata hstate hversion hshort,
    DbnFsm.processLoop_metadata hstate' hversion' (hdata ▸ hshort), hdata]
  cases decodeMetadataImpl (D := D) version (Buffer.data fsm'.buffer) with
  | err e => exact AnswersAlike.ret (h.last_of_not_recordPhase hphase)
  | panic p => exact AnswersAlike.panic p
  | ok m =>
      dsimp only
      rw [h.upgradePolicy]
      apply AnswersAlike.ret
      refine Agrees.last_of_record ?_ rfl rfl
      have hleft : (fsm.metadataDone length m.tsOut).state = .record := rfl
      have hright : (fsm'.metadataDone length m.tsOut).state = .record := rfl
      apply agrees_of_recordPhase (recordPhase_iff.mpr (Or.inl hleft))
        (recordPhase_iff.mpr (Or.inl hright))
      · exact h.upgradePolicy
      · rw [data_eq_buffer hleft, data_eq_buffer hright]
        simp [metadataDone, hdata]
      · rfl
      · exact hversion.trans hversion'.symm

/-- A decoded prelude leaves machines that agree. -/
theorem Agrees.of_preludeDone {fsm1 fsm1' : DbnFsm B} {version length : Nat}
    (h : fsm.Agrees fsm') (hphase : ¬ fsm.RecordPhase)
    (hdone : fsm.PreludeDone version length fsm1)
    (hdone' : fsm'.PreludeDone version length fsm1') :
    fsm1.Agrees fsm1' := by
  apply agrees_of_state
  · simp [recordPhase_iff, hdone.state]
  · rw [hdone.state, hdone'.state]
  · rw [hdone.upgradePolicy, hdone'.upgradePolicy, h.upgradePolicy]
  · rw [hdone.data_eq, hdone'.data_eq, h.data_buffer hphase]
  · intro _
    rw [hdone.inputDbnVersion, hdone'.inputDbnVersion]

omit [LawfulBuffer B] in
/-- In the prelude the versions need not be the same. -/
theorem Agrees.with_version (h : fsm.Agrees fsm')
    (hstate : fsm.state = .prelude) (v v' : Option Nat) :
    Agrees { fsm with inputDbnVersion := v }
      { fsm' with inputDbnVersion := v' } where
  upgradePolicy := h.upgradePolicy
  data := h.data
  recordPhase := h.recordPhase
  state := h.state
  version := fun hnot => absurd hstate hnot
  tsOut := h.tsOut

/-- What a round does with the result of `decode_prelude`. -/
def preludeRound : Result Unit × DbnFsm B -> Round D B
  | (Res.ok (), fsm) => .again fsm
  | (Res.err e, fsm) => .done (.err e) fsm
  | (Res.panic p, _) => .panicked p

omit [LawfulBuffer B] in
theorem processRound_prelude (hstate : fsm.state = .prelude)
    (hroom : ¬ (Buffer.data fsm.buffer).length < metadataPreludeLen) :
    fsm.processRound = (preludeRound fsm.decodePrelude : Round D B) := by
  simp only [processRound, hstate, Buffer.availableData]
  exact if_neg hroom

theorem Agrees.process_prelude (h : fsm.Agrees fsm')
    (hstate : fsm.state = .prelude) :
    AnswersAlike AgreesLast (fsm.process (D := D)) fsm'.process := by
  have hphase : ¬ fsm.RecordPhase := by simp [recordPhase_iff, hstate]
  have hstate' : fsm'.state = .prelude := by rw [← h.state hphase, hstate]
  have hdata := h.data_buffer hphase
  by_cases hshort : (Buffer.data fsm.buffer).length < metadataPreludeLen
  · rw [process_prelude_short hstate hshort,
      process_prelude_short hstate' (hdata ▸ hshort), hdata]
    exact AnswersAlike.ret (h.last_of_not_recordPhase hphase)
  have hspec := fsm.decodePrelude_spec
  have hspec' := fsm'.decodePrelude_spec
  unfold DbnFsm.process
  rw [processLoop, processLoop, processRound_prelude hstate hshort,
    processRound_prelude hstate' (hdata ▸ hshort)]
  have hsame : readPrelude fsm'.upgradePolicy (Buffer.data fsm'.buffer) =
      readPrelude fsm.upgradePolicy (Buffer.data fsm.buffer) := by
    rw [h.upgradePolicy, hdata]
  rw [hsame] at hspec'
  cases hread : readPrelude fsm.upgradePolicy (Buffer.data fsm.buffer) with
  | err e =>
      rw [hread] at hspec hspec'
      rcases hspec with ⟨v, hdecode⟩
      rcases hspec' with ⟨v', hdecode'⟩
      rw [hdecode, hdecode']
      exact AnswersAlike.ret
        ((h.with_version hstate v v').last_of_not_recordPhase hphase)
  | panic p =>
      rw [hread] at hspec hspec'
      rcases hspec with ⟨fsm1, hdecode⟩
      rcases hspec' with ⟨fsm1', hdecode'⟩
      rw [hdecode, hdecode']
      exact AnswersAlike.panic p
  | ok declared =>
      rw [hread] at hspec hspec'
      rcases hspec with ⟨fsm1, hdecode, hdone⟩
      rcases hspec' with ⟨fsm1', hdecode', hdone'⟩
      rw [hdecode, hdecode']
      exact (h.of_preludeDone hphase hdone hdone').processLoop_metadata
        hdone.state hdone.inputDbnVersion 2 2

theorem Agrees.settle (h : fsm.Agrees fsm') (hphase : fsm.RecordPhase) :
    fsm.settle.AgreesLast fsm'.settle := by
  have hstate := state_settle hphase
  have hstate' := state_settle (h.recordPhase.mp hphase)
  refine Agrees.last_of_record ?_ hstate hstate'
  apply agrees_of_recordPhase (recordPhase_iff.mpr (Or.inl hstate))
    (recordPhase_iff.mpr (Or.inl hstate'))
  · rw [settle_upgradePolicy, settle_upgradePolicy, h.upgradePolicy]
  · rw [data_settle, data_settle, h.data]
  · rw [settle_tsOut, settle_tsOut, h.tsOut hphase]
  · rw [settle_inputDbnVersion, settle_inputDbnVersion,
      h.version (not_prelude_of_recordPhase hphase)]

/-- Machines that agree hand out the same record. -/
theorem Interchangeable.process_record (h : fsm.Interchangeable fsm')
    (hphase : fsm.RecordPhase) {image : List UInt8} {version : Option Nat}
    (hitem : fsm.nextItem = .record image version) :
    AnswersAlike AgreesLast (fsm.process (D := D)) fsm'.process := by
  have hphase' := h.agrees.recordPhase.mp hphase
  have hsettle := (h.agrees.settle hphase).agrees
  have hitem' : fsm'.nextItem = .record image version := by
    rw [← h.agrees.nextItem hphase, hitem]
  rcases DbnFsm.process_record (D := D) h.left hphase hitem with
    ⟨fsm1, hret, hout⟩
  rcases DbnFsm.process_record (D := D) h.right hphase' hitem' with
    ⟨fsm1', hret', hout'⟩
  have hnext : forall {m : DbnFsm B}, m.RecordPhase ->
      m.nextItem = .record image version ->
      next m.settle.upgradePolicy m.settle.tsOut m.settle.inputDbnVersion
        (Buffer.data m.settle.buffer) = .record image version := by
    intro m hm hsame
    rw [settle_upgradePolicy, settle_tsOut, settle_inputDbnVersion,
      data_buffer_settle hm]
    exact hsame
  rw [hret, hret']
  apply AnswersAlike.ret
  constructor
  · apply agrees_of_recordPhase hout.recordPhase hout'.recordPhase
    · rw [hout.upgradePolicy, hout'.upgradePolicy, hsettle.upgradePolicy]
    · rw [hout.data_eq (state_settle hphase),
        hout'.data_eq (state_settle hphase'), hsettle.data]
    · rw [hout.tsOut, hout'.tsOut]
      exact hsettle.tsOut (recordPhase_iff.mpr (Or.inl (state_settle hphase)))
    · rw [hout.version, hout'.version]
  · rw [hout.lastBytes_eq (hnext hphase hitem),
      hout'.lastBytes_eq (hnext hphase' hitem')]

/-- Interchangeable machines process alike. -/
theorem Interchangeable.process (h : fsm.Interchangeable fsm') :
    AnswersAlike AgreesLast (fsm.process (D := D)) fsm'.process := by
  by_cases hphase : fsm.RecordPhase
  · have hphase' := h.agrees.recordPhase.mp hphase
    have hsettle := h.agrees.settle hphase
    have hitems := h.agrees.nextItem hphase
    cases hitem : fsm.nextItem with
    | needMore n =>
        rw [process_needMore hphase hitem,
          process_needMore hphase' (hitems ▸ hitem)]
        exact AnswersAlike.ret hsettle
    | invalid e =>
        rw [process_invalid hphase hitem,
          process_invalid hphase' (hitems ▸ hitem)]
        exact AnswersAlike.ret hsettle
    | truncated =>
        rw [process_truncated h.left hphase hitem,
          process_truncated h.right hphase' (hitems ▸ hitem)]
        exact AnswersAlike.panic _
    | record image version => exact h.process_record hphase hitem
  · cases hstate : fsm.state with
    | prelude => exact h.agrees.process_prelude hstate
    | metadata length =>
        have hinv := h.left
        unfold Inv at hinv
        rw [hstate] at hinv
        rcases Option.ne_none_iff_exists'.mp hinv.2.2 with ⟨version, hversion⟩
        exact h.agrees.processLoop_metadata hstate hversion 3 3
    | record => exact absurd (recordPhase_iff.mpr (Or.inl hstate)) hphase
    | consume read compat compatFill expandCompat =>
        exact absurd (recordPhase_iff.mpr (Or.inr ⟨_, _, _, _, hstate⟩))
          hphase

/-- Every call on interchangeable machines is answered alike. -/
theorem bisimulation_interchangeable :
    Bisimulation (call (B := B) (D := D)) call Interchangeable := by
  intro c fsm fsm' h
  cases c with
  | writeAll chunk =>
      have happ := appends_writeAll h.left chunk
      have happ' := appends_writeAll h.right chunk
      exact AnswersAlike.ret
        ⟨happ.inv, happ'.inv, h.agrees.of_appends happ happ'⟩
  | process =>
      have hprocess := h.process (D := D)
      unfold call
      dsimp only
      generalize hret : fsm.process (D := D) = x at hprocess
      generalize hret' : fsm'.process (D := D) = y at hprocess
      cases hprocess with
      | panic p => exact AnswersAlike.panic p
      | timeout => exact AnswersAlike.timeout
      | @ret res fsm1 fsm1' related =>
          have hanswer : fsm1.answer res = fsm1'.answer res := by
            cases res <;> simp only [answer, related.lastBytes]
          rw [Outcome.ret_bind, Outcome.ret_bind]
          dsimp only
          rw [hanswer]
          exact AnswersAlike.ret ⟨inv_process h.left hret,
            inv_process h.right hret', related.agrees⟩

end Process

/-!
## The reset
-/

section Reset

variable [LawfulBuffer B] {fsm new : DbnFsm B} {b : DbnFsmBuilder}

/-- A machine that was reset is interchangeable with a new one. -/
theorem interchangeable_reset (hbuild : b.build = Res.ok new)
    (hmetadata : b.skipMetadata = false)
    (hpolicy : b.upgradePolicy = fsm.upgradePolicy) :
    fsm.reset.Interchangeable new where
  left := LawfulBuffer.data_reset _
  right := inv_build hbuild
  agrees := by
    rw [DbnFsmBuilder.build_eq_ok hbuild]
    apply agrees_of_state
    · simp [recordPhase_iff, reset]
    · simp [reset, hmetadata]
    · exact hpolicy.symm
    · simp [reset]
    · intro hnot
      exact absurd rfl hnot

/--
Whatever was done with a machine before, after a reset it answers every list
of calls like a new machine with the same policy.
-/
theorem results_reset (fsm : DbnFsm B) (hbuild : b.build = Res.ok new)
    (hmetadata : b.skipMetadata = false)
    (hpolicy : b.upgradePolicy = fsm.upgradePolicy) (calls : List Call) :
    results D calls fsm.reset = results D calls new :=
  bisimulation_interchangeable.answers_eq calls
    (interchangeable_reset hbuild hmetadata hpolicy)

end Reset

/-- A machine that holds a part of a record. -/
theorem results_reset_fragment :
    exists new : DbnFsm VecBuffer,
      (default : DbnFsmBuilder).build = Res.ok new ∧
      forall calls,
        results GregorianDate calls
            (fragment (some ⟨1, by decide⟩) default [4, 0, 0]).reset =
          results GregorianDate calls new :=
  ⟨_, rfl, results_reset (b := default) _ rfl rfl (by decide)⟩

end DbnFsm
end Dbn
