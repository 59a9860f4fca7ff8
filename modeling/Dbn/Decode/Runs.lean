import Dbn.Decode.Reachable
import Dbn.Lib.Run

/-!
# Runs of the state machine

The calls that a program can make on a state machine, each with what it
returned, and the runs they make up.  The setters change the machine they are
called on, which also has to be known when they fail.
-/

namespace Dbn
namespace DbnFsm

open Lib

variable {B D : Type} [Buffer B] [CalendarDate D]

/-!
## Setters
-/

/-- `set_input_dbn_version` with the machine it leaves behind. -/
def setInputDbnVersionCall (fsm : DbnFsm B) (version : Nat) :
    Result Unit × DbnFsm B :=
  match tryVersion version with
  | Res.err e => (Res.err e, fsm)
  | Res.panic p => (Res.panic p, fsm)
  | Res.ok version =>
      match fsm.upgradePolicy.validateCompatibility version.val with
      | Res.err e => (Res.err e, fsm)
      | Res.panic p => (Res.panic p, fsm)
      | Res.ok () =>
          (Res.ok (), { fsm with inputDbnVersion := some version.val })

/-- `set_upgrade_policy` with the machine it leaves behind. -/
def setUpgradePolicyCall (fsm : DbnFsm B) (policy : VersionUpgradePolicy) :
    Result Unit × DbnFsm B :=
  let check : Result Unit :=
    match fsm.inputDbnVersion with
    | some version => fsm.upgradePolicy.validateCompatibility version
    | none => Res.ok ()
  match check with
  | Res.err e => (Res.err e, fsm)
  | Res.panic p => (Res.panic p, fsm)
  | Res.ok () => (Res.ok (), { fsm with upgradePolicy := policy })

section Setters

variable {fsm fsm' : DbnFsm B} {version : Nat} {policy : VersionUpgradePolicy}
  {r : Result Unit}

omit [Buffer B] in
/-- A call sets the version, or fails and changes nothing. -/
theorem setInputDbnVersionCall_cases
    (h : fsm.setInputDbnVersionCall version = (r, fsm')) :
    (r = Res.ok () ∧ fsm.setInputDbnVersion version = Res.ok fsm' ∧
      fsm.upgradePolicy.validateCompatibility version = Res.ok () ∧
      fsm' = { fsm with inputDbnVersion := some version }) ∨
    (r ≠ Res.ok () ∧ fsm' = fsm) := by
  unfold setInputDbnVersionCall tryVersion at h
  unfold setInputDbnVersion tryVersion
  by_cases hversion : 1 ≤ version ∧ version ≤ dbnVersion
  · rw [dif_pos hversion] at h ⊢
    dsimp only at h
    cases hcheck : fsm.upgradePolicy.validateCompatibility version with
    | ok u =>
        rw [hcheck] at h
        cases h
        left
        rw [Res.ok_bind]
        dsimp only
        rw [hcheck]
        exact ⟨rfl, rfl, rfl, rfl⟩
    | err e =>
        rw [hcheck] at h
        cases h
        exact Or.inr ⟨nofun, rfl⟩
    | panic p =>
        rw [hcheck] at h
        cases h
        exact Or.inr ⟨nofun, rfl⟩
  · rw [dif_neg hversion] at h
    cases h
    exact Or.inr ⟨nofun, rfl⟩

omit [Buffer B] in
/-- A call sets the policy, or fails and changes nothing. -/
theorem setUpgradePolicyCall_cases
    (h : fsm.setUpgradePolicyCall policy = (r, fsm')) :
    (r = Res.ok () ∧ fsm.setUpgradePolicy policy = Res.ok fsm' ∧
      fsm' = { fsm with upgradePolicy := policy }) ∨
    (r ≠ Res.ok () ∧ fsm' = fsm ∧
      exists version, fsm.inputDbnVersion = some version ∧
        fsm.upgradePolicy.validateCompatibility version ≠ Res.ok ()) := by
  unfold setUpgradePolicyCall at h
  unfold setUpgradePolicy
  cases hversion : fsm.inputDbnVersion with
  | none =>
      rw [hversion] at h
      cases h
      exact Or.inl ⟨rfl, rfl, rfl⟩
  | some version =>
      rw [hversion] at h
      dsimp only at h ⊢
      cases hcheck : fsm.upgradePolicy.validateCompatibility version with
      | ok u =>
          rw [hcheck] at h
          cases h
          exact Or.inl ⟨rfl, rfl, rfl⟩
      | err e =>
          rw [hcheck] at h
          cases h
          exact Or.inr ⟨nofun, rfl, version, rfl, by rw [hcheck]; nofun⟩
      | panic p =>
          rw [hcheck] at h
          cases h
          exact Or.inr ⟨nofun, rfl, version, rfl, by rw [hcheck]; nofun⟩

end Setters

/-!
## Actions
-/

/-- A call with what it returned. -/
inductive Action (D : Type) where
  | setInputDbnVersion (version : Nat) (r : Result Unit)
  | setUpgradePolicy (policy : VersionUpgradePolicy) (r : Result Unit)
  | setTsOut (tsOut : Bool)
  | writeSpace (bytes : List UInt8)
  | fill (nbytes : Nat)
  | writeAll (bytes : List UInt8)
  | growCompat (size : Nat)
  | skip (nbytes : Nat)
  | reset
  | process (res : ProcessResult D Unit)
  | processMultiple (buf : RecRefBuf) (res : ProcessResult D Nat)

/-- The machine before and after a call. -/
inductive Step : DbnFsm B -> Action D -> DbnFsm B -> Prop where
  | setInputDbnVersion {fsm fsm' : DbnFsm B} {version : Nat}
      {r : Result Unit}
      (call : fsm.setInputDbnVersionCall version = (r, fsm')) :
      Step fsm (.setInputDbnVersion version r) fsm'
  | setUpgradePolicy {fsm fsm' : DbnFsm B} {policy : VersionUpgradePolicy}
      {r : Result Unit} (call : fsm.setUpgradePolicyCall policy = (r, fsm')) :
      Step fsm (.setUpgradePolicy policy r) fsm'
  | setTsOut (fsm : DbnFsm B) (tsOut : Bool) :
      Step fsm (.setTsOut tsOut) (fsm.setTsOut tsOut)
  | writeSpace (fsm : DbnFsm B) (bytes : List UInt8) :
      Step fsm (.writeSpace bytes) (fsm.writeSpace bytes)
  | fill (fsm : DbnFsm B) (nbytes : Nat) :
      Step fsm (.fill nbytes) (fsm.fill nbytes)
  | writeAll (fsm : DbnFsm B) (bytes : List UInt8) :
      Step fsm (.writeAll bytes) (fsm.writeAll bytes)
  | growCompat (fsm : DbnFsm B) (size : Nat) :
      Step fsm (.growCompat size) (fsm.growCompat size)
  | skip (fsm : DbnFsm B) (nbytes : Nat) :
      Step fsm (.skip nbytes) (fsm.skip nbytes)
  | reset (fsm : DbnFsm B) : Step fsm .reset fsm.reset
  | process {fsm fsm' : DbnFsm B} {res : ProcessResult D Unit}
      (call : fsm.process = .ret (res, fsm')) : Step fsm (.process res) fsm'
  | processMultiple {fsm fsm' : DbnFsm B} {buf : RecRefBuf}
      {res : ProcessResult D Nat} {recs : List RecordRef}
      (call : fsm.processMultiple buf = .ret (res, recs, fsm')) :
      Step fsm (.processMultiple buf res) fsm'

/-- A machine from a builder or the constructor. -/
def Fresh (fsm : DbnFsm B) : Prop :=
  (exists b : DbnFsmBuilder, b.build = Res.ok fsm) ∨
    exists bufferSize compatSize, fsm = DbnFsm.new bufferSize compatSize

/-- The runs of the machine. -/
abbrev Runs (history : List (DbnFsm B × Action D)) (fsm : DbnFsm B) : Prop :=
  Run Fresh Step history fsm

/-- The constructor is a way to use the builder. -/
theorem build_eq_new (bufferSize compatSize : Nat) :
    DbnFsmBuilder.build
      { (default : DbnFsmBuilder) with
        bufferSize := bufferSize
        compatSize := some compatSize } =
      Res.ok (DbnFsm.new bufferSize compatSize : DbnFsm B) := rfl

theorem Fresh.exists_build {fsm : DbnFsm B} (h : fsm.Fresh) :
    exists b : DbnFsmBuilder, b.build = Res.ok fsm := by
  rcases h with h | ⟨bufferSize, compatSize, rfl⟩
  · exact h
  · exact ⟨_, build_eq_new bufferSize compatSize⟩

theorem Step.reachable {fsm fsm' : DbnFsm B} {e : Action D}
    (before : Reachable D fsm) (h : Step fsm e fsm') : Reachable D fsm' := by
  cases h with
  | setInputDbnVersion call =>
      rcases setInputDbnVersionCall_cases call with ⟨_, hset, _⟩ | ⟨_, rfl⟩
      · exact before.setInputDbnVersion hset
      · exact before
  | setUpgradePolicy call =>
      rcases setUpgradePolicyCall_cases call with ⟨_, hset, _⟩ | ⟨_, rfl, _⟩
      · exact before.setUpgradePolicy hset
      · exact before
  | setTsOut tsOut => exact before.setTsOut tsOut
  | writeSpace bytes => exact before.writeSpace bytes
  | fill nbytes => exact before.fill nbytes
  | writeAll bytes => exact before.writeAll bytes
  | growCompat size => exact before.growCompat size
  | skip nbytes => exact before.skip nbytes
  | reset => exact before.reset
  | process call => exact before.process call
  | processMultiple call => exact before.processMultiple call

/-- A run leads to reachable machines. -/
theorem Runs.reachable {history : List (DbnFsm B × Action D)} {fsm : DbnFsm B}
    (h : Runs history fsm) : Reachable D fsm := by
  refine Run.invariant ?_ ?_ h
  · intro s hs
    rcases hs.exists_build with ⟨b, hb⟩
    exact Reachable.build hb
  · intro s e s' hs hstep
    exact hstep.reachable hs

/-!
## What the loops keep
-/

/-- The machine that a round leaves behind. -/
def Round.Reaches (P : DbnFsm B -> Prop) : Round D B -> Prop
  | .again fsm => P fsm
  | .done _ fsm => P fsm
  | .panicked _ => True

/-- What every round keeps holds of the machine that a call leaves behind. -/
theorem processLoop_reaches {P : DbnFsm B -> Prop}
    (hround : forall fsm, P fsm -> (fsm.processRound : Round D B).Reaches P)
    {fsm fsm' : DbnFsm B} {fuel : Nat} {res : ProcessResult D Unit}
    (h : P fsm) (call : fsm.processLoop fuel = .ret (res, fsm')) :
    P fsm' := by
  induction fuel generalizing fsm with
  | zero => cases call
  | succ fuel ih =>
      have hreaches := hround fsm h
      rw [processLoop] at call
      cases hcase : (fsm.processRound : Round D B) with
      | again fsm1 =>
          rw [hcase] at call hreaches
          exact ih hreaches call
      | done res1 fsm1 =>
          rw [hcase] at call hreaches
          cases call
          exact hreaches
      | panicked p =>
          rw [hcase] at call
          cases call

/-- A property of versions that upgrading a record keeps. -/
def KeptByUpgrade (policy : VersionUpgradePolicy) (tsOut : Bool)
    (P : Option Nat -> Prop) : Prop :=
  forall {version version' rec space res}, P version ->
    upgradeRecord version policy tsOut rec space =
      Except.ok (version', res) -> P version'

/-- The version after a record is the one before, or one that is detected. -/
theorem version_of_upgradeRecord {policy : VersionUpgradePolicy} {tsOut : Bool}
    {version version' : Option Nat} {rec : List UInt8} {space : Nat}
    {res : UpgradeResult}
    (h : upgradeRecord version policy tsOut rec space =
      Except.ok (version', res)) :
    version' = version ∨ version = none ∧ exists c,
      detectConversion (rtypeOf rec) policy (recordSize rec) =
        some (c, version') := by
  cases version with
  | some v =>
      simp only [upgradeRecord] at h
      cases hup : upgradeRecordWithVersion v policy tsOut rec space with
      | error p =>
          rw [hup] at h
          cases h
      | ok r =>
          rw [hup] at h
          cases h
          exact Or.inl rfl
  | none =>
      simp only [upgradeRecord, upgradeRecordDetectVersion] at h
      cases hdetect : detectConversion (rtypeOf rec) policy
          (recordSize rec) with
      | none =>
          rw [hdetect] at h
          cases h
          exact Or.inl rfl
      | some found =>
          rcases found with ⟨c, v⟩
          rw [hdetect] at h
          dsimp only at h
          cases hup : upgradeRecordTo c tsOut space ⟨rec⟩ with
          | error p =>
              rw [hup] at h
              cases h
          | ok r =>
              rw [hup] at h
              cases h
              exact Or.inr ⟨rfl, c, rfl⟩

/-- A version that is known does not change. -/
theorem keptByUpgrade_some (policy : VersionUpgradePolicy) (tsOut : Bool)
    (version : Nat) : KeptByUpgrade policy tsOut (fun v => v = some version) := by
  intro v v' rec space res hv h
  rcases version_of_upgradeRecord h with heq | ⟨hnone, _⟩
  · exact heq.trans hv
  · rw [hv] at hnone
    cases hnone

/-- A machine in the record phase, whose version has the property. -/
structure DecodesAs (policy : VersionUpgradePolicy) (tsOut : Bool)
    (P : Option Nat -> Prop) (fsm : DbnFsm B) : Prop where
  recordPhase : fsm.RecordPhase
  upgradePolicy : fsm.upgradePolicy = policy
  tsOut : fsm.tsOut = tsOut
  version : P fsm.inputDbnVersion

namespace DecodesAs

variable {policy : VersionUpgradePolicy} {tsOut : Bool}
  {P : Option Nat -> Prop} {fsm fsm' : DbnFsm B}

omit [Buffer B] in
theorem with_buffers (h : fsm.DecodesAs policy tsOut P)
    (buffer compatBuffer : B) :
    DecodesAs policy tsOut P
      { fsm with buffer := buffer, compatBuffer := compatBuffer } :=
  ⟨h.recordPhase, h.upgradePolicy, h.tsOut, h.version⟩

theorem settle (h : fsm.DecodesAs policy tsOut P) :
    fsm.settle.DecodesAs policy tsOut P where
  recordPhase := recordPhase_iff.mpr (Or.inl (state_settle h.recordPhase))
  upgradePolicy := fsm.settle_upgradePolicy.trans h.upgradePolicy
  tsOut := fsm.settle_tsOut.trans h.tsOut
  version := by
    rw [settle_inputDbnVersion]
    exact h.version

variable (hkept : KeptByUpgrade policy tsOut P)

include hkept

omit [CalendarDate D] in
theorem processRecord (h : fsm.DecodesAs policy tsOut P) :
    (fsm.processRecord : Round D B).Reaches (DecodesAs policy tsOut P) := by
  unfold DbnFsm.processRecord
  dsimp only
  split_ifs
  · exact h
  · exact h
  · exact h
  · rw [h.upgradePolicy, h.tsOut]
    split
    · trivial
    · next hup =>
        exact ⟨h.recordPhase, rfl, rfl, hkept h.version hup⟩
    · next hup => exact ⟨rfl, rfl, rfl, hkept h.version hup⟩

theorem processRound (h : fsm.DecodesAs policy tsOut P) :
    (fsm.processRound : Round D B).Reaches (DecodesAs policy tsOut P) := by
  have hsettle := h.settle
  unfold DbnFsm.processRound
  dsimp only
  rcases recordPhase_iff.mp h.recordPhase with
    hstate | ⟨read, compat, compatFill, expandCompat, hstate⟩
  · rw [hstate]
    exact h.processRecord hkept
  · rw [settle_eq_consume hstate] at hsettle
    rw [hstate]
    exact hsettle

/-- A call keeps the setup of a machine that decodes records. -/
theorem process {res : ProcessResult D Unit}
    (h : fsm.DecodesAs policy tsOut P)
    (call : fsm.process = .ret (res, fsm')) :
    fsm'.DecodesAs policy tsOut P :=
  processLoop_reaches (fun _ hfsm => hfsm.processRound hkept) h call

omit [CalendarDate D] in
theorem bulkRound (buf : RecRefBuf) {acc : Bulk}
    (h : fsm.DecodesAs policy tsOut P) (hacc : P acc.version) :
    match fsm.bulkRound buf acc with
    | .again acc' => P acc'.version
    | .done _ acc' => P acc'.version
    | .panicked _ => True := by
  unfold DbnFsm.bulkRound
  dsimp only
  rw [h.upgradePolicy, h.tsOut]
  split_ifs
  · exact hacc
  · exact hacc
  · cases hup : upgradeRecord acc.version policy tsOut
        ((Buffer.data fsm.buffer).drop acc.readBytes)
        (Buffer.availableSpace fsm.compatBuffer - acc.written.length) with
    | error p => trivial
    | ok found =>
        rcases found with ⟨version, written, rec⟩
        have hversion := hkept hacc hup
        cases rec with
        | none => exact hversion
        | some rec => exact hversion
  · exact hacc

omit [CalendarDate D] in
theorem bulkLoop {buf : RecRefBuf} {fuel : Nat} {acc acc' : Bulk}
    {stop : BulkEnd} (h : fsm.DecodesAs policy tsOut P)
    (hacc : P acc.version)
    (call : fsm.bulkLoop buf fuel acc = .ret (stop, acc')) :
    P acc'.version := by
  induction fuel generalizing acc with
  | zero => cases call
  | succ fuel ih =>
      have hround := h.bulkRound hkept buf hacc
      rw [DbnFsm.bulkLoop] at call
      cases hcase : fsm.bulkRound buf acc with
      | again acc1 =>
          rw [hcase] at call hround
          exact ih hround call
      | done stop1 acc1 =>
          rw [hcase] at call hround
          cases call
          exact hround
      | panicked p =>
          rw [hcase] at call
          cases call

omit [CalendarDate D] in
theorem processMultipleRecords {buf : RecRefBuf} {res : ProcessResult D Nat}
    {recs : List RecordRef} (h : fsm.DecodesAs policy tsOut P)
    (call : fsm.processMultipleRecords buf = .ret (res, recs, fsm')) :
    fsm'.DecodesAs policy tsOut P := by
  unfold DbnFsm.processMultipleRecords at call
  dsimp only at call
  split at call
  · cases call
  · cases call
  · next stop acc hloop =>
      have hversion : P acc.version := h.bulkLoop hkept h.version hloop
      split at call
      · cases call
        exact ⟨h.recordPhase, h.upgradePolicy, h.tsOut, hversion⟩
      · cases call
        exact ⟨rfl, h.upgradePolicy, h.tsOut, hversion⟩

theorem processMultiple {buf : RecRefBuf} {res : ProcessResult D Nat}
    {recs : List RecordRef} (h : fsm.DecodesAs policy tsOut P)
    (call : fsm.processMultiple buf = .ret (res, recs, fsm')) :
    fsm'.DecodesAs policy tsOut P := by
  rw [processMultiple_eq_settle h.recordPhase] at call
  exact h.settle.processMultipleRecords hkept call

end DecodesAs

end DbnFsm
end Dbn
