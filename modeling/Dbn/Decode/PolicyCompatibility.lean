import Dbn.Decode.Runs

/-!
# Policies and versions

Whether the upgrade policy of a machine accepts the version that the machine
expects.  Decoding keeps the two compatible: the prelude is checked, and the
versions that are detected go with every policy.  A new policy is not checked.
-/

namespace Dbn

open Lib

/-- The policy accepts the version, if there is one. -/
def VersionUpgradePolicy.Accepts (policy : VersionUpgradePolicy)
    (version : Option Nat) : Prop :=
  forall v, version = some v -> policy.validateCompatibility v = Res.ok ()

namespace DbnFsm

variable {B D : Type} [Buffer B] [CalendarDate D]

/-- The policy of the machine accepts the version of the machine. -/
def PolicyFits (fsm : DbnFsm B) : Prop :=
  fsm.upgradePolicy.Accepts fsm.inputDbnVersion

/-- A policy that is set accepts the version that the machine has. -/
def Action.Fits (fsm : DbnFsm B) : Action D -> Prop
  | .setUpgradePolicy policy _ => policy.Accepts fsm.inputDbnVersion
  | _ => True

/-- The result of a decoding call is an error. -/
def Action.Failed : Action D -> Prop
  | .process (.err _) => True
  | .processMultiple _ (.err _) => True
  | _ => False

section Versions

variable {policy : VersionUpgradePolicy}

/-- Only versions before the third are detected. -/
theorem detectConversion_version {rtype : UInt8} {recSize : Nat}
    {c : Conversion} {version : Option Nat}
    (h : detectConversion rtype policy recSize = some (c, version)) :
    policy.Accepts version := by
  have hle : forall v, version = some v -> v ≤ 2 := by
    intro v hv
    unfold detectConversion at h
    split_ifs at h <;> cases h <;> cases hv <;> decide
  intro v hv
  have hv := hle v hv
  apply VersionUpgradePolicy.validateCompatibility_of_compatible
  intro hbad
  omega

/-- The version that is known after a record goes with the policy. -/
theorem accepts_of_upgradeRecord {version version' : Option Nat}
    {tsOut : Bool} {rec : List UInt8} {space : Nat} {res : UpgradeResult}
    (hversion : policy.Accepts version)
    (h : upgradeRecord version policy tsOut rec space =
      Except.ok (version', res)) : policy.Accepts version' := by
  rcases version_of_upgradeRecord h with rfl | ⟨_, c, hdetect⟩
  · exact hversion
  · exact detectConversion_version hdetect

theorem validateCompatibility_of_preludeLength {version length : Nat}
    {data : List UInt8}
    (h : preludeLength policy version data = Res.ok length) :
    policy.validateCompatibility version = Res.ok () := by
  unfold preludeLength at h
  split_ifs at h
  rcases Res.bind_eq_ok.mp h with ⟨_, hcheck, _⟩
  exact hcheck

end Versions

/-!
## Single calls
-/

section Calls

variable {fsm fsm' : DbnFsm B}

omit [Buffer B] in
theorem PolicyFits.of_eq (h : fsm.PolicyFits)
    (hpolicy : fsm'.upgradePolicy = fsm.upgradePolicy)
    (hversion : fsm'.inputDbnVersion = fsm.inputDbnVersion) :
    fsm'.PolicyFits := by
  unfold PolicyFits
  rw [hpolicy, hversion]
  exact h

theorem policyFits_of_decodePrelude
    (h : fsm.decodePrelude = (Res.ok (), fsm')) : fsm'.PolicyFits := by
  unfold decodePrelude at h
  dsimp only at h
  split at h
  · cases h
  · cases h
  · next version _ =>
      split at h
      · cases h
      · cases h
      · next length hlength =>
          have hcheck := validateCompatibility_of_preludeLength hlength
          cases h
          intro v hv
          split_ifs at hv ⊢
          · cases hv
            exact hcheck
          · cases hv
            exact hcheck

theorem fields_of_decodeMetadata {length : Nat} {r : Result (Metadata D)}
    (h : fsm.decodeMetadata length = (r, fsm')) :
    fsm'.upgradePolicy = fsm.upgradePolicy ∧
      fsm'.inputDbnVersion = fsm.inputDbnVersion := by
  unfold decodeMetadata at h
  split at h
  · cases h
    exact ⟨rfl, rfl⟩
  · split at h
    · cases h
      exact ⟨rfl, rfl⟩
    · cases h
      exact ⟨rfl, rfl⟩
    · cases h
      exact ⟨rfl, rfl⟩

/-- The machine that a round leaves behind, unless it reports an error. -/
def Round.Leaves (P : DbnFsm B -> Prop) : Round D B -> Prop
  | .again fsm => P fsm
  | .done (.err _) _ => True
  | .done _ fsm => P fsm
  | .panicked _ => True

omit [CalendarDate D] in
theorem processRecord_policyFits (h : fsm.PolicyFits) :
    (fsm.processRecord : Round D B).Leaves PolicyFits := by
  unfold processRecord
  dsimp only
  split_ifs
  · exact h
  · trivial
  · exact h
  · split
    · trivial
    · next version _ hup =>
        exact accepts_of_upgradeRecord h hup
    · next version _ _ hup =>
        exact accepts_of_upgradeRecord h hup

theorem processRound_policyFits (h : fsm.PolicyFits) :
    (fsm.processRound : Round D B).Leaves PolicyFits := by
  unfold processRound
  dsimp only
  split
  · split_ifs
    · exact h
    · split
      · next hdecode => exact policyFits_of_decodePrelude hdecode
      · trivial
      · trivial
  · split_ifs
    · exact h
    · split
      · next hdecode =>
          have hfields := fields_of_decodeMetadata hdecode
          exact h.of_eq hfields.1 hfields.2
      · trivial
      · trivial
  · exact processRecord_policyFits h
  · exact h.of_eq (by simp) (by simp)

theorem processLoop_policyFits {fuel : Nat} {res : ProcessResult D Unit}
    (h : fsm.PolicyFits) (call : fsm.processLoop fuel = .ret (res, fsm')) :
    (Round.done res fsm').Leaves PolicyFits := by
  induction fuel generalizing fsm with
  | zero => cases call
  | succ fuel ih =>
      have hround := processRound_policyFits (D := D) h
      rw [processLoop] at call
      cases hcase : (fsm.processRound : Round D B) with
      | again fsm1 =>
          rw [hcase] at call hround
          exact ih hround call
      | done res1 fsm1 =>
          rw [hcase] at call hround
          cases call
          exact hround
      | panicked p =>
          rw [hcase] at call
          cases call

/-!
## Bulk calls
-/

omit [CalendarDate D] in
theorem processMultipleRecords_policyFits {buf : RecRefBuf}
    {res : ProcessResult D Nat} {recs : List RecordRef} (h : fsm.PolicyFits)
    (hstate : fsm.state = .record)
    (call : fsm.processMultipleRecords buf = .ret (res, recs, fsm')) :
    fsm'.PolicyFits := by
  have hstart : fsm.DecodesAs fsm.upgradePolicy fsm.tsOut
      fsm.upgradePolicy.Accepts :=
    ⟨recordPhase_iff.mpr (Or.inl hstate), rfl, rfl, h⟩
  have hnext := hstart.processMultipleRecords accepts_of_upgradeRecord call
  unfold PolicyFits
  rw [hnext.upgradePolicy]
  exact hnext.version

theorem processMultipleLoop_policyFits {buf : RecRefBuf} {fuel : Nat}
    {res : ProcessResult D Nat} {recs : List RecordRef} (h : fsm.PolicyFits)
    (call : fsm.processMultipleLoop buf fuel = .ret (res, recs, fsm'))
    (hok : ¬ (Action.processMultiple buf res).Failed) : fsm'.PolicyFits := by
  induction fuel generalizing fsm with
  | zero => cases call
  | succ fuel ih =>
      rw [processMultipleLoop] at call
      split at call
      · next hstate => exact processMultipleRecords_policyFits h hstate call
      · split_ifs at call
        · cases call
          exact h
        · split at call
          · next hdecode => exact ih (policyFits_of_decodePrelude hdecode) call
          · cases call
            exact absurd trivial hok
          · cases call
      · split_ifs at call
        · cases call
          exact h
        · split at call
          · next hdecode =>
              have hfields := fields_of_decodeMetadata hdecode
              cases call
              exact h.of_eq hfields.1 hfields.2
          · cases call
            exact absurd trivial hok
          · cases call
      · exact ih (h.of_eq (by simp) (by simp)) call

end Calls

/-!
## Runs
-/

section Steps

variable {fsm fsm' : DbnFsm B}

theorem Fresh.policyFits (h : fsm.Fresh) : fsm.PolicyFits := by
  rcases h.exists_build with ⟨b, hb⟩
  have hcheck : b.checkVersion = Res.ok () := by
    rcases Res.bind_eq_ok.mp hb with ⟨_, hcheck, _⟩
    exact hcheck
  cases DbnFsmBuilder.build_eq_ok hb
  intro v hv
  unfold DbnFsmBuilder.checkVersion at hcheck
  cases hversion : b.inputDbnVersion with
  | none =>
      rw [hversion] at hv
      cases hv
  | some w =>
      rw [hversion] at hcheck hv
      cases hv
      exact hcheck

theorem writeAll_fields (fsm : DbnFsm B) (bytes : List UInt8) :
    (fsm.writeAll bytes).upgradePolicy = fsm.upgradePolicy ∧
      (fsm.writeAll bytes).inputDbnVersion = fsm.inputDbnVersion := by
  unfold writeAll writeSpace fill reserve
  dsimp only
  split_ifs <;> simp

/--
A call keeps the policy compatible with the version exactly if a policy that
it sets is.
-/
theorem Step.policyFits_iff {e : Action D} (h : Step fsm e fsm')
    (hok : ¬ e.Failed) (hfits : fsm.PolicyFits) :
    fsm'.PolicyFits <-> e.Fits fsm := by
  cases h with
  | setInputDbnVersion call =>
      rcases setInputDbnVersionCall_cases call with
        ⟨_, _, hcheck, rfl⟩ | ⟨_, rfl⟩
      · constructor
        · intro _
          trivial
        · intro _ v hv
          cases hv
          exact hcheck
      · exact iff_of_true hfits trivial
  | setUpgradePolicy call =>
      rcases setUpgradePolicyCall_cases call with
        ⟨_, _, rfl⟩ | ⟨_, _, version, hversion, hcheck⟩
      · exact Iff.rfl
      · exact absurd (hfits version hversion) hcheck
  | setTsOut tsOut => exact iff_of_true hfits trivial
  | writeSpace bytes => exact iff_of_true hfits trivial
  | fill nbytes => exact iff_of_true hfits trivial
  | writeAll bytes =>
      have hfields := writeAll_fields fsm bytes
      exact iff_of_true (hfits.of_eq hfields.1 hfields.2) trivial
  | growCompat size => exact iff_of_true hfits trivial
  | skip nbytes =>
      have hsettle : fsm.settle.PolicyFits := hfits.of_eq (by simp) (by simp)
      exact iff_of_true hsettle trivial
  | reset =>
      apply iff_of_true _ trivial
      intro v hv
      cases hv
  | process call =>
      apply iff_of_true _ trivial
      have hleaves := processLoop_policyFits hfits call
      rename_i res
      cases res with
      | err e => exact absurd trivial hok
      | readMore n => exact hleaves
      | metadata m => exact hleaves
      | record r => exact hleaves
  | processMultiple call =>
      exact iff_of_true (processMultipleLoop_policyFits hfits call hok) trivial

omit [Buffer B] in
/-- A setter that fails leaves the machine as it was. -/
theorem setters_unchanged (fsm : DbnFsm B) :
    (forall version e fsm',
      fsm.setInputDbnVersionCall version = (Res.err e, fsm') -> fsm' = fsm) ∧
    (forall policy e fsm',
      fsm.setUpgradePolicyCall policy = (Res.err e, fsm') -> fsm' = fsm) := by
  constructor
  · intro version e fsm' call
    rcases setInputDbnVersionCall_cases call with ⟨hr, _⟩ | ⟨_, heq⟩
    · cases hr
    · exact heq
  · intro policy e fsm' call
    rcases setUpgradePolicyCall_cases call with ⟨hr, _⟩ | ⟨_, heq, _⟩
    · cases hr
    · exact heq

/--
In a run without a failed decoding call the policy is compatible with the
version in every state exactly if each policy that was set is compatible with
the version the machine had at that time.
-/
theorem runs_policyFits_iff {history : List (DbnFsm B × Action D)}
    (run : Runs history fsm) (hok : forall p, p ∈ history -> ¬ p.2.Failed) :
    (Run.Always (fun _ m => m.PolicyFits) history fsm <->
      forall p, p ∈ history -> p.2.Fits p.1) ∧
    (forall version e fsm',
      fsm.setInputDbnVersionCall version = (Res.err e, fsm') ->
        fsm'.inputDbnVersion = fsm.inputDbnVersion ∧
          fsm'.upgradePolicy = fsm.upgradePolicy) ∧
    (forall policy e fsm',
      fsm.setUpgradePolicyCall policy = (Res.err e, fsm') ->
        fsm'.inputDbnVersion = fsm.inputDbnVersion ∧
          fsm'.upgradePolicy = fsm.upgradePolicy) := by
  refine ⟨?_, ?_, ?_⟩
  · apply Run.always_iff (C := fun m e => e.Fits m) _ _
      (run.restrict (fun _ e => ¬ e.Failed) hok)
    · intro m hm
      exact hm.policyFits
    · intro _ m e m' _ hfits hstep
      exact hstep.1.policyFits_iff hstep.2 hfits
  · intro version e fsm' call
    rw [(setters_unchanged fsm).1 version e fsm' call]
    exact ⟨rfl, rfl⟩
  · intro policy e fsm' call
    rw [(setters_unchanged fsm).2 policy e fsm' call]
    exact ⟨rfl, rfl⟩

end Steps

/-- A new machine with a version and a policy. -/
def configured (version : Option Nat) (policy : VersionUpgradePolicy) :
    DbnFsm VecBuffer :=
  { DbnFsm.new 0 0 with inputDbnVersion := version, upgradePolicy := policy }

/-- `set_input_dbn_version`, then `set_upgrade_policy`. -/
def setterCalls (version : Nat) (policy : VersionUpgradePolicy) :
    List (DbnFsm VecBuffer × Action D) :=
  [(configured (some version) .upgradeToV3,
      .setUpgradePolicy policy (Res.ok ())),
    (configured none .upgradeToV3, .setInputDbnVersion version (Res.ok ()))]

theorem runs_setterCalls {version : Nat} (policy : VersionUpgradePolicy)
    (h : 1 ≤ version ∧ version ≤ dbnVersion) :
    Runs (D := D) (setterCalls version policy)
      (configured (some version) policy) := by
  have hcheck : VersionUpgradePolicy.upgradeToV3.validateCompatibility
      version = Res.ok () := by
    apply VersionUpgradePolicy.validateCompatibility_of_compatible
    intro hbad
    cases hbad.2
  apply Run.step
  · apply Run.step
    · exact Run.start (Or.inr ⟨0, 0, rfl⟩)
    · apply Step.setInputDbnVersion
      unfold setInputDbnVersionCall tryVersion configured
      rw [dif_pos h]
      dsimp only
      rw [hcheck]
  · apply Step.setUpgradePolicy
    unfold setUpgradePolicyCall configured
    dsimp only
    rw [hcheck]

omit [CalendarDate D] in
theorem setterCalls_not_failed {version : Nat}
    {policy : VersionUpgradePolicy} {p : DbnFsm VecBuffer × Action D}
    (h : p ∈ setterCalls version policy) : ¬ p.2.Failed := by
  rcases List.mem_pair.mp h with rfl | rfl
  · exact id
  · exact id

/-- Records of the second version that are to stay as they are. -/
theorem runs_policyFits_iff_second :
    (configured (some 2) .upgradeToV2).PolicyFits := by
  have run : Runs (D := GregorianDate) (setterCalls 2 .upgradeToV2)
      (configured (some 2) .upgradeToV2) := runs_setterCalls _ (by decide)
  refine ((runs_policyFits_iff run ?_).1.mpr ?_).1
  · intro p hp
    exact setterCalls_not_failed hp
  · intro p hp
    rcases List.mem_pair.mp hp with rfl | rfl
    · intro v hv
      cases hv
      rfl
    · trivial

/-- A policy is accepted for a version that it cannot be used with. -/
theorem not_policyFits_third :
    exists history, exists fsm : DbnFsm VecBuffer,
      Runs (D := GregorianDate) history fsm ∧
        (forall p, p ∈ history -> ¬ p.2.Failed) ∧
        fsm.inputDbnVersion = some 3 ∧
        fsm.upgradePolicy.validateCompatibility 3 ≠ Res.ok () := by
  refine ⟨setterCalls 3 .upgradeToV2, configured (some 3) .upgradeToV2,
    runs_setterCalls _ (by decide), ?_, rfl, ?_⟩
  · intro p hp
    exact setterCalls_not_failed hp
  · intro hcheck
    cases hcheck

end DbnFsm
end Dbn
