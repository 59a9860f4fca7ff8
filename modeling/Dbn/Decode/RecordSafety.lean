import Dbn.Decode.BulkAgreement
import Dbn.Decode.WellFormedRecords

/-!
# Calls on malformed records

The struct that a record is upgraded from is taken from its bytes without a
comparison of the sizes.  A call panics exactly when it comes to a complete
record that is shorter than that struct.
-/

namespace Dbn
namespace DbnFsm

open Lib

variable {B D : Type} [Buffer B] [CalendarDate D]

/--
The bytes start with a complete record that is shorter than the struct that it
is upgraded from, the send timestamp included.
-/
structure TruncatedRecord (policy : VersionUpgradePolicy) (tsOut : Bool)
    (version : Option Nat) (bytes : List UInt8) : Prop where
  complete : CompleteRecord bytes
  short : exists c, (selectConversion version policy bytes).1 = some c ∧
    recordSize bytes < requiredSize c tsOut

/-- The call returns `ReadMore`, `Record` or `Err`. -/
def ReturnsItem (D : Type) [CalendarDate D] (fsm : DbnFsm B) : Prop :=
  exists res fsm', fsm.process (D := D) = .ret (res, fsm') ∧
    forall m, res ≠ .metadata m

/-- The bulk call returns `ReadMore`, `Record` or `Err`. -/
def BulkReturnsItem (D : Type) [CalendarDate D] (fsm : DbnFsm B)
    (buf : RecRefBuf) : Prop :=
  exists res recs fsm', fsm.processMultiple (D := D) buf =
    .ret (res, recs, fsm') ∧ forall m, res ≠ .metadata m

/--
After records that the bulk call hands out there is a truncated record within
the limit.
-/
def MeetsTruncated (fsm : DbnFsm B) (buf : RecRefBuf) : Prop :=
  exists s, fsm.BulkVisits buf s ∧ buf.hasCapacity s.images.length ∧
    TruncatedRecord fsm.upgradePolicy fsm.tsOut s.version s.rest

section Items

variable {policy : VersionUpgradePolicy} {tsOut : Bool}
  {version : Option Nat} {bytes : List UInt8}

theorem next_truncated_iff :
    next policy tsOut version bytes = .truncated <->
      TruncatedRecord policy tsOut version bytes := by
  constructor
  · intro h
    have hcomplete := complete_of_next_truncated h
    refine ⟨hcomplete, ?_⟩
    rw [next_of_complete hcomplete] at h
    unfold nextImage at h
    split at h
    · cases h
    · next c v heq =>
        split_ifs at h with hsize
        exact ⟨c, congrArg Prod.fst heq, hsize⟩
  · rintro ⟨hcomplete, c, hselect, hsize⟩
    rw [next_of_complete hcomplete]
    unfold nextImage
    split
    · next heq =>
        rw [heq] at hselect
        cases hselect
    · next heq =>
        rw [heq] at hselect
        cases hselect
        rw [if_pos hsize]

theorem bulkItem_truncated_iff {fsm : DbnFsm B} {buf : RecRefBuf}
    {s : BulkState} :
    fsm.bulkItem buf s = .truncated <->
      buf.hasCapacity s.images.length ∧
        TruncatedRecord fsm.upgradePolicy fsm.tsOut s.version s.rest := by
  unfold bulkItem bulkNext
  constructor
  · intro h
    split_ifs at h with hcap hheader hbody
    dsimp only at h
    split at h
    · cases h
    · next c v heq =>
        split_ifs at h with hsize
        exact ⟨hcap.1, ⟨by omega, by omega⟩, c, congrArg Prod.fst heq, hsize⟩
  · rintro ⟨hcap, hcomplete, c, hselect, hsize⟩
    have hheader := hcomplete.header
    have hbody := hcomplete.body
    have hnil : s.rest ≠ [] := by
      intro hnil
      rw [hnil] at hbody hheader
      simp at hbody hheader
      omega
    rw [if_pos ⟨hcap, hnil⟩, if_neg (by omega), if_neg (by omega)]
    dsimp only
    split
    · next heq =>
        rw [heq] at hselect
        cases hselect
    · next heq =>
        rw [heq] at hselect
        cases hselect
        rw [if_pos hsize]

end Items

section Calls

variable [LawfulBuffer B] {fsm : DbnFsm B}

theorem returnsItem_iff (hinv : fsm.Inv) (hphase : fsm.RecordPhase) :
    ReturnsItem D fsm <->
      ¬ TruncatedRecord fsm.upgradePolicy fsm.tsOut fsm.inputDbnVersion
        fsm.data := by
  rw [← next_truncated_iff]
  cases hitem : fsm.nextItem with
  | needMore n =>
      have hret := process_needMore (D := D) hphase hitem
      unfold nextItem at hitem
      rw [hitem]
      exact ⟨fun _ => by simp, fun _ => ⟨_, _, hret, by simp⟩⟩
  | invalid e =>
      have hret := process_invalid (D := D) hphase hitem
      unfold nextItem at hitem
      rw [hitem]
      exact ⟨fun _ => by simp, fun _ => ⟨_, _, hret, by simp⟩⟩
  | truncated =>
      have hpanic := process_truncated (D := D) hinv hphase hitem
      unfold nextItem at hitem
      rw [hitem]
      refine ⟨?_, fun h => absurd rfl h⟩
      rintro ⟨res, fsm', hret, _⟩
      rw [hpanic] at hret
      cases hret
  | record image version =>
      obtain ⟨fsm', hret, _⟩ := process_record (D := D) hinv hphase hitem
      unfold nextItem at hitem
      rw [hitem]
      exact ⟨fun _ => by simp, fun _ => ⟨_, _, hret, by simp⟩⟩

theorem bulkReturnsItem_iff (hinv : fsm.Inv) (hphase : fsm.RecordPhase)
    (buf : RecRefBuf) :
    BulkReturnsItem D fsm buf <-> ¬ MeetsTruncated fsm buf := by
  constructor
  · rintro ⟨res, recs, fsm', hret, _⟩ ⟨s, hvisit, hmeets⟩
    have hitem := bulkItem_truncated_iff.mpr hmeets
    have hanswers := processMultiple_answers (D := D) hinv hphase hvisit
      (by rw [hitem]; simp)
    rw [hitem, hret] at hanswers
    cases hanswers
  · intro hsafe
    obtain ⟨s, hvisit, hend⟩ := exists_bulkVisits_end fsm buf
    have hanswers := processMultiple_answers (D := D) hinv hphase hvisit hend
    cases hitem : fsm.bulkItem buf s with
    | record s' => exact absurd hitem (hend s')
    | truncated =>
        exact absurd ⟨s, hvisit, bulkItem_truncated_iff.mp hitem⟩ hsafe
    | stop =>
        rw [hitem] at hanswers
        obtain ⟨recs, fsm', hret, _⟩ := hanswers
        exact ⟨_, recs, fsm', hret, by simp⟩
    | invalid e =>
        rw [hitem] at hanswers
        obtain ⟨_, fsm', hret, _⟩ := hanswers
        exact ⟨_, _, fsm', hret, by simp⟩
    | noSpace v =>
        rw [hitem] at hanswers
        obtain ⟨recs, fsm', hret, _⟩ := hanswers
        exact ⟨_, recs, fsm', hret, by simp⟩

end Calls

/--
In the record phase of a reachable machine, `process` returns `ReadMore`,
`Record` or `Err` if and only if the data does not start with a truncated
record, and `process_all` if and only if it does not come to one.
-/
theorem recordPhase_returns_iff [LawfulBuffer B] {fsm : DbnFsm B}
    (hreach : Reachable D fsm) (hphase : fsm.RecordPhase) :
    (ReturnsItem D fsm <->
      ¬ TruncatedRecord fsm.upgradePolicy fsm.tsOut fsm.inputDbnVersion
        fsm.data) ∧
    forall limit, BulkReturnsItem D fsm (.all limit) <->
      ¬ MeetsTruncated fsm (.all limit) :=
  ⟨returnsItem_iff hreach.inv hphase,
    fun limit => bulkReturnsItem_iff hreach.inv hphase (.all limit)⟩

/-- A system message that is upgraded. -/
theorem recordPhase_returns_iff_upgraded :
    ReturnsItem GregorianDate
        (fragment (some ⟨1, by decide⟩) .upgradeToV3 heartbeatV1) ∧
      forall limit, BulkReturnsItem GregorianDate
          (fragment (some ⟨1, by decide⟩) .upgradeToV3 heartbeatV1)
          (.all limit) <->
        ¬ MeetsTruncated (fragment (some ⟨1, by decide⟩) .upgradeToV3
          heartbeatV1) (.all limit) := by
  have hreach : Reachable GregorianDate (fragment (some ⟨1, by decide⟩)
      .upgradeToV3 heartbeatV1) := reachable_fragment rfl heartbeatV1
  have hitems := recordPhase_returns_iff hreach rfl
  refine ⟨hitems.1.mpr ?_, hitems.2⟩
  rintro ⟨_, c, hselect, hsize⟩
  cases hselect
  exact absurd hsize (by decide)

/-- A system message of version 1 that is no longer than its header. -/
def shortSystemRecord : List UInt8 :=
  4 :: 0x17 :: List.replicate 14 0

/-- A record of 16 bytes of a type that is upgraded. -/
theorem process_panics_shortSystemRecord :
    Reachable GregorianDate
        (fragment (some ⟨1, by decide⟩) .upgradeToV3 shortSystemRecord) ∧
      (fragment (some ⟨1, by decide⟩) .upgradeToV3
        shortSystemRecord).RecordPhase ∧
      ¬ ReturnsItem GregorianDate
        (fragment (some ⟨1, by decide⟩) .upgradeToV3 shortSystemRecord) := by
  refine ⟨reachable_fragment rfl _, by rfl, ?_⟩
  have hpanic : (fragment (some ⟨1, by decide⟩) .upgradeToV3
      shortSystemRecord).process (D := GregorianDate) =
      .panic Panic.assertion := by rfl
  rintro ⟨res, fsm, hret, _⟩
  rw [hpanic] at hret
  cases hret

end DbnFsm
end Dbn
