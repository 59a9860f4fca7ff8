import Dbn.Decode.LastRecord
import Dbn.RecordEnum

/-!
# Views of decoded records

The decoder hands out every complete record.  The view of a record whose type
has one struct only is made without a comparison of the sizes, so that it is
longer than the record when the record is too short.
-/

namespace Dbn

open Lib

/--
A view of the record is not longer than the record, and there is none of a
record that is too short for its type.
-/
def RecordRef.FitsView (r : RecordRef) (debugAssertions : Bool) : Prop :=
  (forall e, RecordRefEnum.tryFrom debugAssertions r = Res.ok e ->
    e.recordType.size ≤ r.recordSize) ∧
  forall rtype, r.rtype = Res.ok rtype ->
    r.recordSize < rtype.viewType.size ->
      (RecordRefEnum.tryFrom debugAssertions r).IsErr

/-- The record is too short for a type that has one struct only. -/
def ShortUnversioned (bytes : List UInt8) : Prop :=
  exists rtype, RType.tryFrom (rtypeOf bytes) = some rtype ∧
    ¬ rtype.IsVersioned ∧ recordSize bytes < rtype.viewType.size

section Views

variable {r : RecordRef} {debugAssertions : Bool}

theorem RecordRef.rtype_eq_ok {rtype : RType} :
    r.rtype = Res.ok rtype <-> RType.tryFrom (rtypeOf r.bytes) = some rtype := by
  unfold RecordRef.rtype
  constructor
  · intro h
    split at h
    · next heq =>
        cases h
        exact heq
    · cases h
  · intro h
    rw [h]

theorem RecordRefEnum.tryFrom_of_unknown
    (h : RType.tryFrom (rtypeOf r.bytes) = none) :
    (tryFrom debugAssertions r).IsErr := by
  unfold tryFrom RecordRef.rtype
  rw [h]
  exact Res.err_isErr _

theorem fitsView_iff :
    r.FitsView debugAssertions <-> ¬ ShortUnversioned r.bytes := by
  constructor
  · intro hfits hshort
    rcases hshort with ⟨rtype, hknown, hversioned, hsize⟩
    have hrtype := RecordRef.rtype_eq_ok.mpr hknown
    have herr := hfits.2 rtype hrtype hsize
    have hanswers : RecordRefEnum.Answers debugAssertions r rtype
        (RecordRefEnum.tryFrom debugAssertions r) :=
      RecordRefEnum.answers_tryFrom hrtype
    rcases herr with ⟨e, herr⟩
    rw [herr] at hanswers
    cases hanswers with
    | checked hchecked _ => exact hversioned hchecked
  · intro hlong
    cases hknown : RType.tryFrom (rtypeOf r.bytes) with
    | none =>
        have herr : (RecordRefEnum.tryFrom debugAssertions r).IsErr :=
          RecordRefEnum.tryFrom_of_unknown hknown
        constructor
        · intro e hok
          rw [hok] at herr
          exact absurd herr (Res.ok_not_isErr e)
        · intro _ _ _
          exact herr
    | some rtype =>
        have hrtype := RecordRef.rtype_eq_ok.mpr hknown
        have hanswers : RecordRefEnum.Answers debugAssertions r rtype
            (RecordRefEnum.tryFrom debugAssertions r) :=
          RecordRefEnum.answers_tryFrom hrtype
        have hnot : ¬ rtype.IsVersioned ->
            ¬ r.recordSize < rtype.viewType.size :=
          fun hversioned hsize => hlong ⟨rtype, hknown, hversioned, hsize⟩
        constructor
        · intro e hok
          rw [hok] at hanswers
          cases hanswers with
          | fits hsize htype =>
              rw [htype]
              exact hsize
          | tooLong hversioned hsize => exact absurd hsize (hnot hversioned)
        · intro rtype' hrtype' hsize'
          rw [hrtype] at hrtype'
          cases hrtype'
          generalize RecordRefEnum.tryFrom debugAssertions r = o at hanswers
          cases hanswers with
          | fits hsize => exact absurd hsize' (Nat.not_lt.mpr hsize)
          | checked => exact Res.err_isErr _
          | asserted hversioned hsize => exact absurd hsize (hnot hversioned)
          | tooLong hversioned hsize => exact absurd hsize (hnot hversioned)

end Views

namespace DbnFsm

section Records

variable {bytes image : List UInt8} {policy : VersionUpgradePolicy}
  {tsOut : Bool} {version version' : Option Nat}

theorem rtypeOf_take {n : Nat} (h : 2 ≤ n) :
    rtypeOf (bytes.take n) = rtypeOf bytes := by
  unfold rtypeOf
  rw [List.getD_eq_getElem?_getD, List.getElem?_take,
    if_pos (show 1 < n from h), ← List.getD_eq_getElem?_getD]

/-- The front of a record decides whether it is too short. -/
theorem shortUnversioned_take (h : CompleteRecord bytes) :
    ShortUnversioned (bytes.take (recordSize bytes)) <->
      ShortUnversioned bytes := by
  have hheader := h.header
  rw [headerLen_eq] at hheader
  unfold ShortUnversioned
  rw [rtypeOf_take (by omega), recordSize_take (by omega)]

theorem not_shortUnversioned_of_struct {s : RecordStruct}
    (h : rtypeOf bytes = s.rtype) : ¬ ShortUnversioned bytes := by
  intro hshort
  rcases hshort with ⟨rtype, hknown, hversioned, _⟩
  rw [RType.tryFrom_eq_some, h] at hknown
  apply hversioned
  cases s <;> cases rtype <;> revert hknown <;> decide

/-- An upgraded record is as long as its struct. -/
theorem shortUnversioned_image
    (h : next policy tsOut version bytes = .record image version') :
    ShortUnversioned image <-> ShortUnversioned bytes := by
  have hcomplete := complete_of_next_record h
  rw [next_of_complete hcomplete] at h
  unfold nextImage at h
  split at h
  · cases h
    exact shortUnversioned_take hcomplete
  · next c v heq =>
      split_ifs at h
      cases h
      have hselect : (selectConversion version policy bytes).1 = some c := by
        rw [heq]
      have hnot := not_shortUnversioned_of_struct
        (selectConversion_rtype hselect).symm
      have hnot' := not_shortUnversioned_of_struct (c.rtypeOf_upgraded tsOut
        (bytes.take (requiredSize c tsOut)))
      exact ⟨fun hshort => absurd hshort hnot', fun hshort =>
        absurd hshort hnot⟩

end Records

variable {B D : Type} [Buffer B] [CalendarDate D] [LawfulBuffer B]
  {fsm fsm' : DbnFsm B}

/--
The views of the record that a call hands out are not longer than the record
exactly if the data does not start with a record that is too short for a type
with one struct only.
-/
theorem process_fitsView_iff (hreach : Reachable D fsm)
    (call : fsm.process (D := D) = .ret (.record (), fsm')) :
    exists r, fsm'.lastRecord = some r ∧ forall debugAssertions,
      (r.FitsView debugAssertions <-> ¬ ShortUnversioned fsm.data) := by
  rcases process_lastRecord hreach.inv call with ⟨hne, _⟩ |
    ⟨_, _, r, version, hr, hitem, hcomplete⟩
  · exact absurd rfl hne
  · refine ⟨r, hr, ?_⟩
    intro debugAssertions
    have hfront : ShortUnversioned r.asRef <-> ShortUnversioned r.bytes :=
      shortUnversioned_take hcomplete
    rw [fitsView_iff, ← hfront, shortUnversioned_image hitem]

/-- A record of 16 bytes with the type of a trade. -/
def shortTradeRecord : List UInt8 :=
  4 :: 0x00 :: List.replicate 14 0

theorem process_fitsView_iff_fragment :
    exists fsm', (fragment none .asIs shortTradeRecord).process
        (D := GregorianDate) = .ret (.record (), fsm') ∧
      exists r, fsm'.lastRecord = some r ∧ forall debugAssertions,
        (r.FitsView debugAssertions <->
          ¬ ShortUnversioned (fragment none .asIs shortTradeRecord).data) := by
  have hcall : exists fsm', (fragment none .asIs shortTradeRecord).process
      (D := GregorianDate) = .ret (.record (), fsm') := ⟨_, rfl⟩
  rcases hcall with ⟨fsm', hcall⟩
  exact ⟨fsm', hcall, process_fitsView_iff (reachable_fragment rfl _) hcall⟩

/-- The view of a trade goes on after the end of the record. -/
theorem not_fitsView_shortTradeRecord :
    exists fsm', (fragment none .asIs shortTradeRecord).process
        (D := GregorianDate) = .ret (.record (), fsm') ∧
      exists r, fsm'.lastRecord = some r ∧ r.recordSize = 16 ∧
        (exists e, RecordRefEnum.tryFrom false r = Res.ok e ∧
          e.recordType.size = 48) ∧
        ¬ r.FitsView false ∧ ¬ r.FitsView true := by
  refine ⟨_, rfl, _, rfl, by decide, ⟨_, rfl, rfl⟩, ?_, ?_⟩
  · intro hfits
    exact absurd (hfits.1 _ rfl) (by decide)
  · intro hfits
    have herr := hfits.2 .mbp0 rfl (by decide)
    rcases herr with ⟨e, herr⟩
    cases herr

end DbnFsm
end Dbn
