import Dbn.Decode.Reachable
import Dbn.Decode.WellFormedRecords

/-!
# Progress of the bulk calls

A caller that drains a machine with bulk calls stops when a call returns no
records.  The call does so when no complete record is buffered, but also when
the first record has to be upgraded and there is no room for its new form: the
room is only made in the call after it.
-/

namespace Dbn
namespace DbnFsm

open Lib

variable {B D : Type} [Buffer B] [CalendarDate D]

/-- The buffer for records has a slot; the limit of a vector is not zero. -/
def RecRefBuf.Takes : RecRefBuf -> Prop
  | .all _ => True
  | .many slots => 0 < slots

theorem RecRefBuf.Takes.hasCapacity {buf : RecRefBuf} (h : buf.Takes) :
    buf.hasCapacity 0 = true := by
  cases buf with
  | all limit =>
      cases limit with
      | none => rfl
      | some limit =>
          have hpos := limit.property
          unfold RecRefBuf.hasCapacity
          rw [decide_eq_true_iff]
          apply Nat.pos_of_ne_zero
          intro hzero
          exact hpos (UInt64.toNat.inj hzero)
  | many slots =>
      unfold RecRefBuf.hasCapacity
      rw [decide_eq_true_iff]
      exact h

/--
The first record is complete and has to be upgraded, and its new form does not
fit the compatibility buffer.
-/
def LacksSpace (fsm : DbnFsm B) : Prop :=
  CompleteRecord fsm.data ∧ exists c,
    (selectConversion fsm.inputDbnVersion fsm.upgradePolicy fsm.data).1 =
      some c ∧
    requiredSize c fsm.tsOut ≤ recordSize fsm.data ∧
    fsm.compatSpace ≤ c.target.size + tsOutLen fsm.tsOut

/-!
## The first record of a call
-/

section First

variable {fsm : DbnFsm B} {buf : RecRefBuf} {s : BulkState}

/-- Without records the loop is where it started. -/
theorem BulkVisits.eq_start (h : fsm.BulkVisits buf s)
    (himages : s.images = []) : s = fsm.bulkStart := by
  cases h with
  | start => rfl
  | step before hnext =>
      rcases next_of_bulkNext hnext with ⟨image, hsnoc, _⟩
      rw [himages] at hsnoc
      exact absurd hsnoc.symm (List.append_ne_nil_of_right_ne_nil _ (by simp))

theorem bulkItem_start_stop (hbuf : buf.Takes)
    (h : fsm.bulkItem buf fsm.bulkStart = .stop) :
    ¬ CompleteRecord fsm.data := by
  intro hcomplete
  unfold bulkItem at h
  rw [bulkNext_complete hbuf.hasCapacity hcomplete] at h
  split at h
  · cases h
  · split_ifs at h

theorem lacksSpace_iff_bulkItem (hbuf : buf.Takes) :
    fsm.LacksSpace <->
      exists v, fsm.bulkItem buf fsm.bulkStart = .noSpace v := by
  unfold bulkItem
  constructor
  · intro h
    rcases h with ⟨hcomplete, c, hselect, hsize, hspace⟩
    rcases hpair : selectConversion fsm.inputDbnVersion fsm.upgradePolicy
      fsm.data with ⟨found, v⟩
    rw [hpair] at hselect
    cases hselect
    exact ⟨v, bulkNext_noSpace_iff.mpr
      ⟨hbuf.hasCapacity, hcomplete, c, hpair, hsize, hspace⟩⟩
  · intro h
    rcases h with ⟨v, hitem⟩
    rcases bulkNext_noSpace_iff.mp hitem with
      ⟨_, hcomplete, c, hselect, hsize, hspace⟩
    exact ⟨hcomplete, c, congrArg Prod.fst hselect, hsize, hspace⟩

end First

/-!
## One call
-/

/-- The states that a bulk call which returns records passes through. -/
structure BulkReturns (fsm : DbnFsm B) (buf : RecRefBuf)
    (recs : List RecordRef) (fsm' : DbnFsm B) (s : BulkState) : Prop where
  visits : fsm.BulkVisits buf s
  images : recs.map RecordRef.asRef = s.images
  recordPhase : fsm'.RecordPhase
  inv : fsm'.Inv
  upgradePolicy : fsm'.upgradePolicy = fsm.upgradePolicy
  tsOut : fsm'.tsOut = fsm.tsOut
  data : fsm'.data = s.rest
  item : fsm.bulkItem buf s = .stop ∧ fsm'.inputDbnVersion = s.version ∨
    fsm.bulkItem buf s = .noSpace fsm'.inputDbnVersion

section Call

variable [LawfulBuffer B] {fsm fsm' : DbnFsm B} {buf : RecRefBuf}

theorem exists_bulkReturns {k : Nat} {recs : List RecordRef}
    (hinv : fsm.Inv) (hphase : fsm.RecordPhase)
    (call : fsm.processMultiple (D := D) buf = .ret (.record k, recs, fsm')) :
    k = recs.length ∧ exists s, fsm.BulkReturns buf recs fsm' s := by
  rcases exists_bulkVisits_end fsm buf with ⟨s, hvisit, hend⟩
  have hanswers := processMultiple_answers (D := D) hinv hphase hvisit hend
  rw [call] at hanswers
  cases hitem : fsm.bulkItem buf s with
  | record s' => exact absurd hitem (hend s')
  | stop =>
      rw [hitem] at hanswers
      rcases hanswers with ⟨_, _, hret, hdone, hdata⟩
      cases hret
      exact ⟨rfl, s, hvisit, hdone.images, hdone.recordPhase, hdone.inv,
        hdone.upgradePolicy, hdone.tsOut, hdata,
        Or.inl ⟨hitem, hdone.version⟩⟩
  | invalid e =>
      rw [hitem] at hanswers
      rcases hanswers with ⟨_, _, hret, _⟩
      cases hret
  | truncated =>
      rw [hitem] at hanswers
      cases hanswers
  | noSpace v =>
      rw [hitem] at hanswers
      rcases hanswers with ⟨_, _, hret, hdone, hdata⟩
      cases hret
      refine ⟨rfl, s, hvisit, hdone.images, hdone.recordPhase, hdone.inv,
        hdone.upgradePolicy, hdone.tsOut, hdata, Or.inr ?_⟩
      rw [hitem, hdone.version]

/-- A call that lacks the space for the first record returns nothing. -/
theorem LacksSpace.processMultiple (h : fsm.LacksSpace) (hinv : fsm.Inv)
    (hphase : fsm.RecordPhase) (hbuf : buf.Takes) :
    exists fsm', fsm.processMultiple (D := D) buf =
      .ret (.record 0, [], fsm') := by
  rcases (lacksSpace_iff_bulkItem hbuf).mp h with ⟨v, hitem⟩
  have hanswers := processMultiple_answers (D := D) hinv hphase
    (BulkReaches.start : fsm.BulkVisits buf fsm.bulkStart)
    (by rw [hitem]; simp)
  rw [hitem] at hanswers
  rcases hanswers with ⟨recs, fsm', hret, hdone, _⟩
  have hnil : recs = [] := List.map_eq_nil_iff.mp hdone.images
  rw [hnil] at hret
  exact ⟨fsm', hret⟩

/-- A call that returns nothing has no record, or no space for it. -/
theorem lacksSpace_of_processMultiple {recs : List RecordRef}
    (hinv : fsm.Inv) (hphase : fsm.RecordPhase) (hbuf : buf.Takes)
    (hcomplete : CompleteRecord fsm.data)
    (call : fsm.processMultiple (D := D) buf = .ret (.record 0, recs, fsm')) :
    fsm.LacksSpace := by
  rcases exists_bulkReturns hinv hphase call with ⟨hlen, s, hreturns⟩
  have hnil : s.images = [] := by
    rw [← hreturns.images, List.map_eq_nil_iff]
    exact List.eq_nil_of_length_eq_zero hlen.symm
  have hitem := hreturns.item
  rw [hreturns.visits.eq_start hnil] at hitem
  rcases hitem with ⟨hstop, _⟩ | hspace
  · exact absurd hcomplete (bulkItem_start_stop hbuf hstop)
  · exact (lacksSpace_iff_bulkItem hbuf).mpr ⟨_, hspace⟩

end Call

/-!
## Draining
-/

/--
Bulk calls until one of them returns no records: the records that were
returned, and the machine on which the last call was made.
-/
inductive Drains (D : Type) [CalendarDate D] :
    DbnFsm B -> List (List UInt8) -> DbnFsm B -> Prop where
  | done {fsm fsm' : DbnFsm B} {buf : RecRefBuf} {recs : List RecordRef}
      (takes : buf.Takes)
      (call : fsm.processMultiple (D := D) buf =
        .ret (.record 0, recs, fsm')) : Drains D fsm [] fsm
  | more {fsm fsm' last : DbnFsm B} {buf : RecRefBuf} {k : Nat}
      {recs : List RecordRef} {images : List (List UInt8)}
      (takes : buf.Takes)
      (call : fsm.processMultiple (D := D) buf =
        .ret (.record (k + 1), recs, fsm')) (tail : Drains D fsm' images last) :
      Drains D fsm (recs.map RecordRef.asRef ++ images) last

/-- The records are all the complete records that are buffered. -/
def ReceivesAll (fsm : DbnFsm B) (images : List (List UInt8)) : Prop :=
  exists version rest, Delivers fsm.upgradePolicy fsm.tsOut
    fsm.inputDbnVersion fsm.data images version rest ∧ ¬ CompleteRecord rest

section Streams

variable {policy : VersionUpgradePolicy} {tsOut : Bool}
  {version v : Option Nat} {bytes rest : List UInt8}
  {images : List (List UInt8)}

/-- The version that a record reveals does not change what comes next. -/
theorem next_latched (h : (selectConversion version policy bytes).2 = v) :
    next policy tsOut v bytes = next policy tsOut version bytes := by
  have hidem := selectConversion_idem version policy bytes
  rw [h] at hidem
  unfold next nextImage
  rw [hidem]

theorem Delivers.of_latched (hv : (selectConversion version policy bytes).2 = v)
    {version' : Option Nat}
    (h : Delivers policy tsOut v bytes images version' rest) :
    exists version'', Delivers policy tsOut version bytes images version''
      rest := by
  cases h with
  | nil => exact ⟨version, Delivers.nil _ _⟩
  | cons head tail =>
      rw [next_latched hv] at head
      exact ⟨version', Delivers.cons head tail⟩

/-- The delivered records determine what is left. -/
theorem Delivers.rest_unique {version1 version2 : Option Nat}
    {rest' : List UInt8}
    (h : Delivers policy tsOut version bytes images version1 rest)
    (h' : Delivers policy tsOut version bytes images version2 rest') :
    rest = rest' := by
  induction h with
  | nil =>
      cases h'
      rfl
  | cons head _ ih =>
      cases h' with
      | cons head' tail' =>
          rw [head] at head'
          cases head'
          exact ih tail'

theorem version_of_noSpace {buf : RecRefBuf} {space : Nat} {s : BulkState}
    (h : bulkNext policy tsOut buf space s = .noSpace v) :
    (selectConversion s.version policy s.rest).2 = v := by
  rcases bulkNext_noSpace_iff.mp h with ⟨_, _, c, hselect, _⟩
  rw [hselect]

end Streams

/-- The call that ends the draining. -/
theorem Drains.last_call {fsm last : DbnFsm B} {images : List (List UInt8)}
    (h : Drains D fsm images last) :
    exists buf recs fsm', RecRefBuf.Takes buf ∧
      last.processMultiple (D := D) buf = .ret (.record 0, recs, fsm') := by
  induction h with
  | done takes call => exact ⟨_, _, _, takes, call⟩
  | more _ _ _ ih => exact ih

section Drain

variable [LawfulBuffer B] {fsm last : DbnFsm B}
  {images : List (List UInt8)}

/-- What is drained has been delivered, and the last machine has the rest. -/
theorem Drains.delivers (hinv : fsm.Inv) (hphase : fsm.RecordPhase)
    (h : Drains D fsm images last) :
    (exists version, Delivers fsm.upgradePolicy fsm.tsOut
      fsm.inputDbnVersion fsm.data images version last.data) ∧
    last.Inv ∧ last.RecordPhase := by
  induction h with
  | done => exact ⟨⟨_, Delivers.nil _ _⟩, hinv, hphase⟩
  | @more fsm fsm' last buf k recs images takes call tail ih =>
      rcases exists_bulkReturns hinv hphase call with ⟨_, s, hreturns⟩
      rcases ih hreturns.inv hreturns.recordPhase with
        ⟨⟨version, hdelivers⟩, hlast⟩
      have hfirst := BulkReaches.delivers rfl hreturns.visits
      rw [hreturns.upgradePolicy, hreturns.tsOut, hreturns.data] at hdelivers
      -- the version that is latched without space changes nothing
      have hrest : exists version', Delivers fsm.upgradePolicy fsm.tsOut
          s.version s.rest images version' last.data := by
        rcases hreturns.item with ⟨_, hversion⟩ | hspace
        · rw [hversion] at hdelivers
          exact ⟨version, hdelivers⟩
        · exact hdelivers.of_latched (version_of_noSpace hspace)
      rcases hrest with ⟨version', hrest⟩
      rw [hreturns.images]
      exact ⟨⟨version', hfirst.append hrest⟩, hlast⟩

/--
In the record phase a bulk call returns no records only when no complete record
is buffered, exactly if the first record does not lack the space for its new
form.  A caller that drains the machine receives all complete records exactly
if this is so when the last call is made.
-/
theorem bulk_progress_iff (hreach : Reachable D fsm)
    (hphase : fsm.RecordPhase) :
    (forall buf : RecRefBuf, buf.Takes ->
      ((forall recs fsm', fsm.processMultiple (D := D) buf =
          .ret (.record 0, recs, fsm') -> ¬ CompleteRecord fsm.data) <->
        ¬ fsm.LacksSpace)) ∧
    (forall images last, Drains D fsm images last ->
      (fsm.ReceivesAll images <-> ¬ last.LacksSpace)) := by
  have hinv := hreach.inv
  constructor
  · intro buf hbuf
    constructor
    · intro h hlacks
      rcases hlacks.processMultiple (D := D) hinv hphase hbuf with
        ⟨fsm', hret⟩
      exact h [] fsm' hret hlacks.1
    · intro hspace recs fsm' call hcomplete
      exact hspace
        (lacksSpace_of_processMultiple hinv hphase hbuf hcomplete call)
  · intro images last hdrains
    rcases hdrains.delivers hinv hphase with
      ⟨⟨version, hdelivers⟩, hlastInv, hlastPhase⟩
    constructor
    · intro hall hlacks
      rcases hall with ⟨version', rest, hrest, hcomplete⟩
      rw [← hdelivers.rest_unique hrest] at hcomplete
      exact hcomplete hlacks.1
    · intro hspace
      refine ⟨version, last.data, hdelivers, ?_⟩
      intro hcomplete
      rcases hdrains.last_call with ⟨buf, recs, fsm', hbuf, call⟩
      exact hspace (lacksSpace_of_processMultiple hlastInv hlastPhase hbuf
        hcomplete call)

end Drain

/-- A record that is handed out as it is needs no space. -/
theorem bulk_progress_iff_heartbeat :
    ¬ (fragment (some ⟨1, by decide⟩) .asIs heartbeatV1).LacksSpace ∧
    forall recs fsm', (fragment (some ⟨1, by decide⟩) .asIs
      heartbeatV1).processMultiple (D := GregorianDate) (.all none) =
        .ret (.record 0, recs, fsm') ->
      ¬ CompleteRecord
        (fragment (some ⟨1, by decide⟩) .asIs heartbeatV1).data := by
  have hspace : ¬ (fragment (some ⟨1, by decide⟩) .asIs
      heartbeatV1).LacksSpace := by
    intro hlacks
    rcases hlacks with ⟨_, c, hselect, _⟩
    cases hselect
  constructor
  · exact hspace
  · exact ((bulk_progress_iff (reachable_fragment rfl heartbeatV1) rfl).1
      (.all none) trivial).mpr hspace

/-- A record that is to be upgraded, with no compatibility buffer. -/
theorem not_bulk_progress_heartbeat :
    ¬ forall recs fsm', (fragment (some ⟨1, by decide⟩) .upgradeToV3
      heartbeatV1).processMultiple (D := GregorianDate) (.all none) =
        .ret (.record 0, recs, fsm') ->
      ¬ CompleteRecord
        (fragment (some ⟨1, by decide⟩) .upgradeToV3 heartbeatV1).data := by
  intro h
  have hlacks : (fragment (some ⟨1, by decide⟩) .upgradeToV3
      heartbeatV1).LacksSpace := by
    constructor
    · decide
    · exact ⟨.systemV1ToV2, rfl, by decide, by decide⟩
  have hreach : Reachable GregorianDate (fragment (some ⟨1, by decide⟩)
      .upgradeToV3 heartbeatV1) := reachable_fragment rfl heartbeatV1
  have hbuf : RecRefBuf.Takes (.all none) := trivial
  rcases hlacks.processMultiple (D := GregorianDate) hreach.inv rfl hbuf with
    ⟨fsm', hret⟩
  exact h [] fsm' hret hlacks.1

end DbnFsm
end Dbn
