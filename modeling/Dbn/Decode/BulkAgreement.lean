import Dbn.Decode.Reachable

/-!
# Bulk decoding and decoding one record at a time

The records of a bulk call are those of as many calls of `process`.  The bulk
call differs in three places: it looks at the length of a record before all of
its header is there, it keeps the version that it has detected from a record
for which it has no space, and into a slice it gives out no records with an
error.
-/

namespace Dbn
namespace DbnFsm

open Lib

variable {B D : Type} [Buffer B] [CalendarDate D]

/-- Successive calls of `process` that return these records. -/
inductive Calls (D : Type) [CalendarDate D] :
    DbnFsm B -> List (List UInt8) -> DbnFsm B -> Prop where
  | nil (fsm : DbnFsm B) : Calls D fsm [] fsm
  | cons {fsm fsm' fsm'' : DbnFsm B} {image : List UInt8}
      {images : List (List UInt8)}
      (call : fsm.process (D := D) = .ret (.record (), fsm'))
      (last : fsm'.lastBytes = some image)
      (tail : Calls D fsm' images fsm'') :
      Calls D fsm (image :: images) fsm''

/-- The calls lead to one machine. -/
theorem Calls.unique {fsm fsm1 fsm2 : DbnFsm B} {images : List (List UInt8)}
    (h1 : Calls D fsm images fsm1) (h2 : Calls D fsm images fsm2) :
    fsm1 = fsm2 := by
  induction h1 with
  | nil =>
      cases h2
      rfl
  | cons call _ _ ih =>
      cases h2 with
      | cons call' _ tail' =>
          rw [call] at call'
          cases call'
          exact ih tail'

/-- The machine after the calls. -/
structure CallsDone (D : Type) [CalendarDate D] (fsm : DbnFsm B)
    (images : List (List UInt8)) (version : Option Nat) (rest : List UInt8)
    (fsm' : DbnFsm B) : Prop where
  calls : Calls D fsm images fsm'
  recordPhase : fsm'.RecordPhase
  inv : fsm'.Inv
  upgradePolicy : fsm'.upgradePolicy = fsm.upgradePolicy
  tsOut : fsm'.tsOut = fsm.tsOut
  version : fsm'.inputDbnVersion = version
  data : fsm'.data = rest

section Calls

variable [LawfulBuffer B] {fsm : DbnFsm B}

/-- One call that hands out a record. -/
theorem exists_call {image : List UInt8} {version : Option Nat}
    (hinv : fsm.Inv) (hphase : fsm.RecordPhase)
    (hitem : fsm.nextItem = .record image version) :
    exists fsm', CallsDone D fsm [image] version
      (fsm.data.drop (recordSize fsm.data)) fsm' := by
  obtain ⟨fsm', hret, hout⟩ := process_record (D := D) hinv hphase hitem
  have hsettled : next fsm.settle.upgradePolicy fsm.settle.tsOut
      fsm.settle.inputDbnVersion (Buffer.data fsm.settle.buffer) =
      .record image version := by
    rw [data_buffer_settle hphase, settle_upgradePolicy, settle_tsOut,
      settle_inputDbnVersion]
    exact hitem
  exact ⟨fsm',
    { calls := Calls.cons hret (hout.lastBytes_eq hsettled) (Calls.nil fsm')
      recordPhase := hout.recordPhase
      inv := hout.inv (complete_of_next_record hsettled)
        (supportedVersion_next (hinv.supportedVersion hphase) hitem)
      upgradePolicy := by rw [hout.upgradePolicy, settle_upgradePolicy]
      tsOut := by rw [hout.tsOut, settle_tsOut]
      version := hout.version
      data := by rw [hout.data_eq (state_settle hphase), data_settle] }⟩

/-- What is delivered abstractly is returned by successive calls. -/
theorem exists_calls {images : List (List UInt8)} {version : Option Nat}
    {rest : List UInt8} (hinv : fsm.Inv) (hphase : fsm.RecordPhase)
    (h : Delivers fsm.upgradePolicy fsm.tsOut fsm.inputDbnVersion fsm.data
      images version rest) :
    exists fsm', CallsDone D fsm images version rest fsm' := by
  generalize hpolicy : fsm.upgradePolicy = policy at h
  generalize htsOut : fsm.tsOut = tsOut at h
  generalize hversion : fsm.inputDbnVersion = v at h
  generalize hdata : fsm.data = bytes at h
  induction h generalizing fsm with
  | nil => exact ⟨fsm, Calls.nil fsm, hphase, hinv, rfl, rfl, hversion, hdata⟩
  | cons head _ ih =>
      obtain ⟨fsm1, hone⟩ := exists_call (D := D) hinv hphase (by
        unfold nextItem
        rw [hpolicy, htsOut, hversion, hdata]
        exact head)
      obtain ⟨fsm2, hrest⟩ := ih hone.inv hone.recordPhase
        (hone.upgradePolicy.trans hpolicy) (hone.tsOut.trans htsOut)
        hone.version (hone.data.trans (by rw [hdata]))
      refine ⟨fsm2, ?_, hrest.recordPhase, hrest.inv,
        hrest.upgradePolicy.trans hone.upgradePolicy,
        hrest.tsOut.trans hone.tsOut, hrest.version, hrest.data⟩
      cases hone.calls with
      | cons call last tail =>
          cases tail
          exact Calls.cons call last hrest.calls

/-- The calls that return the records of a state of the bulk loop. -/
theorem BulkVisits.exists_calls {buf : RecRefBuf} {s : BulkState}
    (hinv : fsm.Inv) (hphase : fsm.RecordPhase) (h : fsm.BulkVisits buf s) :
    exists fsm', CallsDone D fsm s.images s.version s.rest fsm' :=
  DbnFsm.exists_calls hinv hphase (BulkReaches.delivers rfl h)

end Calls

/-!
## Where the two agree
-/

/--
A bulk call returns what successive calls of `process` return and leaves the
same data and version; if it fails, the records it gives out are those of the
calls before the one that fails with the same error.
-/
def BulkAgrees (D : Type) [CalendarDate D] (fsm : DbnFsm B)
    (buf : RecRefBuf) : Prop :=
  (forall k recs fsm',
    fsm.processMultiple (D := D) buf = .ret (.record k, recs, fsm') ->
    recs.length = k ∧ exists single,
      Calls D fsm (recs.map RecordRef.asRef) single ∧
      single.data = fsm'.data ∧
      single.inputDbnVersion = fsm'.inputDbnVersion) ∧
  (forall e recs fsm',
    fsm.processMultiple (D := D) buf = .ret (.err e, recs, fsm') ->
    exists single single', Calls D fsm (recs.map RecordRef.asRef) single ∧
      single.process (D := D) = .ret (.err e, single'))

/--
After records that the bulk call hands out, the start of a header is buffered
that has an impossible length.
-/
def EndsInShortHeader (fsm : DbnFsm B) (buf : RecRefBuf) : Prop :=
  exists s, fsm.BulkVisits buf s ∧ buf.hasCapacity s.images.length ∧
    s.rest ≠ [] ∧ s.rest.length < headerLen ∧ recordSize s.rest < headerLen

/--
After records that the bulk call hands out, a record reveals the version, and
there is no space for its new form.
-/
def DetectsWithoutSpace (fsm : DbnFsm B) (buf : RecRefBuf) : Prop :=
  exists s c v, fsm.BulkVisits buf s ∧ buf.hasCapacity s.images.length ∧
    CompleteRecord s.rest ∧ s.version = none ∧
    detectConversion (rtypeOf s.rest) fsm.upgradePolicy
      (recordSize s.rest) = some (c, some v) ∧
    requiredSize c fsm.tsOut ≤ recordSize s.rest ∧
    fsm.compatSpace - s.written ≤ c.target.size + tsOutLen fsm.tsOut

/--
Behind records that have been put into the slice of `process_many` there is a
length that is impossible.
-/
def LosesRecords (fsm : DbnFsm B) (buf : RecRefBuf) : Prop :=
  match buf with
  | .all _ => False
  | .many _ => exists s, fsm.BulkVisits buf s ∧
      buf.hasCapacity s.images.length ∧ s.images ≠ [] ∧ s.rest ≠ [] ∧
      recordSize s.rest < headerLen

section Items

variable {fsm : DbnFsm B} {buf : RecRefBuf} {s : BulkState}

/-- The caller has all records unless there were some in a slice. -/
theorem images_onError {recs : List RecordRef}
    (hkeeps : ¬ LosesRecords fsm buf) (hvisit : fsm.BulkVisits buf s)
    (hcap : buf.hasCapacity s.images.length) (hne : s.rest ≠ [])
    (hlength : recordSize s.rest < headerLen)
    (himages : recs.map RecordRef.asRef = s.images) :
    (buf.onError recs).map RecordRef.asRef = s.images := by
  cases buf with
  | all limit => exact himages
  | many slots =>
      by_contra hlost
      exact hkeeps ⟨s, hvisit, hcap, fun hnil => hlost hnil.symm, hne, hlength⟩

/-- A record without space changes the version only when it is detected. -/
theorem bulkItem_noSpace_iff {v : Option Nat} (hne : v ≠ s.version) :
    fsm.bulkItem buf s = .noSpace v <->
      exists c w, v = some w ∧ buf.hasCapacity s.images.length ∧
        CompleteRecord s.rest ∧ s.version = none ∧
        detectConversion (rtypeOf s.rest) fsm.upgradePolicy
          (recordSize s.rest) = some (c, some w) ∧
        requiredSize c fsm.tsOut ≤ recordSize s.rest ∧
        fsm.compatSpace - s.written ≤ c.target.size + tsOutLen fsm.tsOut := by
  unfold bulkItem
  rw [bulkNext_noSpace_iff]
  constructor
  · intro h
    rcases h with ⟨hcap, hcomplete, c, hselect, hsize, hspace⟩
    cases hversion : s.version with
    | some w =>
        rw [hversion] at hselect hne
        exact absurd (congrArg Prod.snd hselect).symm hne
    | none =>
        rw [hversion] at hselect hne
        unfold selectConversion at hselect
        dsimp only at hselect
        split at hselect
        · next found hdetect =>
            cases hselect
            cases v with
            | none => exact absurd rfl hne
            | some w =>
                exact ⟨c, w, rfl, hcap, hcomplete, rfl, hdetect, hsize, hspace⟩
        · cases hselect
  · intro h
    rcases h with
      ⟨c, w, rfl, hcap, hcomplete, hversion, hdetect, hsize, hspace⟩
    have hselect : selectConversion s.version fsm.upgradePolicy s.rest =
        (some c, some w) := by
      unfold selectConversion
      rw [hversion, hdetect]
    exact ⟨hcap, hcomplete, c, hselect, hsize, hspace⟩

end Items

/-- The records of a slice are not given out with the error. -/
theorem LosesRecords.not_bulkAgrees [LawfulBuffer B] {fsm : DbnFsm B}
    (hinv : fsm.Inv) (hphase : fsm.RecordPhase) {buf : RecRefBuf}
    (h : LosesRecords fsm buf) : ¬ BulkAgrees D fsm buf := by
  rintro ⟨_, herr⟩
  cases buf with
  | all limit => exact h
  | many slots =>
      rcases h with ⟨s, hvisit, hcap, himages, hne, hlength⟩
      have hitem : fsm.bulkItem (.many slots) s =
          .invalid (invalidLength (recordSize s.rest)) :=
        bulkItem_invalid_iff.mpr ⟨hcap, hne, hlength, rfl⟩
      have hanswers := processMultiple_answers (D := D) hinv hphase hvisit
        (by rw [hitem]; simp)
      rw [hitem] at hanswers
      obtain ⟨recs, fsm', hret, _, _⟩ := hanswers
      obtain ⟨single, single', hcalls, hprocess⟩ := herr _ _ _ hret
      -- no records were given out, so the first call would have to fail
      cases hcalls
      obtain ⟨single2, hsingle⟩ := hvisit.exists_calls (D := D) hinv hphase
      have hfirst := hsingle.calls
      cases himage : s.images with
      | nil => exact himages himage
      | cons image images =>
          rw [himage] at hfirst
          cases hfirst with
          | cons call _ _ =>
              rw [call] at hprocess
              cases hprocess

/-- The bulk call refuses a header for which a single call asks for more. -/
theorem EndsInShortHeader.not_bulkAgrees [LawfulBuffer B] {fsm : DbnFsm B}
    (hinv : fsm.Inv) (hphase : fsm.RecordPhase) {buf : RecRefBuf}
    (h : EndsInShortHeader fsm buf) : ¬ BulkAgrees D fsm buf := by
  intro hagrees
  have hkeeps : ¬ LosesRecords fsm buf :=
    fun hlost => hlost.not_bulkAgrees hinv hphase hagrees
  obtain ⟨_, herr⟩ := hagrees
  rcases h with ⟨s, hvisit, hcap, hne, hshort, hheader⟩
  have hitem : fsm.bulkItem buf s =
      .invalid (invalidLength (recordSize s.rest)) :=
    bulkItem_invalid_iff.mpr ⟨hcap, hne, hheader, rfl⟩
  have hanswers := processMultiple_answers (D := D) hinv hphase hvisit
    (by rw [hitem]; simp)
  rw [hitem] at hanswers
  obtain ⟨recs, fsm', hret, hdone, _⟩ := hanswers
  obtain ⟨single, single', hcalls, hprocess⟩ := herr _ _ _ hret
  obtain ⟨single2, hsingle⟩ := hvisit.exists_calls (D := D) hinv hphase
  rw [images_onError hkeeps hvisit hcap hne hheader hdone.images] at hcalls
  rw [hcalls.unique hsingle.calls] at hprocess
  -- the header is not complete, so the single call asks for more
  have hmore : single2.nextItem =
      .needMore (headerLen - s.rest.length) := by
    unfold nextItem next
    rw [hsingle.data, if_pos hshort]
  rw [process_needMore hsingle.recordPhase hmore] at hprocess
  cases hprocess

/-- The bulk call knows a version that no single call has found. -/
theorem DetectsWithoutSpace.not_bulkAgrees [LawfulBuffer B] {fsm : DbnFsm B}
    (hinv : fsm.Inv) (hphase : fsm.RecordPhase) {buf : RecRefBuf}
    (h : DetectsWithoutSpace fsm buf) : ¬ BulkAgrees D fsm buf := by
  rintro ⟨hrecords, _⟩
  rcases h with ⟨s, c, v, hvisit, hcap, hcomplete, hversion, hdetect, hsize,
    hspace⟩
  have hitem : fsm.bulkItem buf s = .noSpace (some v) :=
    (bulkItem_noSpace_iff (by rw [hversion]; simp)).mpr
      ⟨c, v, rfl, hcap, hcomplete, hversion, hdetect, hsize, hspace⟩
  have hanswers := processMultiple_answers (D := D) hinv hphase hvisit
    (by rw [hitem]; simp)
  rw [hitem] at hanswers
  obtain ⟨recs, fsm', hret, hdone, _⟩ := hanswers
  obtain ⟨_, single, hcalls, _, hsame⟩ := hrecords _ _ _ hret
  obtain ⟨single2, hsingle⟩ := hvisit.exists_calls (D := D) hinv hphase
  rw [hdone.images] at hcalls
  rw [hcalls.unique hsingle.calls, hsingle.version, hdone.version,
    hversion] at hsame
  cases hsame

/--
In the record phase of a reachable machine a bulk call agrees with successive
calls of `process` if and only if it meets neither the start of a header with an
impossible length, nor a record that reveals the version and has no space, nor,
into a slice, an impossible length after a record.
-/
theorem bulkAgrees_iff [LawfulBuffer B] {fsm : DbnFsm B}
    (hreach : Reachable D fsm) (hphase : fsm.RecordPhase) (buf : RecRefBuf) :
    BulkAgrees D fsm buf <->
      ¬ EndsInShortHeader fsm buf ∧ ¬ DetectsWithoutSpace fsm buf ∧
        ¬ LosesRecords fsm buf := by
  have hinv := hreach.inv
  constructor
  · intro hagrees
    exact ⟨fun h => h.not_bulkAgrees hinv hphase hagrees,
      fun h => h.not_bulkAgrees hinv hphase hagrees,
      fun h => h.not_bulkAgrees hinv hphase hagrees⟩
  · rintro ⟨hheader, hdetect, hkeeps⟩
    obtain ⟨s, hvisit, hend⟩ := exists_bulkVisits_end fsm buf
    have hanswers := processMultiple_answers (D := D) hinv hphase hvisit hend
    obtain ⟨single, hsingle⟩ := hvisit.exists_calls (D := D) hinv hphase
    have hreturned : forall {recs : List RecordRef} {fsm' : DbnFsm B},
        fsm.processMultiple (D := D) buf =
          .ret (.record recs.length, recs, fsm') ->
        fsm.BulkDone s s.version recs fsm' -> fsm'.data = s.rest ->
        BulkAgrees D fsm buf := by
      intro recs fsm' hret hdone hdata
      constructor
      · intro k recs2 fsm2 hret2
        rw [hret] at hret2
        cases hret2
        refine ⟨rfl, single, ?_, ?_, ?_⟩
        · rw [hdone.images]
          exact hsingle.calls
        · rw [hsingle.data, hdata]
        · rw [hsingle.version, hdone.version]
      · intro e recs2 fsm2 hret2
        rw [hret] at hret2
        cases hret2
    cases hitem : fsm.bulkItem buf s with
    | record s' => exact absurd hitem (hend s')
    | stop =>
        rw [hitem] at hanswers
        obtain ⟨recs, fsm', hret, hdone, hdata⟩ := hanswers
        exact hreturned hret hdone hdata
    | invalid e =>
        rw [hitem] at hanswers
        obtain ⟨recs, fsm', hret, hdone, _⟩ := hanswers
        obtain ⟨hcap, hne, hlength, rfl⟩ := bulkItem_invalid_iff.mp hitem
        constructor
        · intro k recs2 fsm2 hret2
          rw [hret] at hret2
          cases hret2
        · intro e recs2 fsm2 hret2
          rw [hret] at hret2
          cases hret2
          have hcomplete : ¬ s.rest.length < headerLen := fun hshort =>
            hheader ⟨s, hvisit, hcap, hne, hshort, hlength⟩
          have hinvalid : single.nextItem =
              .invalid (invalidLength (recordSize s.rest)) := by
            unfold nextItem next
            rw [hsingle.data, if_neg hcomplete, if_pos hlength]
          refine ⟨single, _, ?_, process_invalid hsingle.recordPhase hinvalid⟩
          rw [images_onError hkeeps hvisit hcap hne hlength hdone.images]
          exact hsingle.calls
    | truncated =>
        rw [hitem] at hanswers
        have hpanic : fsm.processMultiple (D := D) buf = _ := hanswers
        constructor <;> intro _ _ _ hret <;> rw [hpanic] at hret <;> cases hret
    | noSpace v =>
        rw [hitem] at hanswers
        obtain ⟨recs, fsm', hret, hdone, hdata⟩ := hanswers
        by_cases hsame : v = s.version
        · rw [hsame] at hdone
          exact hreturned hret hdone hdata
        · obtain ⟨c, w, _, hrest⟩ := (bulkItem_noSpace_iff hsame).mp hitem
          exact absurd ⟨s, c, w, hvisit, hrest⟩ hdetect

theorem bulkAgrees_iff_fragment :
    BulkAgrees GregorianDate
        (fragment none .asIs (4 :: List.replicate 20 0)) (.all none) <->
      ¬ EndsInShortHeader
          (fragment none .asIs (4 :: List.replicate 20 0)) (.all none) ∧
        ¬ DetectsWithoutSpace
          (fragment none .asIs (4 :: List.replicate 20 0)) (.all none) ∧
        ¬ LosesRecords
          (fragment none .asIs (4 :: List.replicate 20 0)) (.all none) :=
  bulkAgrees_iff (reachable_fragment rfl _) (by rfl) (.all none)

/-- One byte of a header is buffered. -/
theorem not_bulkAgrees_fragment :
    ¬ BulkAgrees GregorianDate (fragment none .asIs [0]) (.all none) := by
  have hbulk : (fragment none .asIs [0]).processMultiple (D := GregorianDate)
      (.all none) = .ret (.err (invalidLength 0), [],
        fragment none .asIs [0]) := by rfl
  have hsingle : (fragment none .asIs [0]).process (D := GregorianDate) =
      .ret (.readMore 15, fragment none .asIs [0]) := by rfl
  rintro ⟨_, herr⟩
  obtain ⟨single, single', hcalls, hprocess⟩ := herr _ _ _ hbulk
  cases hcalls
  rw [hsingle] at hprocess
  cases hprocess

end DbnFsm
end Dbn
