import Dbn.Decode.Process

/-!
# The loop over records of the bulk calls

`process_all` and `process_many` walk over the buffered records with local
counters and write the counters back at the end.  `BulkState` is what the
counters stand for: the records handed out so far, the room they take in the
compatibility buffer, and the version and bytes that are left.  A round of the
loop is a step of that state.
-/

namespace Dbn
namespace DbnFsm

open Lib

variable {B D : Type} [Buffer B] [CalendarDate D]

/-- The progress of the loop over records. -/
structure BulkState where
  images : List (List UInt8)
  written : Nat
  version : Option Nat
  rest : List UInt8

/-- What the loop does with a state. -/
inductive BulkNext where
  | record (s : BulkState)
  /-- The limit is reached or no complete record is left. -/
  | stop
  | invalid (e : Error)
  | truncated
  /-- There is no room for the new record, whose version is known. -/
  | noSpace (version : Option Nat)

section Step

variable (policy : VersionUpgradePolicy) (tsOut : Bool) (buf : RecRefBuf)
  (space : Nat)

/-- The step of the loop. -/
def bulkNext (s : BulkState) : BulkNext :=
  if buf.hasCapacity s.images.length ∧ s.rest ≠ [] then
    if recordSize s.rest < headerLen then
      .invalid (invalidLength (recordSize s.rest))
    else if recordSize s.rest > s.rest.length then .stop
    else
      let rest := s.rest.drop (recordSize s.rest)
      match selectConversion s.version policy s.rest with
      | (none, v) =>
          let image := s.rest.take (recordSize s.rest)
          .record ⟨s.images ++ [image], s.written, v, rest⟩
      | (some c, v) =>
          if recordSize s.rest < requiredSize c tsOut then .truncated
          else if c.target.size + tsOutLen tsOut ≥ space - s.written then
            .noSpace v
          else
            let image := c.upgraded tsOut (s.rest.take (requiredSize c tsOut))
            .record ⟨s.images ++ [image], s.written + image.length, v, rest⟩
  else .stop

/-- The states that the loop passes through. -/
inductive BulkReaches (start : BulkState) : BulkState -> Prop where
  | start : BulkReaches start start
  | step {s s' : BulkState} (before : BulkReaches start s)
      (next : bulkNext policy tsOut buf space s = .record s') :
      BulkReaches start s'

end Step

variable {policy : VersionUpgradePolicy} {tsOut : Bool} {buf : RecRefBuf}
  {space : Nat} {start s s' : BulkState}

theorem CompleteRecord.ne_nil {bytes : List UInt8}
    (h : CompleteRecord bytes) : bytes ≠ [] := by
  intro hnil
  have hlen := h.length_le
  rw [hnil, headerLen_eq, List.length_nil] at hlen
  omega

/-- What the loop does with a complete record. -/
theorem bulkNext_complete (hcap : buf.hasCapacity s.images.length)
    (h : CompleteRecord s.rest) :
    bulkNext policy tsOut buf space s =
      match selectConversion s.version policy s.rest with
      | (none, v) =>
          .record ⟨s.images ++ [s.rest.take (recordSize s.rest)], s.written, v,
            s.rest.drop (recordSize s.rest)⟩
      | (some c, v) =>
          if recordSize s.rest < requiredSize c tsOut then .truncated
          else if c.target.size + tsOutLen tsOut ≥ space - s.written then
            .noSpace v
          else
            let image := c.upgraded tsOut (s.rest.take (requiredSize c tsOut))
            .record ⟨s.images ++ [image], s.written + image.length, v,
              s.rest.drop (recordSize s.rest)⟩ := by
  unfold bulkNext
  rw [if_pos ⟨hcap, h.ne_nil⟩, if_neg (Nat.not_lt.mpr h.header),
    if_neg (Nat.not_lt.mpr h.body)]

/-- When the loop has no space for a record. -/
theorem bulkNext_noSpace_iff {v : Option Nat} :
    bulkNext policy tsOut buf space s = .noSpace v <->
      buf.hasCapacity s.images.length ∧ CompleteRecord s.rest ∧
        exists c, selectConversion s.version policy s.rest = (some c, v) ∧
          requiredSize c tsOut ≤ recordSize s.rest ∧
          space - s.written ≤ c.target.size + tsOutLen tsOut := by
  constructor
  · intro h
    unfold bulkNext at h
    split_ifs at h with hcap hheader hbody
    dsimp only at h
    split at h
    · cases h
    · next c v' hselect =>
        split_ifs at h with hsize hspace
        cases h
        exact ⟨hcap.1, ⟨Nat.not_lt.mp hheader, Nat.not_lt.mp hbody⟩, c,
          hselect, Nat.not_lt.mp hsize, hspace⟩
  · intro h
    rcases h with ⟨hcap, hcomplete, c, hselect, hsize, hspace⟩
    rw [bulkNext_complete hcap hcomplete, hselect]
    dsimp only
    rw [if_neg (Nat.not_lt.mpr hsize), if_pos hspace]

/-- What a step for a record does. -/
theorem bulkNext_record (h : bulkNext policy tsOut buf space s = .record s') :
    buf.hasCapacity s.images.length ∧ CompleteRecord s.rest ∧
    s'.rest = s.rest.drop (recordSize s.rest) ∧ exists image,
      s'.images = s.images ++ [image] ∧
      (selectConversion s.version policy s.rest = (none, s'.version) ∧
          image = s.rest.take (recordSize s.rest) ∧ s'.written = s.written ∨
        exists c,
          selectConversion s.version policy s.rest = (some c, s'.version) ∧
          requiredSize c tsOut ≤ recordSize s.rest ∧
          c.target.size + tsOutLen tsOut < space - s.written ∧
          image = c.upgraded tsOut (s.rest.take (requiredSize c tsOut)) ∧
          s'.written = s.written + (c.target.size + tsOutLen tsOut)) := by
  unfold bulkNext at h
  split_ifs at h with hcap hheader hbody
  have hcomplete : CompleteRecord s.rest :=
    ⟨Nat.not_lt.mp hheader, Nat.not_lt.mp hbody⟩
  dsimp only at h
  split at h
  · next v hselect =>
      cases h
      exact ⟨hcap.1, hcomplete, rfl, _, rfl, Or.inl ⟨hselect, rfl, rfl⟩⟩
  · next c v hselect =>
      split_ifs at h with hsize hspace
      cases h
      refine ⟨hcap.1, hcomplete, rfl, _, rfl, Or.inr ⟨c, hselect,
        Nat.not_lt.mp hsize, Nat.not_le.mp hspace, rfl, ?_⟩⟩
      dsimp only
      rw [Conversion.length_upgraded]

/-- A step for a record is the delivery of that record. -/
theorem next_of_bulkNext (h : bulkNext policy tsOut buf space s = .record s') :
    exists image, s'.images = s.images ++ [image] ∧
      next policy tsOut s.version s.rest = .record image s'.version ∧
      s'.rest = s.rest.drop (recordSize s.rest) := by
  obtain ⟨_, hcomplete, hrest, image, himages, hcase⟩ := bulkNext_record h
  refine ⟨image, himages, ?_, hrest⟩
  rw [next_of_complete hcomplete]
  unfold nextImage
  rcases hcase with ⟨hselect, rfl, _⟩ | ⟨c, hselect, hsize, _, rfl, _⟩
  · rw [hselect]
  · rw [hselect]
    dsimp only
    rw [if_neg (Nat.not_lt.mpr hsize)]

/-- The records of a state are delivered from the start. -/
theorem BulkReaches.delivers (himages : start.images = [])
    (h : BulkReaches policy tsOut buf space start s) :
    Delivers policy tsOut start.version start.rest s.images s.version
      s.rest := by
  induction h with
  | start =>
      rw [himages]
      exact Delivers.nil _ _
  | step _ hnext ih =>
      obtain ⟨image, himages', hdeliver, hrest⟩ := next_of_bulkNext hnext
      rw [himages', hrest]
      exact ih.append (Delivers.cons hdeliver (Delivers.nil _ _))

/-- Every step consumes a header. -/
theorem length_rest_of_bulkNext
    (h : bulkNext policy tsOut buf space s = .record s') :
    s'.rest.length < s.rest.length := by
  obtain ⟨image, _, hnext, hrest⟩ := next_of_bulkNext h
  have hcomplete := complete_of_next_record hnext
  have hheader := hcomplete.header
  have hbody := hcomplete.body
  rw [headerLen_eq] at hheader
  rw [hrest, List.length_drop]
  omega

/-- The loop comes to an end. -/
theorem exists_reaches_end (s : BulkState)
    (h : BulkReaches policy tsOut buf space start s) :
    exists s', BulkReaches policy tsOut buf space start s' ∧
      forall s'', bulkNext policy tsOut buf space s' ≠ .record s'' := by
  induction hlen : s.rest.length using Nat.strong_induction_on generalizing s with
  | _ n ih =>
      by_cases hnext : exists s', bulkNext policy tsOut buf space s = .record s'
      · obtain ⟨s', hnext⟩ := hnext
        have hlt := length_rest_of_bulkNext hnext
        exact ih _ (by omega) s' (h.step hnext) rfl
      · exact ⟨s, h, fun s' hs' => hnext ⟨s', hs'⟩⟩

/-!
## The loop follows the steps
-/

/-- The local variables of the loop stand for a state. -/
structure Bulk.Matches (data : List UInt8) (acc : Bulk) (s : BulkState) :
    Prop where
  images : acc.recs.map RecordRef.asRef = s.images
  written : acc.written.length = s.written
  version : acc.version = s.version
  readBytes : acc.readBytes ≤ data.length
  rest : s.rest = data.drop acc.readBytes
  supported : SupportedVersion s.version

theorem Bulk.Matches.length_recs {data : List UInt8} {acc : Bulk}
    (h : acc.Matches data s) : acc.recs.length = s.images.length := by
  rw [← h.images, List.length_map]

/-- The loop has gone past one more record. -/
theorem Bulk.Matches.push {data : List UInt8} {acc : Bulk}
    (h : acc.Matches data s) {version : Option Nat} (rec : RecordRef)
    (written : List UInt8) (hversion : SupportedVersion version)
    (hbody : recordSize s.rest ≤ s.rest.length) :
    Bulk.Matches data
      ⟨version, acc.recs ++ [rec], acc.readBytes + recordSize s.rest,
        acc.written ++ written⟩
      ⟨s.images ++ [rec.asRef], s.written + written.length, version,
        s.rest.drop (recordSize s.rest)⟩ := by
  have hread := h.readBytes
  rw [h.rest, List.length_drop] at hbody
  refine ⟨by simp [h.images], by simp [h.written], rfl, ?_, ?_, hversion⟩
  · rw [h.rest]
    dsimp only
    omega
  · dsimp only
    rw [h.rest, List.drop_drop]

/-- How a round of the loop answers a step. -/
def BulkRound.Answers (data : List UInt8) (acc : Bulk) (r : BulkRound) :
    BulkNext -> Prop
  | .record s' => exists acc', r = .again acc' ∧ acc'.Matches data s'
  | .stop => r = .done (.stopped false) acc
  | .invalid e => r = .done (.invalid e) acc
  | .truncated => r = .panicked Panic.assertion
  | .noSpace v => r = .done (.stopped true) { acc with version := v }

theorem bulkRound_answers (buf : RecRefBuf) {fsm : DbnFsm B} {acc : Bulk}
    (h : acc.Matches (Buffer.data fsm.buffer) s) :
    (fsm.bulkRound buf acc).Answers (Buffer.data fsm.buffer) acc
      (bulkNext fsm.upgradePolicy fsm.tsOut buf
        (Buffer.availableSpace fsm.compatBuffer) s) := by
  have hguard : (buf.hasCapacity acc.recs.length ∧
      acc.readBytes < (Buffer.data fsm.buffer).length) <->
      (buf.hasCapacity s.images.length ∧ s.rest ≠ []) := by
    rw [h.length_recs, h.rest, Ne, List.drop_eq_nil_iff, Nat.not_le]
  have hsupported :=
    supportedVersion_selectConversion h.supported fsm.upgradePolicy s.rest
  unfold bulkRound bulkNext
  dsimp only
  by_cases hcap : buf.hasCapacity s.images.length ∧ s.rest ≠ []
  swap
  · rw [if_neg hcap, if_neg (mt hguard.mp hcap)]
    rfl
  rw [if_pos hcap, if_pos (hguard.mpr hcap), ← h.rest, h.version, h.written,
    upgradeRecord_eq h.supported]
  by_cases hheader : recordSize s.rest < headerLen
  · rw [if_pos hheader, if_pos hheader]
    rfl
  by_cases hbody : recordSize s.rest > s.rest.length
  · rw [if_neg hheader, if_neg hheader, if_pos hbody, if_pos hbody]
    rfl
  rw [if_neg hheader, if_neg hheader, if_neg hbody, if_neg hbody]
  cases hselect : selectConversion s.version fsm.upgradePolicy s.rest with
  | mk conversion v =>
      rw [hselect] at hsupported
      cases conversion with
      | none =>
          have hversion := selectConversion_version (congrArg Prod.fst hselect)
          rw [hselect] at hversion
          have hnew := h.push ⟨s.rest⟩ [] h.supported
            (Nat.not_lt.mp hbody)
          refine ⟨_, rfl, ?_⟩
          dsimp only at hversion ⊢
          rw [hversion]
          exact hnew
      | some c =>
          have hrtype := selectConversion_rtype (congrArg Prod.fst hselect)
          dsimp only
          rw [upgradeRecordTo_eq hrtype]
          by_cases hsize : recordSize s.rest < requiredSize c fsm.tsOut
          · rw [if_pos hsize, if_pos hsize]
            rfl
          rw [if_neg hsize, if_neg hsize]
          by_cases hspace : c.target.size + tsOutLen fsm.tsOut ≥
              Buffer.availableSpace fsm.compatBuffer - s.written
          · rw [if_pos hspace, if_pos hspace]
            rfl
          rw [if_neg hspace, if_neg hspace]
          have himage : RecordRef.asRef ⟨c.upgraded fsm.tsOut
              (s.rest.take (requiredSize c fsm.tsOut))⟩ =
              c.upgraded fsm.tsOut
                (s.rest.take (requiredSize c fsm.tsOut)) := by
            unfold RecordRef.asRef
            rw [Conversion.recordSize_upgraded, ← Conversion.length_upgraded,
              List.take_length]
          have hnew := h.push ⟨c.upgraded fsm.tsOut
            (s.rest.take (requiredSize c fsm.tsOut))⟩ (c.upgraded fsm.tsOut
            (s.rest.take (requiredSize c fsm.tsOut))) hsupported
            (Nat.not_lt.mp hbody)
          rw [himage] at hnew
          exact ⟨_, rfl, hnew⟩

theorem BulkReaches.length_le
    (h : BulkReaches policy tsOut buf space start s) :
    s.images.length + s.rest.length ≤
      start.images.length + start.rest.length := by
  induction h with
  | start => exact Nat.le_refl _
  | step _ hnext ih =>
      obtain ⟨image, himages, _⟩ := next_of_bulkNext hnext
      have hlt := length_rest_of_bulkNext hnext
      rw [himages, List.length_append, List.length_singleton]
      omega

/-- The loop passes through the states that are reached. -/
theorem bulkLoop_of_reaches {fsm : DbnFsm B} {acc : Bulk}
    (hacc : acc.Matches (Buffer.data fsm.buffer) start)
    (himages : start.images = [])
    (h : BulkReaches fsm.upgradePolicy fsm.tsOut buf
      (Buffer.availableSpace fsm.compatBuffer) start s) :
    exists acc', acc'.Matches (Buffer.data fsm.buffer) s ∧
      forall fuel, fsm.bulkLoop buf (fuel + s.images.length) acc =
        fsm.bulkLoop buf fuel acc' := by
  induction h with
  | start =>
      refine ⟨acc, hacc, fun fuel => ?_⟩
      rw [himages]
      rfl
  | step _ hnext ih =>
      obtain ⟨acc1, hmatch, hloop⟩ := ih
      have hround := bulkRound_answers buf hmatch
      rw [hnext] at hround
      obtain ⟨acc2, hagain, hmatch2⟩ := hround
      obtain ⟨image, hsnoc, _⟩ := next_of_bulkNext hnext
      refine ⟨acc2, hmatch2, fun fuel => ?_⟩
      rw [hsnoc, List.length_append, List.length_singleton,
        Nat.add_comm _ 1, ← Nat.add_assoc, hloop, bulkLoop, hagain]

/-!
## The bulk call
-/

/-- The room for upgraded records once the last ones are consumed. -/
def compatSpace (fsm : DbnFsm B) : Nat :=
  Buffer.availableSpace fsm.settle.compatBuffer

/-- Where the loop starts. -/
def bulkStart (fsm : DbnFsm B) : BulkState :=
  ⟨[], 0, fsm.inputDbnVersion, fsm.data⟩

/-- The states that the loop of a bulk call passes through. -/
def BulkVisits (fsm : DbnFsm B) (buf : RecRefBuf) (s : BulkState) : Prop :=
  BulkReaches fsm.upgradePolicy fsm.tsOut buf fsm.compatSpace fsm.bulkStart s

/-- What the loop of a bulk call does next. -/
def bulkItem (fsm : DbnFsm B) (buf : RecRefBuf) (s : BulkState) : BulkNext :=
  bulkNext fsm.upgradePolicy fsm.tsOut buf fsm.compatSpace s

/-- When the loop meets a record with an impossible length. -/
theorem bulkItem_invalid_iff {fsm : DbnFsm B} {e : Error} :
    fsm.bulkItem buf s = .invalid e <->
      buf.hasCapacity s.images.length ∧ s.rest ≠ [] ∧
        recordSize s.rest < headerLen ∧
        e = invalidLength (recordSize s.rest) := by
  unfold bulkItem bulkNext
  constructor
  · intro h
    split_ifs at h with hcap hheader hbody
    · cases h
      exact ⟨hcap.1, hcap.2, hheader, rfl⟩
    · dsimp only at h
      split at h
      · cases h
      · split_ifs at h
  · rintro ⟨hcap, hne, hheader, rfl⟩
    rw [if_pos ⟨hcap, hne⟩, if_pos hheader]

/-- The machine after a bulk call that ended in a state. -/
structure BulkDone (fsm : DbnFsm B) (s : BulkState) (version : Option Nat)
    (recs : List RecordRef) (fsm' : DbnFsm B) : Prop where
  images : recs.map RecordRef.asRef = s.images
  version : fsm'.inputDbnVersion = version
  upgradePolicy : fsm'.upgradePolicy = fsm.upgradePolicy
  tsOut : fsm'.tsOut = fsm.tsOut
  recordPhase : fsm'.RecordPhase
  inv : fsm'.Inv

/-- How a bulk call answers the last step of its loop. -/
def BulkAnswers (fsm : DbnFsm B) (buf : RecRefBuf) (s : BulkState)
    (o : Outcome (ProcessResult D Nat × List RecordRef × DbnFsm B)) :
    BulkNext -> Prop
  | .record _ => False
  | .stop => exists recs fsm', o = .ret (.record recs.length, recs, fsm') ∧
      fsm.BulkDone s s.version recs fsm' ∧ fsm'.data = s.rest
  | .invalid e => exists recs fsm',
      o = .ret (.err e, buf.onError recs, fsm') ∧
      fsm.BulkDone s s.version recs fsm' ∧ fsm'.data = fsm.data
  | .truncated => o = .panic Panic.assertion
  | .noSpace v => exists recs fsm',
      o = .ret (.record recs.length, recs, fsm') ∧
      fsm.BulkDone s v recs fsm' ∧ fsm'.data = s.rest

/-- What has been written fits the compatibility buffer. -/
theorem BulkReaches.written_le
    (h : BulkReaches policy tsOut buf space start s)
    (hstart : start.written ≤ space) : s.written ≤ space := by
  induction h with
  | start => exact hstart
  | step _ hnext ih =>
      obtain ⟨_, _, _, _, _, hcase⟩ := bulkNext_record hnext
      rcases hcase with ⟨_, _, hwritten⟩ | ⟨c, _, _, hspace, _, hwritten⟩
      · rw [hwritten]
        exact ih
      · omega

theorem supportedVersion_noSpace {v : Option Nat}
    (hversion : SupportedVersion s.version)
    (h : bulkNext policy tsOut buf space s = .noSpace v) :
    SupportedVersion v := by
  have hsel := supportedVersion_selectConversion hversion policy s.rest
  rcases bulkNext_noSpace_iff.mp h with ⟨_, _, c, hselect, _⟩
  rw [hselect] at hsel
  exact hsel

section Call

variable [LawfulBuffer B] {fsm : DbnFsm B}

/-- The counters are written back to the machine. -/
theorem bulkDone_consume {acc : Bulk} {version : Option Nat}
    (hinv : fsm.Inv) (hstate : fsm.state = .record)
    (hacc : acc.Matches (Buffer.data fsm.buffer) s)
    (hwritten : s.written ≤ Buffer.availableSpace fsm.compatBuffer)
    (hversion : SupportedVersion version) (expandCompat : Bool) :
    fsm.BulkDone s version acc.recs
      { fsm with
        inputDbnVersion := version
        compatBuffer := Buffer.writeSpace fsm.compatBuffer acc.written
        state := .consume acc.readBytes acc.written.length acc.written.length
          expandCompat } where
  images := hacc.images
  version := rfl
  upgradePolicy := rfl
  tsOut := rfl
  recordPhase := rfl
  inv := by
    have hcompat := hinv.compat_nil hstate
    have hlen := hacc.written
    refine ⟨hacc.readBytes, ?_, ?_, hversion⟩
    · simp [hcompat]
    · simp only [Buffer.availableSpace_writeSpace]
      omega

omit [LawfulBuffer B] in
theorem compatSpace_eq (hstate : fsm.state = .record) :
    fsm.compatSpace = Buffer.availableSpace fsm.compatBuffer := by
  unfold compatSpace
  rw [settle_eq_self fsm hstate]

omit [LawfulBuffer B] in
/-- The loop gets to the round for the last state that it visits. -/
theorem exists_bulkLoop_end (hinv : fsm.Inv) (hstate : fsm.state = .record)
    (hvisit : fsm.BulkVisits buf s) :
    exists acc fuel, acc.Matches (Buffer.data fsm.buffer) s ∧
      fsm.bulkLoop buf (Buffer.availableData fsm.buffer + 1)
        ⟨fsm.inputDbnVersion, [], 0, []⟩ = fsm.bulkLoop buf (fuel + 1) acc := by
  have hdata := data_eq_buffer hstate
  have hversion := hinv.supportedVersion (recordPhase_iff.mpr (Or.inl hstate))
  unfold BulkVisits at hvisit
  rw [compatSpace_eq hstate] at hvisit
  have hstart : Bulk.Matches (Buffer.data fsm.buffer)
      ⟨fsm.inputDbnVersion, [], 0, []⟩ fsm.bulkStart :=
    ⟨rfl, rfl, rfl, Nat.zero_le _, hdata, hversion⟩
  obtain ⟨acc, hacc, hloop⟩ := bulkLoop_of_reaches hstart rfl hvisit
  have hlen := hvisit.length_le
  have hfuel : Buffer.availableData fsm.buffer + 1 =
      (Buffer.availableData fsm.buffer - s.images.length) + 1 +
        s.images.length := by
    have havail : Buffer.availableData fsm.buffer = fsm.data.length := by
      rw [hdata]
      rfl
    unfold bulkStart at hlen
    simp only [List.length_nil] at hlen
    omega
  have hrun := hloop (Buffer.availableData fsm.buffer - s.images.length + 1)
  rw [← hfuel] at hrun
  exact ⟨acc, _, hacc, hrun⟩

omit [CalendarDate D] in
theorem processMultipleRecords_answers (hinv : fsm.Inv)
    (hstate : fsm.state = .record) (hvisit : fsm.BulkVisits buf s)
    (hend : forall s', fsm.bulkItem buf s ≠ .record s') :
    fsm.BulkAnswers (D := D) buf s (fsm.processMultipleRecords buf)
      (fsm.bulkItem buf s) := by
  obtain ⟨acc, fuel, hacc, hrun⟩ := exists_bulkLoop_end hinv hstate hvisit
  have hspace := compatSpace_eq hstate
  have hround := bulkRound_answers buf hacc
  have hwritten := BulkReaches.written_le hvisit (Nat.zero_le _)
  rw [hspace] at hwritten
  unfold bulkItem at hend ⊢
  rw [hspace] at hend ⊢
  unfold processMultipleRecords
  dsimp only
  rw [hrun, bulkLoop]
  cases hitem : bulkNext fsm.upgradePolicy fsm.tsOut buf
      (Buffer.availableSpace fsm.compatBuffer) s with
  | record s' => exact absurd hitem (hend s')
  | stop =>
      rw [hitem] at hround
      have hdone : fsm.bulkRound buf acc = _ := hround
      rw [hdone]
      refine ⟨acc.recs, _, rfl, ?_, ?_⟩
      · rw [hacc.version]
        exact bulkDone_consume hinv hstate hacc hwritten hacc.supported false
      · rw [hacc.rest]
        rfl
  | invalid e =>
      rw [hitem] at hround
      have hdone : fsm.bulkRound buf acc = _ := hround
      rw [hdone]
      refine ⟨acc.recs, _, rfl, ⟨hacc.images, hacc.version, rfl, rfl,
        recordPhase_iff.mpr (Or.inl hstate), ?_⟩, ?_⟩
      · unfold Inv
        simp only [hstate, LawfulBuffer.data_writeSpace]
        exact ⟨hinv.compat_nil hstate, by rw [hacc.version]; exact hacc.supported⟩
      · unfold data
        simp only [hstate]
  | truncated =>
      rw [hitem] at hround
      have hdone : fsm.bulkRound buf acc = _ := hround
      rw [hdone]
      rfl
  | noSpace v =>
      rw [hitem] at hround
      have hdone : fsm.bulkRound buf acc = _ := hround
      rw [hdone]
      refine ⟨acc.recs, _, rfl, ?_, ?_⟩
      · exact bulkDone_consume hinv hstate hacc hwritten
          (supportedVersion_noSpace hacc.supported hitem) true
      · rw [hacc.rest]
        rfl

omit [LawfulBuffer B] in
theorem settle_settle : fsm.settle.settle = fsm.settle := by
  by_cases hphase : fsm.RecordPhase
  · exact settle_eq_self _ (state_settle hphase)
  · have hsettle : fsm.settle = fsm := by
      unfold settle
      split
      · next hstate =>
          exact absurd (recordPhase_iff.mpr (Or.inr ⟨_, _, _, _, hstate⟩)) hphase
      · rfl
    rw [hsettle, hsettle]

theorem bulkVisits_settle :
    fsm.settle.BulkVisits buf s <-> fsm.BulkVisits buf s := by
  unfold BulkVisits bulkStart compatSpace
  rw [settle_settle, settle_upgradePolicy, settle_tsOut,
    settle_inputDbnVersion, data_settle]

omit [LawfulBuffer B] in
theorem bulkItem_settle :
    fsm.settle.bulkItem buf s = fsm.bulkItem buf s := by
  unfold bulkItem compatSpace
  rw [settle_settle, settle_upgradePolicy, settle_tsOut]

omit [LawfulBuffer B] in
theorem BulkDone.of_settle {version : Option Nat} {recs : List RecordRef}
    {fsm' : DbnFsm B} (h : fsm.settle.BulkDone s version recs fsm') :
    fsm.BulkDone s version recs fsm' where
  images := h.images
  version := h.version
  upgradePolicy := by rw [h.upgradePolicy, settle_upgradePolicy]
  tsOut := by rw [h.tsOut, settle_tsOut]
  recordPhase := h.recordPhase
  inv := h.inv

omit [LawfulBuffer B] in
theorem processMultiple_eq_settle (hphase : fsm.RecordPhase) :
    fsm.processMultiple (D := D) buf =
      fsm.settle.processMultipleRecords buf := by
  have hrecord : forall {fsm : DbnFsm B} (fuel : Nat),
      fsm.state = .record -> fsm.processMultipleLoop (D := D) buf (fuel + 1) =
        fsm.processMultipleRecords buf := by
    intro fsm fuel hstate
    rw [processMultipleLoop]
    simp only [hstate]
  rcases recordPhase_iff.mp hphase with hrec | ⟨_, _, _, _, hcons⟩
  · rw [settle_eq_self fsm hrec]
    exact hrecord 1 hrec
  · rw [settle_eq_consume hcons]
    unfold processMultiple
    rw [processMultipleLoop]
    simp only [hcons]
    exact hrecord 0 (by simp)

/-- A bulk call in the record phase does what its loop ends with. -/
theorem processMultiple_answers (hinv : fsm.Inv) (hphase : fsm.RecordPhase)
    (hvisit : fsm.BulkVisits buf s)
    (hend : forall s', fsm.bulkItem buf s ≠ .record s') :
    fsm.BulkAnswers (D := D) buf s (fsm.processMultiple buf)
      (fsm.bulkItem buf s) := by
  have hanswers := processMultipleRecords_answers (D := D) (inv_settle hinv)
    (state_settle hphase) (bulkVisits_settle.mpr hvisit)
    (by rw [bulkItem_settle]; exact hend)
  rw [bulkItem_settle, ← processMultiple_eq_settle hphase] at hanswers
  cases hitem : fsm.bulkItem buf s with
  | record s' => exact hend s' hitem
  | stop =>
      rw [hitem] at hanswers
      obtain ⟨recs, fsm', hret, hdone, hdata⟩ := hanswers
      exact ⟨recs, fsm', hret, hdone.of_settle, hdata⟩
  | invalid e =>
      rw [hitem] at hanswers
      obtain ⟨recs, fsm', hret, hdone, hdata⟩ := hanswers
      rw [data_settle] at hdata
      exact ⟨recs, fsm', hret, hdone.of_settle, hdata⟩
  | truncated =>
      rw [hitem] at hanswers
      exact hanswers
  | noSpace v =>
      rw [hitem] at hanswers
      obtain ⟨recs, fsm', hret, hdone, hdata⟩ := hanswers
      exact ⟨recs, fsm', hret, hdone.of_settle, hdata⟩

end Call

/-- The loop of a bulk call ends. -/
theorem exists_bulkVisits_end (fsm : DbnFsm B) (buf : RecRefBuf) :
    exists s, fsm.BulkVisits buf s ∧
      forall s', fsm.bulkItem buf s ≠ .record s' :=
  exists_reaches_end fsm.bulkStart BulkReaches.start

end DbnFsm
end Dbn
