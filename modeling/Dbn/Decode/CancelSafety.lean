import Dbn.Decode.CancelMetadata
import Dbn.Decode.CancelRecords

/-!
# Cancel safety of the asynchronous decoders

A session decodes the metadata and then the records of a stream.  Each of its
calls can be abandoned at an await point and made again, as often as one likes,
and what is returned does not depend on it.
-/

namespace Dbn
namespace DbnFsm

open Lib Async MetadataEncoder

variable {B D : Type} [Buffer B] [CalendarDate D]

/-!
## Sessions
-/

/-- The function that decodes the records of a session. -/
inductive RecordCall where
  | decodeRef
  | decodeRecordRefWithFsm
deriving DecidableEq, Repr

namespace RecordCall

def fn (B D : Type) [Buffer B] [CalendarDate D] : RecordCall ->
    AsyncFn Unit (ShortReader × DbnFsm B) (Except Error (Option RecordRef))
  | decodeRef => decodeRefFn ShortReader B D
  | decodeRecordRefWithFsm => decodeRecordRefWithFsmFn ShortReader B D

/-- The reader and the machine pass from the metadata to the records; a
`RecordDecoder` is made from the `MetadataDecoder`. -/
def takeOver (via : RecordCall) (s : ShortReader × DbnFsm B) :
    Result (ShortReader × DbnFsm B) :=
  match via with
  | decodeRef => do
      let d ← RecordDecoder.fromMetadataDecoder ⟨s.1, s.2⟩
      Res.ok (d.reader, d.fsm)
  | decodeRecordRefWithFsm => Res.ok s

end RecordCall

/-- What a call returns; records with their bytes. -/
inductive Returned (D : Type) where
  | metadata (res : Except Error (Metadata D))
  | record (res : Except Error (Option (List UInt8)))

/-- The state between two calls. -/
inductive Phase (B : Type) where
  | metadata (s : ShortReader × DbnFsm B)
  | records (s : ShortReader × DbnFsm B)
  | failed

/-- A call that returns something, or is abandoned at an await point. -/
inductive SessionStep (D : Type) [CalendarDate D] (via : RecordCall) :
    Phase B -> Option (Returned D) -> Phase B -> Prop where
  | abandonMetadata {s : ShortReader × DbnFsm B}
      {x : MetadataAwait × (ShortReader × DbnFsm B)}
      (call : (decodeMetadataFn ShortReader B D).Awaits s x) :
      SessionStep D via (.metadata s) none (.metadata x.2)
  | metadata {s s' s'' : ShortReader × DbnFsm B} {m : Metadata D}
      (call : (decodeMetadataFn ShortReader B D).Returns s (Except.ok m) s')
      (takes : via.takeOver s' = Res.ok s'') :
      SessionStep D via (.metadata s) (some (.metadata (Except.ok m)))
        (.records s'')
  | error {s s' : ShortReader × DbnFsm B} {e : Error}
      (call : (decodeMetadataFn ShortReader B D).Returns s (Except.error e)
        s') :
      SessionStep D via (.metadata s) (some (.metadata (Except.error e)))
        .failed
  | abandonRecord {s : ShortReader × DbnFsm B}
      {x : Unit × (ShortReader × DbnFsm B)}
      (call : (via.fn B D).Awaits s x) :
      SessionStep D via (.records s) none (.records x.2)
  | record {s s' : ShortReader × DbnFsm B}
      {res : Except Error (Option RecordRef)}
      (call : (via.fn B D).Returns s res s') :
      SessionStep D via (.records s)
        (some (.record (res.map (Option.map RecordRef.asRef)))) (.records s')

/-- The calls of a session with what they returned; `cancel` lets it abandon
calls. -/
inductive Session (D : Type) [CalendarDate D] (via : RecordCall)
    (cancel : Prop) (start : Phase B) : List (Returned D) -> Phase B -> Prop
    where
  | start : Session D via cancel start [] start
  | abandoned {log : List (Returned D)} {phase phase' : Phase B}
      (allowed : cancel) (before : Session D via cancel start log phase)
      (step : SessionStep D via phase none phase') :
      Session D via cancel start log phase'
  | returned {log : List (Returned D)} {e : Returned D}
      {phase phase' : Phase B}
      (before : Session D via cancel start log phase)
      (step : SessionStep D via phase (some e) phase') :
      Session D via cancel start (log ++ [e]) phase'

/-!
## What a session returns
-/

section Sessions

/-- The stream decides what each call returns. -/
structure Determines (via : RecordCall) (policy : VersionUpgradePolicy)
    (stream : List UInt8) (result : Except Error (Metadata D))
    (version : Nat) (tsOut : Bool) (records : List (List UInt8))
    (trailing : List UInt8) : Prop where
  decides : DecidesMetadata (B := B) policy stream (fun res s =>
    res = result ∧ forall m, res = Except.ok m -> exists s',
      via.takeOver s = Res.ok s' ∧
        BetweenRecords version policy tsOut trailing records s')
  wellFormed : forall rec, rec ∈ records ->
    WellFormedRecord version policy tsOut rec
  partialRecord : PartialRecord trailing

variable {via : RecordCall} {policy : VersionUpgradePolicy}
  {stream : List UInt8} {result : Except Error (Metadata D)} {version : Nat}
  {tsOut : Bool} {records : List (List UInt8)} {trailing : List UInt8}

/-- The `n`th return of a session. -/
def nthReturned (version : Nat) (policy : VersionUpgradePolicy) (tsOut : Bool)
    (result : Except Error (Metadata D)) (records : List (List UInt8)) :
    Nat -> Returned D
  | 0 => .metadata result
  | n + 1 =>
      .record (Except.ok
        (records[n]?.map (upgradedImage version policy tsOut)))

/-- Where a session is after `n` returns. -/
def AfterReturns (version : Nat) (policy : VersionUpgradePolicy)
    (tsOut : Bool) (stream : List UInt8)
    (result : Except Error (Metadata D)) (records : List (List UInt8))
    (trailing : List UInt8) (n : Nat) (phase : Phase B) : Prop :=
  match phase with
  | .metadata s => n = 0 ∧ BetweenCalls policy stream s
  | .failed => n = 1 ∧ exists e, result = Except.error e
  | .records s =>
      exists done m, n = done + 1 ∧ result = Except.ok m ∧
        BetweenRecords version policy tsOut trailing (records.drop done) s

/-- The calls so far have returned what the stream decides. -/
def Sound (version : Nat) (policy : VersionUpgradePolicy)
    (tsOut : Bool) (stream : List UInt8)
    (result : Except Error (Metadata D)) (records : List (List UInt8))
    (trailing : List UInt8) (log : List (Returned D)) (phase : Phase B) :
    Prop :=
  log = (List.range log.length).map
      (nthReturned version policy tsOut result records) ∧
    AfterReturns version policy tsOut stream result records trailing
      log.length phase

variable [LawfulBuffer B]

/-- The record functions differ in a panic that does not occur. -/
theorem Determines.recordMeets
    (h : Determines (B := B) via policy stream result version tsOut records
      trailing) {done : Nat} {s : ShortReader × DbnFsm B}
    (hs : BetweenRecords version policy tsOut trailing (records.drop done) s) :
    (via.fn B D).Meets s
      (WaitsForRecord version policy tsOut trailing (records.drop done))
      (ReturnsNext version policy tsOut trailing (records.drop done)) := by
  have hrecords : forall rec, rec ∈ records.drop done ->
      WellFormedRecord version policy tsOut rec :=
    fun rec hin => h.wellFormed rec (List.mem_of_mem_drop hin)
  cases via with
  | decodeRef => exact hs.meets hrecords h.partialRecord
  | decodeRecordRefWithFsm => exact hs.meets hrecords h.partialRecord

variable {log : List (Returned D)} {e : Returned D} {phase phase' : Phase B}

/-- An abandoned call changes nothing that matters. -/
theorem Sound.abandoned
    (h : Determines (B := B) via policy stream result version tsOut records
      trailing)
    (hsound : Sound version policy tsOut stream result records trailing log
      phase)
    (hstep : SessionStep D via phase none phase') :
    Sound version policy tsOut stream result records trailing log phase' := by
  rcases hsound with ⟨hlog, hafter⟩
  refine ⟨hlog, ?_⟩
  cases hstep with
  | abandonMetadata call =>
      rcases hafter with ⟨hzero, hbetween⟩
      have hmeets := h.decides.meets hbetween
      exact ⟨hzero, (hmeets.wait_of_awaits call).betweenCalls⟩
  | abandonRecord call =>
      rcases hafter with ⟨done, m, hdone, hresult, hbetween⟩
      have hmeets := h.recordMeets hbetween
      exact ⟨done, m, hdone, hresult,
        (hmeets.wait_of_awaits call).betweenRecords⟩

theorem Sound.returned
    (h : Determines (B := B) via policy stream result version tsOut records
      trailing)
    (hsound : Sound version policy tsOut stream result records trailing log
      phase)
    (hstep : SessionStep D via phase (some e) phase') :
    Sound version policy tsOut stream result records trailing (log ++ [e])
      phase' := by
  rcases hsound with ⟨hlog, hafter⟩
  have happend : nthReturned version policy tsOut result records log.length =
      e -> log ++ [e] = (List.range (log ++ [e]).length).map
        (nthReturned version policy tsOut result records) := by
    intro he
    rw [List.length_append, List.length_singleton, List.range_succ,
      List.map_append, ← hlog, List.map_singleton, he]
  unfold Sound
  cases hstep with
  | @metadata s s' s'' m call takes =>
      rcases hafter with ⟨hzero, hbetween⟩
      rcases (h.decides.meets hbetween).post_of_returns call with
        ⟨hres, hnext⟩
      rcases hnext m rfl with ⟨s₁, htakes, hbetween'⟩
      rw [takes] at htakes
      cases htakes
      refine ⟨happend ?_, 0, m, ?_, hres.symm, hbetween'⟩
      · rw [hzero, nthReturned, ← hres]
      · rw [List.length_append, hzero]
        rfl
  | @error s s' e call =>
      rcases hafter with ⟨hzero, hbetween⟩
      rcases (h.decides.meets hbetween).post_of_returns call with ⟨hres, _⟩
      refine ⟨happend ?_, ?_, e, hres.symm⟩
      · rw [hzero, nthReturned, ← hres]
      · rw [List.length_append, hzero]
        rfl
  | @record s s' res call =>
      rcases hafter with ⟨done, m, hdone, hresult, hbetween⟩
      rcases (h.recordMeets hbetween).post_of_returns call with
        ⟨hres, hnext⟩
      refine ⟨happend ?_, done + 1, m, ?_, hresult, ?_⟩
      · rw [hdone, nthReturned, hres, List.head?_drop]
      · rw [List.length_append, hdone]
        rfl
      · rw [List.tail_drop] at hnext
        exact hnext

theorem Session.sound
    (h : Determines (B := B) via policy stream result version tsOut records
      trailing) {cancel : Prop} {s : ShortReader × DbnFsm B}
    (hs : BetweenCalls policy stream s)
    (hsession : Session D via cancel (.metadata s) log phase) :
    Sound version policy tsOut stream result records trailing log phase := by
  induction hsession with
  | start => exact ⟨rfl, rfl, hs⟩
  | abandoned _ _ step ih => exact ih.abandoned h step
  | returned _ step ih => exact ih.returned h step

/-- A session that has not failed can go on. -/
theorem Sound.exists_returned
    (h : Determines (B := B) via policy stream result version tsOut records
      trailing)
    (hsound : Sound version policy tsOut stream result records trailing log
      phase) :
    phase = .failed ∨
      exists e phase', SessionStep D via phase (some e) phase' := by
  rcases hsound with ⟨_, hafter⟩
  cases phase with
  | failed => exact Or.inl rfl
  | metadata s =>
      right
      have hmeets := h.decides.meets hafter.2
      rcases hmeets.returns with ⟨res, s', hreturns⟩
      cases res with
      | error e => exact ⟨_, _, .error hreturns⟩
      | ok m =>
          rcases (hmeets.post_of_returns hreturns).2 m rfl with
            ⟨s'', htakes, _⟩
          exact ⟨_, _, .metadata hreturns htakes⟩
  | records s =>
      right
      rcases hafter with ⟨done, m, _, _, hbetween⟩
      rcases (h.recordMeets hbetween).returns with ⟨res, s', hreturns⟩
      exact ⟨_, _, .record hreturns⟩

/-- A session without abandoned calls gets as far as any other. -/
theorem Determines.exists_uninterrupted
    (h : Determines (B := B) via policy stream result version tsOut records
      trailing) {s : ShortReader × DbnFsm B}
    (hs : BetweenCalls policy stream s)
    (hsound : Sound version policy tsOut stream result records trailing log
      phase) {n : Nat} (hn : n ≤ log.length) :
    exists log' phase', log'.length = n ∧
      Session D via False (.metadata s) log' phase' := by
  induction n with
  | zero => exact ⟨[], _, rfl, .start⟩
  | succ n ih =>
      rcases ih (Nat.le_of_succ_le hn) with ⟨log', phase', hlength, hsession⟩
      have hsound' := hsession.sound h hs
      rcases hsound'.exists_returned h with hfailed | ⟨e, next, hstep⟩
      · -- no session goes on after the error
        exfalso
        rw [hfailed] at hsound'
        rcases hsound'.2 with ⟨hone, e, hresult⟩
        have hafter := hsound.2
        cases phase with
        | metadata s' =>
            have hzero := hafter.1
            omega
        | failed =>
            have hone' := hafter.1
            omega
        | records s' =>
            rcases hafter with ⟨_, m, _, hresult', _⟩
            rw [hresult] at hresult'
            cases hresult'
      · refine ⟨log' ++ [e], next, ?_, .returned hsession hstep⟩
        rw [List.length_append, hlength]
        rfl

omit [LawfulBuffer B] [CalendarDate D] in
/-- Of two sound sequences of returns one goes on from the other. -/
theorem Sound.prefix_of_le {log' : List (Returned D)}
    (h : Sound version policy tsOut stream result records trailing log phase)
    (h' : Sound version policy tsOut stream result records trailing log'
      phase')
    (hle : log.length ≤ log'.length) : log <+: log' := by
  rw [h.1, h'.1]
  apply List.IsPrefix.map
  exact List.prefix_iff_eq_take.mpr (by
    rw [List.length_range, List.take_range, Nat.min_eq_left hle])

end Sessions

/-!
## Well-formed streams and their prefixes
-/

/-- The bytes decode to the metadata and nothing is left of them. -/
def DecodesAlone (header : List UInt8) (m : Metadata D) : Prop :=
  exists fsm : DbnFsm VecBuffer,
    ((fresh .asIs).writeAll header).process = .ret (.metadata m, fsm) ∧
      fsm.data = []

/-- The prelude and the block of metadata that decodes. -/
structure HeaderOf (header : List UInt8) (m : Metadata D) (version : Nat) :
    Prop where
  accepts : AcceptsPrelude .asIs header version
    (header.length - metadataPreludeLen)
  decodes : exists m₀, m = m₀.upgrade .asIs ∧
    decodeMetadataImpl version (header.drop metadataPreludeLen) = Res.ok m₀

omit [CalendarDate D] in
theorem version_upgrade_asIs (m : Metadata D) :
    (m.upgrade .asIs).version = m.version := by
  unfold Metadata.upgrade
  split
  · rfl
  · rw [if_neg (by simp)]

theorem DecodesAlone.headerOf {header : List UInt8} {m : Metadata D}
    (h : DecodesAlone header m) : HeaderOf header m m.version := by
  rcases h with ⟨fsm, hret, hdata⟩
  have hholds := (reading_fresh (B := VecBuffer) .asIs ⟨[], fun _ => 0⟩).holds
  have hwritten := hholds.writeAll header
  rw [List.nil_append] at hwritten
  rcases hwritten.process_metadata hret with ⟨version, length, fsm₁, m₀,
    haccept, hroom, _, _, _, hblock, _, hdecode, hm, hfsm⟩
  have hmversion : m.version = version := by
    rw [hm, version_upgrade_asIs]
    exact version_of_decodeMetadataImpl hdecode
  -- what is left after the block is nothing
  have hleft : (Buffer.data fsm₁.buffer).length ≤ length := by
    rw [hfsm] at hdata
    unfold data metadataDone at hdata
    simp at hdata
    exact hdata
  have hlength : length = header.length - metadataPreludeLen := by
    rw [hblock, List.length_drop] at hleft
    omega
  rw [hmversion]
  refine ⟨?_, m₀, hm, hdecode⟩
  rw [← hlength]
  exact haccept

/-- The encoding of metadata decodes to it. -/
theorem decodesAlone_encodedBytes [LawfulCalendarDate D] {m : Metadata D}
    (hm : Encodable m) : DecodesAlone (encodedBytes m) m := by
  have hholds := (reading_fresh (B := VecBuffer) .asIs ⟨[], fun _ => 0⟩).holds
  have hwritten := hholds.writeAll (encodedBytes m ++ [])
  rw [List.nil_append] at hwritten
  have hlt := hm.length_lt
  rcases hwritten.process_encodedBytes hm
    (by simp [VersionUpgradePolicy.Compatible])
    (by rw [List.append_nil]; unfold isizeMax; omega) with
    ⟨fsm, hprocess, hdone⟩
  rw [List.append_nil, upgrade_asIs hm.cstrLenV1 hm.version_pos] at hprocess
  exact ⟨fsm, hprocess, hdone.data⟩

theorem Incomplete.of_append {policy : VersionUpgradePolicy}
    {fed rest : List UInt8} (h : Incomplete policy (fed ++ rest)) :
    Incomplete policy fed := by
  by_cases hroom : fed.length < metadataPreludeLen
  · exact Or.inl hroom
  rcases h with hshort | ⟨version, length, haccept, hshort⟩
  · rw [List.length_append] at hshort
    omega
  · rw [acceptsPrelude_append (Nat.not_lt.mp hroom)] at haccept
    rw [List.length_append] at hshort
    exact Or.inr ⟨version, length, haccept, by omega⟩

/-- A prefix of a stream of records ends in a part of a record. -/
theorem exists_records_of_prefix {version : Nat}
    {policy : VersionUpgradePolicy} {tsOut : Bool}
    {records : List (List UInt8)} {bytes : List UInt8}
    (hrecords : forall rec, rec ∈ records ->
      WellFormedRecord version policy tsOut rec)
    (h : bytes <+: records.flatten) :
    exists (done : List (List UInt8)) (trailing : List UInt8),
      bytes = done.flatten ++ trailing ∧
      (forall rec, rec ∈ done ->
        WellFormedRecord version policy tsOut rec) ∧
      PartialRecord trailing := by
  induction records generalizing bytes with
  | nil =>
      have hnil : bytes = [] := List.prefix_nil.mp h
      exact ⟨[], [], hnil, by simp, Or.inl (by simp)⟩
  | cons rec rest ih =>
      have hrec := hrecords rec List.mem_cons_self
      rw [List.flatten_cons] at h
      by_cases hlen : rec.length ≤ bytes.length
      · obtain ⟨tail, rfl⟩ : rec <+: bytes :=
          List.prefix_of_prefix_length_le (List.prefix_append rec _) h hlen
        rcases ih (fun other hin => hrecords other
          (List.mem_cons_of_mem rec hin))
          ((List.prefix_append_right_inj rec).mp h)
          with ⟨done, trailing, htail, hdone, hpart⟩
        refine ⟨rec :: done, trailing, ?_, ?_, hpart⟩
        · rw [htail, List.flatten_cons, List.append_assoc]
        · intro other hin
          rcases List.mem_cons.mp hin with rfl | hin
          · exact hrec
          · exact hdone other hin
      · exact ⟨[], bytes, rfl, by simp,
          partialRecord_of_prefix h hrec.size (Nat.not_le.mp hlen)⟩

section Streams

variable [LawfulBuffer B] {via : RecordCall} {policy : VersionUpgradePolicy}
  {stream header body trailing : List UInt8} {m : Metadata D} {version : Nat}
  {tsOut : Bool} {records : List (List UInt8)}

omit [LawfulBuffer B] in
/-- A stream that ends in the metadata. -/
theorem determines_of_incomplete (h : Incomplete policy stream) :
    Determines (B := B) (D := D) via policy stream
      (Except.error (MetadataDecoder.ioErr .unexpectedEof)) version tsOut []
      [] where
  decides :=
    { final := by
        intro r fsm fed hreading hcomplete
        rw [← hreading.stream_eq] at h
        exact absurd h.of_append hcomplete
      ended := by
        intro _ s
        refine ⟨rfl, ?_⟩
        intro m hm
        cases hm }
  wellFormed := by simp
  partialRecord := Or.inl (by simp)

theorem BetweenRecords.takeOver {s : ShortReader × DbnFsm B}
    (h : BetweenRecords version policy tsOut trailing records s) :
    exists s', via.takeOver s = Res.ok s' ∧
      BetweenRecords version policy tsOut trailing records s' := by
  cases via with
  | decodeRecordRefWithFsm => exact ⟨s, rfl, h⟩
  | decodeRef =>
      rcases h with ⟨buffered, hbuffers⟩
      have hmade : exists d,
          RecordDecoder.fromMetadataDecoder ⟨s.1, s.2⟩ = Res.ok d ∧
          Buffers version policy tsOut buffered
            (records.flatten ++ trailing) d.reader d.fsm :=
        Buffers.fromMetadataDecoder hbuffers
      rcases hmade with ⟨d, hd, hbuffers'⟩
      refine ⟨(d.reader, d.fsm), ?_, buffered, hbuffers'⟩
      unfold RecordCall.takeOver
      rw [hd]
      rfl

/-- The block of the header decodes with what follows it. -/
theorem HeaderOf.decodes_append (hheader : HeaderOf header m version) :
    exists m₀ : Metadata D, m = m₀.upgrade .asIs ∧ forall extra,
      ((header ++ extra).drop metadataPreludeLen).length ≤ isizeMax ->
      decodeMetadataImpl version ((header ++ extra).drop metadataPreludeLen) =
        Res.ok m₀ := by
  rcases hheader with ⟨haccepts, m₀, hm, hdecode⟩
  refine ⟨m₀, hm, ?_⟩
  intro extra hmax
  have hblock : (header.drop metadataPreludeLen).length =
      header.length - metadataPreludeLen := List.length_drop
  rw [List.drop_append_of_le_length haccepts.room] at hmax ⊢
  apply decodeMetadataImpl_of_cut haccepts.length_ge
  · rw [List.length_append, hblock]
    exact Nat.le_add_right _ _
  · exact hmax
  · rw [List.take_left' hblock]
    exact hdecode

/-- A stream of metadata and records. -/
theorem HeaderOf.determines (hheader : HeaderOf header m version)
    (hcompat : policy.Compatible version)
    (hrecords : forall rec, rec ∈ records ->
      WellFormedRecord version policy m.tsOut rec)
    (hpart : PartialRecord trailing) :
    exists m₀ : Metadata D, Determines (B := B) via policy
      (header ++ (records.flatten ++ trailing))
      (Except.ok (m₀.upgrade policy)) version m.tsOut records trailing := by
  rcases hheader.decodes_append with ⟨m₀, hm, hdecodes⟩
  have haccepts := hheader.accepts
  have hroom := haccepts.room
  have haccept : AcceptsPrelude policy header version
      (header.length - metadataPreludeLen) :=
    { haccepts with compatible := hcompat }
  have hstream : AcceptsPrelude policy
      (header ++ (records.flatten ++ trailing)) version
      (header.length - metadataPreludeLen) :=
    (acceptsPrelude_append hroom).mpr haccept
  have htsOut : m.tsOut = m₀.tsOut := by
    rw [hm, Metadata.upgrade_tsOut]
  refine ⟨m₀, ⟨⟨?_, ?_⟩, hrecords, hpart⟩⟩
  · intro r fsm fed hreading hcomplete
    have hfedRoom : metadataPreludeLen ≤ fed.length := by
      by_contra hshort
      exact hcomplete (Or.inl (Nat.not_le.mp hshort))
    have hfed : AcceptsPrelude policy fed version
        (header.length - metadataPreludeLen) := by
      rw [← hreading.stream_eq] at hstream
      exact (acceptsPrelude_append hfedRoom).mp hstream
    have hlength : header.length ≤ fed.length := by
      by_contra hshort
      exact hcomplete (Or.inr ⟨_, _, hfed, by omega⟩)
    obtain ⟨extra, rfl⟩ : header <+: fed :=
      List.prefix_of_prefix_length_le (List.prefix_append header _)
        (by rw [← hreading.stream_eq]; exact List.prefix_append _ _) hlength
    have hmax : ((header ++ extra).drop metadataPreludeLen).length ≤
        isizeMax := by
      have hle := hreading.length_drop_le
      unfold isizeMax
      omega
    have hreturned : exists fsm', fsm.process =
        .ret (.metadata (m₀.upgrade policy), fsm') := by
      rcases hreading.holds.process_block hfed
        (by rw [List.length_drop]; omega) (hdecodes extra hmax) with
        ⟨_, _, _, _, _, hprocess⟩
      exact ⟨_, hprocess⟩
    rcases hreturned with ⟨fsm', hret⟩
    rcases hreading.process_metadata hret with
      ⟨version', length', haccept', buffered, hbuffers⟩
    rcases haccept'.unique hstream with ⟨rfl, rfl⟩
    rw [Nat.add_sub_cancel' hroom, List.drop_left, Metadata.upgrade_tsOut,
      ← htsOut] at hbuffers
    refine ⟨Except.ok (m₀.upgrade policy), (r, fsm'), ?_, rfl, ?_⟩
    · unfold processMetadata
      rw [hret]
    · intro _ _
      exact BetweenRecords.takeOver ⟨buffered, hbuffers⟩
  · intro hincomplete
    exfalso
    rcases hincomplete.of_append with hshort | ⟨v, l, hv, hshort⟩
    · omega
    · have hsame := (hv.unique haccept).2
      omega

omit [LawfulBuffer B] in
/-- A prelude that the policy does not accept. -/
theorem process_incompatible {fsm : DbnFsm B} {length : Nat} {e : Error}
    (hstate : fsm.state = .prelude)
    (haccept : AcceptsPrelude .asIs (Buffer.data fsm.buffer) version length)
    (he : fsm.upgradePolicy.validateCompatibility version = Res.err e) :
    exists fsm', fsm.process (D := D) = .ret (.err e, fsm') := by
  have hversion : preludeVersion (Buffer.data fsm.buffer) =
      Res.ok version := by
    rw [preludeVersion_eq haccept.room, if_neg (not_not.mpr haccept.magic),
      haccept.version_eq]
  have hlength : preludeLength fsm.upgradePolicy version
      (Buffer.data fsm.buffer) = Res.err e := by
    unfold preludeLength
    rw [if_neg (Nat.not_lt.mpr haccept.version_le), he, Res.err_bind]
  unfold process
  rw [processLoop]
  simp only [processRound, hstate, Buffer.availableData,
    if_neg (Nat.not_lt.mpr haccept.room), decodePrelude, hversion, hlength]
  exact ⟨_, rfl⟩

omit [LawfulBuffer B] in
/-- A stream of a version that the policy does not accept. -/
theorem determines_of_incompatible {length : Nat}
    (haccepts : AcceptsPrelude .asIs stream version length)
    (hcompat : ¬ policy.Compatible version)
    (hcomplete : ¬ Incomplete policy stream) :
    exists e, Determines (B := B) (D := D) via policy stream (Except.error e)
      version tsOut [] [] := by
  rcases VersionUpgradePolicy.validateCompatibility_of_not_compatible hcompat
    with ⟨e, he⟩
  refine ⟨e, ⟨⟨?_, fun h => absurd h hcomplete⟩, by simp,
    Or.inl (by simp)⟩⟩
  intro r fsm fed hreading hfedComplete
  have hroom : metadataPreludeLen ≤ fed.length := by
    by_contra hshort
    exact hfedComplete (Or.inl (Nat.not_le.mp hshort))
  have hfed : AcceptsPrelude .asIs fed version length := by
    rw [← hreading.stream_eq] at haccepts
    exact (acceptsPrelude_append hroom).mp haccepts
  rcases hreading.holds.phase with
    ⟨hstate, hdata⟩ | ⟨v, l, _, _, hother, _⟩
  swap
  · -- the policy has not accepted the prelude
    exfalso
    have hversion := hother.version_eq.trans hfed.version_eq.symm
    exact hcompat (hversion ▸ hother.compatible)
  rw [← hdata] at hfed
  rw [← hreading.holds.upgradePolicy] at he
  rcases process_incompatible (D := D) hstate hfed he with ⟨fsm', hprocess⟩
  refine ⟨Except.error e, (r, fsm'), ?_, rfl, ?_⟩
  · unfold processMetadata
    rw [hprocess]
  · intro m hm
    cases hm

/-- Every prefix of a well-formed stream decides what is returned. -/
theorem determines_of_prefix {header : List UInt8} {m : Metadata D}
    {records : List (List UInt8)} (hheader : HeaderOf header m m.version)
    (hrecords : forall rec, rec ∈ records ->
      WellFormedRecord m.version policy m.tsOut rec)
    (hpiece : stream <+: header ++ records.flatten) :
    exists result done trailing, Determines (B := B) (D := D) via policy
      stream result m.version m.tsOut done trailing := by
  by_cases hcomplete : Incomplete policy stream
  · exact ⟨_, _, _, determines_of_incomplete hcomplete⟩
  have hroom : metadataPreludeLen ≤ stream.length := by
    by_contra hshort
    exact hcomplete (Or.inl (Nat.not_le.mp hshort))
  have haccepts : AcceptsPrelude .asIs stream m.version
      (header.length - metadataPreludeLen) := by
    rcases hpiece with ⟨more, hmore⟩
    have hwhole : AcceptsPrelude .asIs (header ++ records.flatten) m.version
        (header.length - metadataPreludeLen) :=
      (acceptsPrelude_append hheader.accepts.room).mpr hheader.accepts
    rw [← hmore] at hwhole
    exact (acceptsPrelude_append hroom).mp hwhole
  by_cases hcompat : policy.Compatible m.version
  swap
  · have hrejected : exists e, Determines (B := B) (D := D) via policy stream
        (Except.error e) m.version m.tsOut [] [] :=
      determines_of_incompatible haccepts hcompat hcomplete
    rcases hrejected with ⟨e, hdetermines⟩
    exact ⟨_, _, _, hdetermines⟩
  have hlength : header.length ≤ stream.length := by
    by_contra hshort
    exact hcomplete (Or.inr ⟨_, _, { haccepts with compatible := hcompat },
      by omega⟩)
  obtain ⟨body, rfl⟩ : header <+: stream :=
    List.prefix_of_prefix_length_le (List.prefix_append header _) hpiece
      hlength
  rcases exists_records_of_prefix hrecords
    ((List.prefix_append_right_inj header).mp hpiece) with
    ⟨done, trailing, rfl, hdone, hpart⟩
  have hwhole : exists m₀ : Metadata D, Determines (B := B) via policy
      (header ++ (done.flatten ++ trailing)) (Except.ok (m₀.upgrade policy))
      m.version m.tsOut done trailing :=
    hheader.determines hcompat hdone hpart
  rcases hwhole with ⟨m₀, hdetermines⟩
  exact ⟨_, _, _, hdetermines⟩

/-- A machine of the default size that was built to expect metadata. -/
theorem reading_build {b : DbnFsmBuilder} {fsm : DbnFsm B}
    (hbuild : b.build = Res.ok fsm) (hskip : b.skipMetadata = false)
    (hsize : b.bufferSize = defaultBufSize) (r : ShortReader) :
    Reading b.upgradePolicy r.rest r fsm [] := by
  have hfsm := DbnFsmBuilder.build_eq_ok hbuild
  have hstate : fsm.state = .prelude := by
    rw [hfsm]
    simp [hskip]
  have hcapacity : Buffer.capacity fsm.buffer = defaultBufSize := by
    rw [hfsm]
    simp [hsize]
  constructor
  · exact holds_build hbuild hskip
  · rfl
  · exact le_of_eq hcapacity.symm
  · rw [hcapacity]
    decide
  · intro _
    refine ⟨hcapacity, ?_⟩
    rw [hfsm]
    simp
  · intro length hlength
    rw [hstate] at hlength
    cases hlength

end Streams

/--
Whatever the schedules of the reads are and wherever calls are abandoned, a
session on a prefix of a well-formed stream has returned what the session
without abandoned calls returns, and it goes on unless the metadata failed.
-/
theorem session_cancelSafe (B : Type) {D : Type} [Buffer B] [LawfulBuffer B]
    [CalendarDate D] (via : RecordCall) {b : DbnFsmBuilder} {fsm : DbnFsm B}
    (hbuild : b.build = Res.ok fsm) (hskip : b.skipMetadata = false)
    (hsize : b.bufferSize = defaultBufSize) {header : List UInt8}
    {m : Metadata D} (hheader : DecodesAlone header m)
    {records : List (List UInt8)}
    (hrecords : forall rec, rec ∈ records ->
      WellFormedRecord m.version b.upgradePolicy m.tsOut rec)
    {r r' : ShortReader} (hpiece : r.rest <+: header ++ records.flatten)
    (hsame : r'.rest = r.rest) {log : List (Returned D)} {phase : Phase B}
    (hsession : Session D via True (.metadata (r, fsm)) log phase) :
    (exists phase', Session D via False (.metadata (r', fsm)) log phase') ∧
    (forall log' phase',
      Session D via False (.metadata (r', fsm)) log' phase' ->
        log <+: log' ∨ log' <+: log) ∧
    (phase = .failed ∨
      exists e phase', SessionStep D via phase (some e) phase') := by
  have hdetermined : exists result done trailing,
      Determines (B := B) (D := D) via b.upgradePolicy r.rest result m.version
        m.tsOut done trailing :=
    determines_of_prefix hheader.headerOf hrecords hpiece
  rcases hdetermined with ⟨result, done, trailing, hdetermines⟩
  have hstart : BetweenCalls b.upgradePolicy r.rest (r, fsm) :=
    ⟨[], reading_build hbuild hskip hsize r, Or.inl (by simp)⟩
  have hstart' : BetweenCalls b.upgradePolicy r.rest (r', fsm) := by
    rw [← hsame]
    exact ⟨[], reading_build hbuild hskip hsize r', Or.inl (by simp)⟩
  have hsound := hsession.sound hdetermines hstart
  refine ⟨?_, ?_, hsound.exists_returned hdetermines⟩
  · rcases hdetermines.exists_uninterrupted hstart' hsound (le_refl _) with
      ⟨log', phase', hlength, hsession'⟩
    have hsound' := hsession'.sound hdetermines hstart'
    have hlog : log' = log := by
      rw [hsound'.1, hsound.1, hlength]
    rw [hlog] at hsession'
    exact ⟨phase', hsession'⟩
  · intro log' phase' hsession'
    have hsound' := hsession'.sound hdetermines hstart'
    rcases Nat.le_total log.length log'.length with hle | hle
    · exact Or.inl (hsound.prefix_of_le hsound' hle)
    · exact Or.inr (hsound'.prefix_of_le hsound hle)

/-- Metadata and a record of sixteen bytes. -/
def sampleStream : List UInt8 :=
  encodedBytes (sampleMetadata 3 71) ++ [4 :: List.replicate 15 0].flatten

set_option maxRecDepth 8000 in
/-- The call is abandoned after a first read of three bytes. -/
theorem session_cancelSafe_sample :
    exists (fsm : DbnFsm VecBuffer) (log : List (Returned GregorianDate))
        (phase : Phase VecBuffer),
      Session GregorianDate .decodeRef True
        (.metadata (⟨sampleStream, fun _ => 3⟩, fsm)) log phase ∧
      (exists phase', Session GregorianDate .decodeRef False
        (.metadata (⟨sampleStream, fun _ => 200⟩, fsm)) log phase') ∧
      (forall log' phase', Session GregorianDate .decodeRef False
          (.metadata (⟨sampleStream, fun _ => 200⟩, fsm)) log' phase' ->
        log <+: log' ∨ log' <+: log) ∧
      (phase = .failed ∨
        exists e phase',
          SessionStep GregorianDate .decodeRef phase (some e) phase') := by
  have hsession : exists phase : Phase VecBuffer,
      Session GregorianDate .decodeRef True
        (.metadata (⟨sampleStream, fun _ => 3⟩, DbnFsm.new defaultBufSize 0))
        [] phase := by
    have hstep : exists y, (decodeMetadataFn ShortReader VecBuffer
        GregorianDate).Step
        (.first, (⟨sampleStream, fun _ => 3⟩, DbnFsm.new defaultBufSize 0))
        y := ⟨(_, _), rfl⟩
    rcases hstep with ⟨y, hstep⟩
    exact ⟨_, .abandoned trivial .start (.abandonMetadata
      ⟨(.first, _), rfl, .tail .refl hstep⟩)⟩
  rcases hsession with ⟨phase, hsession⟩
  have hheader := decodesAlone_encodedBytes encodable_sampleMetadata
  have hpiece : sampleStream <+: encodedBytes (sampleMetadata 3 71) ++
      [4 :: List.replicate 15 0].flatten := List.prefix_refl _
  have hsame : (ShortReader.mk sampleStream (fun _ => 200)).rest =
      (ShortReader.mk sampleStream (fun _ => 3)).rest := rfl
  exact ⟨_, [], phase, hsession,
    session_cancelSafe VecBuffer .decodeRef (b := (default : DbnFsmBuilder))
      (r := ⟨sampleStream, fun _ => 3⟩) rfl rfl rfl hheader
      (by decide +kernel) hpiece hsame hsession⟩

end DbnFsm
end Dbn
