import Dbn.Decode.MetadataRoundTrip
import Dbn.Decode.WellFormedRecords
import Dbn.Encode.RecordEncoder

/-!
# Round trip of a stream

An encoded stream is fed to the machine in chunks, and after each chunk the
machine is drained.  Whatever the chunks are, a drained machine is left with
less than an item, so the results are those of the stream.
-/

namespace Dbn
namespace DbnFsm

open Lib
open MetadataEncoder (Accepts Encodable encodedBytes blockBytes)
open RecordEncoder (encodeStream)

variable {B D : Type} [Buffer B] [CalendarDate D]

/-- What a call of `process` gives to its caller. -/
inductive Event (D : Type) where
  | metadata (m : Metadata D)
  /-- The bytes of the last record. -/
  | record (bytes : Option (List UInt8))
  | err (e : Error)

/-- Call `process` until it asks for more or fails, for a number of calls. -/
def drainLoop : Nat -> DbnFsm B -> Outcome (List (Event D) × DbnFsm B)
  | 0, _ => .timeout
  | fuel + 1, fsm => do
      let (res, fsm) ← fsm.process (D := D)
      match res with
      | .readMore _ => .ret ([], fsm)
      | .err e => .ret ([.err e], fsm)
      | .metadata m =>
          let (events, fsm') ← drainLoop fuel fsm
          .ret (.metadata m :: events, fsm')
      | .record () =>
          let (events, fsm') ← drainLoop fuel fsm
          .ret (.record fsm.lastBytes :: events, fsm')

/-- Drain the machine.  Every call but the last consumes a byte. -/
def drain (fsm : DbnFsm B) : Outcome (List (Event D) × DbnFsm B) :=
  fsm.drainLoop (fsm.data.length + 1)

/-- Feed the chunks to the machine and drain it after each of them. -/
def feed : List (List UInt8) -> DbnFsm B ->
    Outcome (List (Event D) × DbnFsm B)
  | [], fsm => .ret ([], fsm)
  | chunk :: chunks, fsm => do
      let (events, fsm) ← (fsm.writeAll chunk).drain
      let (more, fsm) ← feed chunks fsm
      .ret (events ++ more, fsm)

section Calls

variable {fsm fsm' fsm'' : DbnFsm B} {fuel : Nat} {events : List (Event D)}

theorem drainLoop_of_readMore {n : Nat}
    (h : fsm.process (D := D) = .ret (.readMore n, fsm')) :
    fsm.drainLoop (D := D) (fuel + 1) = .ret ([], fsm') := by
  rw [drainLoop, h]
  rfl

theorem drainLoop_of_metadata {m : Metadata D}
    (h : fsm.process = .ret (.metadata m, fsm'))
    (hrest : fsm'.drainLoop fuel = .ret (events, fsm'')) :
    fsm.drainLoop (fuel + 1) = .ret (.metadata m :: events, fsm'') := by
  rw [drainLoop, h, Outcome.ret_bind]
  dsimp only
  rw [hrest]
  rfl

theorem drainLoop_of_record
    (h : fsm.process (D := D) = .ret (.record (), fsm'))
    (hrest : fsm'.drainLoop fuel = .ret (events, fsm'')) :
    fsm.drainLoop (fuel + 1) =
      .ret (.record fsm'.lastBytes :: events, fsm'') := by
  rw [drainLoop, h, Outcome.ret_bind]
  dsimp only
  rw [hrest]
  rfl

end Calls

/-!
## Draining in the record phase
-/

/-- The records that are left start with an incomplete one. -/
def Pending (left : List (List UInt8)) (bytes : List UInt8) : Prop :=
  forall rec rest, left = rec :: rest -> bytes.length < rec.length

/-- The bytes tell how many of the records are complete. -/
theorem Pending.unique {done done' left left' : List (List UInt8)}
    {pending pending' : List UInt8} (h : Pending left pending)
    (h' : Pending left' pending') (hrecords : done ++ left = done' ++ left')
    (hbytes : done.flatten ++ pending = done'.flatten ++ pending') :
    done = done' := by
  rcases List.append_eq_append_iff.mp hrecords with
    ⟨more, hdone, hleft⟩ | ⟨more, hdone, hleft⟩
  · rw [hdone, List.flatten_append, List.append_assoc] at hbytes
    have hpending := List.append_cancel_left hbytes
    cases more with
    | nil => rw [hdone, List.append_nil]
    | cons rec more =>
        have hlt := h rec (more ++ left') hleft
        rw [hpending, List.flatten_cons, List.append_assoc,
          List.length_append] at hlt
        omega
  · rw [hdone, List.flatten_append, List.append_assoc] at hbytes
    have hpending := List.append_cancel_left hbytes
    cases more with
    | nil => rw [hdone, List.append_nil]
    | cons rec more =>
        have hlt := h' rec (more ++ left) hleft
        rw [← hpending, List.flatten_cons, List.append_assoc,
          List.length_append] at hlt
        omega

/-- All records are complete when all bytes are there. -/
theorem Pending.left_nil {done left : List (List UInt8)} {pending : List UInt8}
    (h : Pending left pending)
    (hbytes : (done ++ left).flatten = done.flatten ++ pending) :
    left = [] := by
  rw [List.flatten_append] at hbytes
  have hpending := List.append_cancel_left hbytes
  cases left with
  | nil => rfl
  | cons rec rest =>
      have hlt := h rec rest rfl
      rw [← hpending, List.flatten_cons, List.length_append] at hlt
      omega

/--
Machines with these unprocessed bytes hand out the image of a record as soon
as all of it is there, and ask for more before.
-/
structure Serves (D : Type) [CalendarDate D] (records : List (List UInt8))
    (image : List UInt8 -> List UInt8)
    (holds : List UInt8 -> DbnFsm B -> Prop) : Prop where
  size : forall rec, rec ∈ records ->
    recordSize rec = rec.length ∧ headerLen ≤ rec.length
  data : forall bytes fsm, holds bytes fsm -> fsm.data = bytes
  writeAll : forall bytes fsm chunk, holds bytes fsm ->
    holds (bytes ++ chunk) (fsm.writeAll chunk)
  record : forall rec rest fsm, rec ∈ records -> holds (rec ++ rest) fsm ->
    exists fsm', fsm.process (D := D) = .ret (.record (), fsm') ∧
      fsm'.lastBytes = some (image rec) ∧ holds rest fsm'
  more : forall bytes fsm, PartialRecord bytes -> holds bytes fsm ->
    exists n fsm', fsm.process (D := D) = .ret (.readMore n, fsm') ∧
      holds bytes fsm'

namespace Serves

variable {image : List UInt8 -> List UInt8}
  {holds : List UInt8 -> DbnFsm B -> Prop}

/-- The event for a record. -/
def event (image : List UInt8 -> List UInt8) (rec : List UInt8) : Event D :=
  .record (some (image rec))

theorem mono {records records' : List (List UInt8)}
    (h : Serves D records image holds) (hsub : records' ⊆ records) :
    Serves D records' image holds where
  size rec hrec := h.size rec (hsub hrec)
  data := h.data
  writeAll := h.writeAll
  record rec rest fsm hrec := h.record rec rest fsm (hsub hrec)
  more := h.more

theorem drainLoop {records : List (List UInt8)}
    (h : Serves D records image holds) {bytes : List UInt8} {fsm : DbnFsm B}
    (hfsm : holds bytes fsm) (hpiece : bytes <+: records.flatten) {fuel : Nat}
    (hfuel : bytes.length < fuel) :
    exists done left pending fsm', records = done ++ left ∧
      bytes = done.flatten ++ pending ∧ Pending left pending ∧
      fsm.drainLoop (D := D) fuel = .ret (done.map (event image), fsm') ∧
      holds pending fsm' := by
  obtain ⟨fuel, rfl⟩ := Nat.exists_eq_succ_of_ne_zero (by omega : fuel ≠ 0)
  induction records generalizing bytes fsm fuel with
  | nil =>
      have hnil : bytes = [] := List.prefix_nil.mp hpiece
      subst hnil
      rcases h.more [] fsm (Or.inl (by simp)) hfsm with ⟨n, fsm', hret, hholds⟩
      exact ⟨[], [], [], fsm', rfl, rfl, by rintro _ _ ⟨⟩,
        drainLoop_of_readMore hret, hholds⟩
  | cons rec rest ih =>
      rcases h.size rec List.mem_cons_self with ⟨hsize, hheader⟩
      rw [List.flatten_cons] at hpiece
      by_cases hlen : rec.length ≤ bytes.length
      · obtain ⟨tail, rfl⟩ := List.prefix_of_prefix_length_le
          (List.prefix_append rec rest.flatten) hpiece hlen
        have htail : tail <+: rest.flatten :=
          (List.prefix_append_right_inj rec).mp hpiece
        rw [headerLen_eq] at hheader
        rw [List.length_append] at hfuel
        rcases h.record rec tail fsm List.mem_cons_self hfsm with
          ⟨fsm', hret, hlast, hholds⟩
        obtain ⟨fuel, rfl⟩ :=
          Nat.exists_eq_succ_of_ne_zero (by omega : fuel ≠ 0)
        rcases ih (h.mono (List.subset_cons_self _ _)) hholds htail fuel
          (by omega) with
          ⟨done, left, pending, fsm'', hsplit, hbytes, hpending, hdrain,
            hholds'⟩
        refine ⟨rec :: done, left, pending, fsm'', by rw [hsplit]; rfl, ?_,
          hpending, ?_, hholds'⟩
        · rw [hbytes, List.flatten_cons, List.append_assoc]
        · rw [drainLoop_of_record hret hdrain, hlast]
          rfl
      · have hpart := partialRecord_of_prefix hpiece hsize (by omega)
        rcases h.more bytes fsm hpart hfsm with ⟨n, fsm', hret, hholds⟩
        refine ⟨[], rec :: rest, bytes, fsm', rfl, rfl, ?_,
          drainLoop_of_readMore hret, hholds⟩
        intro rec' rest' heq
        cases heq
        omega

/-- Feeding chunks of the records. -/
theorem feed {records : List (List UInt8)}
    (h : Serves D records image holds) {pending : List UInt8}
    {fsm : DbnFsm B} (hfsm : holds pending fsm)
    (hpending : Pending records pending) {chunks : List (List UInt8)}
    (hpiece : pending ++ chunks.flatten <+: records.flatten) :
    exists done left pending' fsm', records = done ++ left ∧
      pending ++ chunks.flatten = done.flatten ++ pending' ∧
      Pending left pending' ∧
      DbnFsm.feed (D := D) chunks fsm = .ret (done.map (event image), fsm') ∧
      holds pending' fsm' := by
  induction chunks generalizing records pending fsm with
  | nil => exact ⟨[], records, pending, fsm, rfl, by simp, hpending, rfl, hfsm⟩
  | cons chunk chunks ih =>
      rw [List.flatten_cons, ← List.append_assoc] at hpiece ⊢
      have hwritten := h.writeAll pending fsm chunk hfsm
      rcases h.drainLoop hwritten
        (List.IsPrefix.trans (List.prefix_append _ _) hpiece)
        (Nat.lt_succ_self _) with
        ⟨done, left, pending1, fsm1, hsplit, hbytes, hpending1, hdrain,
          hholds⟩
      have hret : (fsm.writeAll chunk).drain (D := D) =
          .ret (done.map (event image), fsm1) := by
        unfold drain
        rw [h.data _ _ hwritten]
        exact hdrain
      rw [hbytes, hsplit, List.flatten_append, List.append_assoc] at hpiece
      have hleft := (List.prefix_append_right_inj _).mp hpiece
      rw [hsplit] at h
      rcases ih (h.mono (List.subset_append_right done left)) hholds hpending1
        hleft with
        ⟨done', left', pending', fsm', hsplit', hbytes', hpending', hfeed,
          hholds'⟩
      refine ⟨done ++ done', left', pending', fsm', ?_, ?_, hpending', ?_,
        hholds'⟩
      · rw [hsplit, hsplit', List.append_assoc]
      · rw [hbytes, List.append_assoc, hbytes', List.flatten_append,
          List.append_assoc]
      · rw [DbnFsm.feed, hret, Outcome.ret_bind]
        dsimp only
        rw [hfeed, List.map_append]
        rfl

end Serves

section Records

variable (version : Nat) (policy : VersionUpgradePolicy) (tsOut : Bool)

/-- The event for a record. -/
def recordEvent (rec : List UInt8) : Event D :=
  .record (some (upgradedImage version policy tsOut rec))

variable {version policy tsOut} [LawfulBuffer B]

theorem InRecords.serves {records : List (List UInt8)}
    (hrecords : forall rec, rec ∈ records ->
      WellFormedRecord version policy tsOut rec) :
    Serves (B := B) D records (upgradedImage version policy tsOut)
      (InRecords version policy tsOut) where
  size rec hrec := ⟨(hrecords rec hrec).size, (hrecords rec hrec).header⟩
  data bytes fsm h := h.data
  writeAll bytes fsm chunk h := h.of_appends (appends_writeAll h.inv chunk)
  record rec rest fsm hrec h := by
    rcases h.process_record (D := D) (hrecords rec hrec) with
      ⟨fsm', hret, hlast, hin, _⟩
    exact ⟨fsm', hret, hlast, hin⟩
  more bytes fsm hpart h := by
    rcases h.process_partial (D := D) hpart with ⟨n, hret, _⟩
    exact ⟨n, fsm.settle, hret, h.settle⟩

theorem InRecords.drainLoop {records : List (List UInt8)}
    (hrecords : forall rec, rec ∈ records ->
      WellFormedRecord version policy tsOut rec) {bytes : List UInt8}
    {fsm : DbnFsm B} (h : InRecords version policy tsOut bytes fsm)
    (hpiece : bytes <+: records.flatten) {fuel : Nat}
    (hfuel : bytes.length < fuel) :
    exists done left pending fsm', records = done ++ left ∧
      bytes = done.flatten ++ pending ∧ Pending left pending ∧
      fsm.drainLoop (D := D) fuel =
        .ret (done.map (recordEvent version policy tsOut), fsm') ∧
      InRecords version policy tsOut pending fsm' :=
  (InRecords.serves hrecords).drainLoop h hpiece hfuel

end Records

/-!
## Feeding
-/

section Feed

variable {policy : VersionUpgradePolicy} {m : Metadata D}
  {records : List (List UInt8)} {fed chunk : List UInt8}
  {events : List (Event D)} {fsm : DbnFsm B}

/-- What is left in a drained machine, and what it has returned. -/
def Drained (policy : VersionUpgradePolicy) (m : Metadata D)
    (records : List (List UInt8)) (fed : List UInt8)
    (events : List (Event D)) (fsm : DbnFsm B) : Prop :=
  (fed.length < (encodedBytes m).length ∧ Holds policy fsm fed ∧
    events = []) ∨
  exists done left pending, records = done ++ left ∧
    fed = encodedBytes m ++ (done.flatten ++ pending) ∧
    Pending left pending ∧
    events = .metadata (m.upgrade policy) ::
      done.map (recordEvent m.version policy m.tsOut) ∧
    InRecords m.version policy m.tsOut pending fsm

variable [LawfulBuffer B]

/-- Before the end of the metadata a call asks for more. -/
theorem Holds.process_readMore (hm : Encodable m)
    (hcompat : policy.Compatible m.version) (h : Holds policy fsm fed)
    (hpiece : fed <+: encodedBytes m)
    (hlt : fed.length < (encodedBytes m).length) :
    exists n fsm', fsm.process (D := D) = .ret (.readMore n, fsm') ∧
      Holds policy fsm' fed := by
  by_cases hshort : fed.length < metadataPreludeLen
  · rcases h.phase with ⟨hstate, hfed⟩ | ⟨_, _, _, _, haccept, _⟩
    · exact ⟨_, fsm, process_prelude_short hstate (by rwa [hfed]), h⟩
    · exact absurd haccept.room (Nat.not_le.mpr hshort)
  · obtain ⟨more, hmore⟩ := hpiece
    have haccept := acceptsPrelude_encodedBytes hm hcompat []
    rw [List.append_nil, ← hmore,
      acceptsPrelude_append (Nat.not_lt.mp hshort)] at haccept
    obtain ⟨fsm', fuel, hholds, hstate, _, hdata, _, hprocess⟩ :=
      h.process_accepted (D := D) haccept
    rw [MetadataEncoder.length_encodedBytes] at hlt
    have hdataShort : (Buffer.data fsm'.buffer).length <
        (blockBytes m).length := by
      rw [hdata, List.length_drop]
      rw [metadataPreludeLen_eq] at hshort ⊢
      omega
    exact ⟨_, fsm', hprocess.trans
      (processLoop_metadata_short hstate hdataShort fuel), hholds⟩

omit [CalendarDate D] [LawfulBuffer B] in
theorem StartsRecords.inRecords {rest : List UInt8}
    (h : StartsRecords policy m rest fsm) :
    InRecords m.version policy m.tsOut rest fsm where
  recordPhase := recordPhase_iff.mpr (Or.inl h.state)
  inv := h.inv
  inputDbnVersion := h.inputDbnVersion
  upgradePolicy := h.upgradePolicy
  tsOut := h.tsOut
  data := h.data

omit [LawfulBuffer B] in
theorem Holds.length_data (h : Holds policy fsm fed) :
    fed.length ≤ fsm.data.length + metadataPreludeLen := by
  rw [data_of_not_recordPhase h.not_recordPhase]
  rcases h.phase with ⟨_, hfed⟩ | ⟨_, _, _, _, _, hfed⟩
  · rw [hfed]
    omega
  · rw [hfed, List.length_drop]
    omega

variable [LawfulCalendarDate D]

/-- A chunk is written and the machine is drained. -/
theorem Drained.writeAll (hm : Encodable m)
    (hcompat : policy.Compatible m.version)
    (hrecords : forall rec, rec ∈ records ->
      WellFormedRecord m.version policy m.tsOut rec)
    (h : Drained policy m records fed events fsm)
    (hpiece : fed ++ chunk <+: encodedBytes m ++ records.flatten)
    (hmax : 2 ^ 32 + chunk.length ≤ isizeMax) :
    exists more fsm', (fsm.writeAll chunk).drain (D := D) = .ret (more, fsm') ∧
      Drained policy m records (fed ++ chunk) (events ++ more) fsm' := by
  rcases h with ⟨hlt, hholds, rfl⟩ |
    ⟨done, left, pending, rfl, rfl, _, rfl, hin⟩
  swap
  · -- the metadata has been returned
    have hin' := hin.of_appends (appends_writeAll hin.inv chunk)
    have hleft : pending ++ chunk <+: left.flatten := by
      rw [List.flatten_append, List.append_assoc, List.append_assoc] at hpiece
      exact (List.prefix_append_right_inj _).mp
        ((List.prefix_append_right_inj _).mp hpiece)
    obtain ⟨done', left', pending', fsm', rfl, hbytes, hpending, hdrain,
      hin''⟩ := hin'.drainLoop (D := D)
        (fun rec hrec => hrecords rec (List.mem_append_right _ hrec)) hleft
        (Nat.lt_succ_self _)
    have hret : (fsm.writeAll chunk).drain (D := D) = .ret
        (done'.map (recordEvent m.version policy m.tsOut), fsm') := by
      unfold drain
      rw [hin'.data]
      exact hdrain
    refine ⟨_, fsm', hret, Or.inr ⟨done ++ done', left', pending', ?_, ?_,
      hpending, ?_, hin''⟩⟩
    · rw [List.append_assoc]
    · rw [List.append_assoc, List.append_assoc, hbytes, List.flatten_append,
        List.append_assoc]
    · rw [List.map_append, List.cons_append]
  have hholds' := hholds.writeAll chunk
  have hdata := hholds'.length_data
  have hlong := hm.length_lt
  by_cases hmore : (fed ++ chunk).length < (encodedBytes m).length
  · -- the metadata is still incomplete
    have hinside := List.prefix_of_prefix_length_le hpiece
      (List.prefix_append _ _) (Nat.le_of_lt hmore)
    obtain ⟨n, fsm', hret, hholds''⟩ :=
      hholds'.process_readMore (D := D) hm hcompat hinside hmore
    exact ⟨[], fsm', drainLoop_of_readMore hret, Or.inl ⟨hmore, hholds'', rfl⟩⟩
  · -- the chunk completes the metadata
    obtain ⟨rest, hrest⟩ := List.prefix_of_prefix_length_le
      (List.prefix_append _ _) hpiece (Nat.not_lt.mp hmore)
    rw [← hrest] at hholds' hpiece hdata ⊢
    have hlength : (encodedBytes m ++ rest).length ≤ isizeMax := by
      rw [hrest, List.length_append]
      omega
    obtain ⟨fsm1, hret, hstart⟩ :=
      hholds'.process_encodedBytes hm hcompat hlength
    have hblock := MetadataEncoder.length_blockBytes hm
    rw [List.length_append, MetadataEncoder.length_encodedBytes, hblock,
      MetadataEncoder.neededLen, metadataPreludeLen_eq] at hdata
    obtain ⟨done, left, pending, fsm', rfl, hbytes, hpending, hdrain, hin⟩ :=
      hstart.inRecords.drainLoop (D := D) hrecords
        ((List.prefix_append_right_inj _).mp hpiece)
        (show rest.length < (fsm.writeAll chunk).data.length by omega)
    refine ⟨_, fsm', drainLoop_of_metadata hret hdrain, Or.inr ⟨done, left,
      pending, rfl, by rw [hbytes], hpending, rfl, hin⟩⟩

/-- Feeding all chunks. -/
theorem Drained.feed (hm : Encodable m)
    (hcompat : policy.Compatible m.version)
    (hrecords : forall rec, rec ∈ records ->
      WellFormedRecord m.version policy m.tsOut rec)
    {chunks : List (List UInt8)}
    (h : Drained policy m records fed events fsm)
    (hpiece : fed ++ chunks.flatten <+: encodedBytes m ++ records.flatten)
    (hmax : forall chunk, chunk ∈ chunks ->
      2 ^ 32 + chunk.length ≤ isizeMax) :
    exists more fsm', DbnFsm.feed (D := D) chunks fsm = .ret (more, fsm') ∧
      Drained policy m records (fed ++ chunks.flatten) (events ++ more)
        fsm' := by
  induction chunks generalizing fed events fsm with
  | nil =>
      exact ⟨[], fsm, rfl, by simpa using h⟩
  | cons chunk chunks ih =>
      rw [List.flatten_cons, ← List.append_assoc] at hpiece ⊢
      obtain ⟨more, fsm1, hdrain, hdrained⟩ := h.writeAll hm hcompat hrecords
        (List.IsPrefix.trans (List.prefix_append _ _) hpiece)
        (hmax chunk List.mem_cons_self)
      obtain ⟨more', fsm2, hfeed, hdrained'⟩ := ih hdrained hpiece
        (fun c hc => hmax c (List.mem_cons_of_mem chunk hc))
      refine ⟨more ++ more', fsm2, ?_, by rwa [← List.append_assoc]⟩
      rw [DbnFsm.feed, hdrain, Outcome.ret_bind]
      dsimp only
      rw [hfeed]
      rfl

end Feed

/-- What the encoder writes for well-formed records. -/
theorem encodeStream_wellFormed {policy : VersionUpgradePolicy}
    (debug : RecordRef -> String) {m : Metadata D} (hm : Accepts m)
    {records : List (List UInt8)}
    (hrecords : forall rec, rec ∈ records ->
      WellFormedRecord m.version policy m.tsOut rec) :
    encodeStream debug m (records.map RecordRef.mk) [] =
      (Res.ok (), encodedBytes m ++ records.flatten) := by
  have hwrites : encodeStream debug m (records.map RecordRef.mk) [] = _ :=
    RecordEncoder.writes_encodeStream hm (records.map RecordRef.mk) []
  have hrefs : (records.map RecordRef.mk).map RecordRef.asRef = records := by
    rw [List.map_map, List.map_congr_left (g := id), List.map_id]
    intro rec hrec
    show rec.take (recordSize rec) = rec
    rw [(hrecords rec hrec).size, List.take_length]
  rw [hwrites, hrefs, List.nil_append]

/--
For encodable metadata and well-formed records, every builder that expects
metadata and every way of cutting the encoded stream into chunks, feeding the
chunks returns the upgraded metadata and then the image of each record, which
is the record itself when the policy keeps the version, and leaves no data.
-/
theorem feed_encoded_stream (B : Type) {D : Type} [Buffer B] [LawfulBuffer B]
    [CalendarDate D] [LawfulCalendarDate D] (debug : RecordRef -> String)
    {b : DbnFsmBuilder} {start : DbnFsm B} (hbuild : b.build = Res.ok start)
    (hskip : b.skipMetadata = false) {m : Metadata D} (hm : Encodable m)
    (hcompat : b.upgradePolicy.Compatible m.version)
    {records : List (List UInt8)}
    (hrecords : forall rec, rec ∈ records ->
      WellFormedRecord m.version b.upgradePolicy m.tsOut rec) :
    (exists stream,
      encodeStream debug m (records.map RecordRef.mk) [] =
        (Res.ok (), stream) ∧
      forall chunks : List (List UInt8), chunks.flatten = stream ->
        (forall chunk, chunk ∈ chunks ->
          2 ^ 32 + chunk.length ≤ isizeMax) ->
        exists fsm, feed chunks start =
            .ret (.metadata (m.upgrade b.upgradePolicy) ::
              records.map (fun rec => .record (some
                (upgradedImage m.version b.upgradePolicy m.tsOut rec))),
              fsm) ∧
          fsm.data = []) ∧
    (b.upgradePolicy = .asIs ->
      records.map (upgradedImage m.version b.upgradePolicy m.tsOut) =
        records) := by
  refine ⟨⟨_, encodeStream_wellFormed debug hm.accepts hrecords, ?_⟩, ?_⟩
  swap
  · intro hasIs
    rw [hasIs]
    exact (List.map_congr_left (fun rec _ =>
      upgradedImage_asIs m.version m.tsOut rec)).trans (List.map_id' _)
  intro chunks hchunks hmax
  have hstart : Drained b.upgradePolicy m records [] [] start := by
    refine Or.inl ⟨?_, holds_build hbuild hskip, rfl⟩
    rw [MetadataEncoder.length_encodedBytes]
    simp
  have hpiece : [] ++ chunks.flatten <+:
      encodedBytes m ++ records.flatten := ⟨[], by simp [hchunks]⟩
  obtain ⟨events, fsm, hfeed, hdrained⟩ :=
    hstart.feed hm hcompat hrecords hpiece hmax
  rw [List.nil_append, hchunks, List.nil_append] at hdrained
  refine ⟨fsm, ?_⟩
  rcases hdrained with ⟨hlt, _, _⟩ |
    ⟨done, left, pending, rfl, hfed, hpending, rfl, hin⟩
  · rw [List.length_append] at hlt
    omega
  -- all bytes were fed, so no record is left
  have hbytes := List.append_cancel_left hfed
  have hnil := hpending.left_nil hbytes
  subst hnil
  rw [List.append_nil] at hbytes ⊢
  refine ⟨hfeed, ?_⟩
  rw [hin.data]
  exact List.append_cancel_left
    (hbytes.symm.trans (List.append_nil _).symm)

theorem feed_encoded_stream_heartbeat :
    exists stream,
      encodeStream (fun _ => "") (sampleMetadata 1 22)
        ([heartbeatV1, heartbeatV1].map RecordRef.mk) [] =
          (Res.ok (), stream) ∧
      forall chunks : List (List UInt8), chunks.flatten = stream ->
        (forall chunk, chunk ∈ chunks ->
          2 ^ 32 + chunk.length ≤ isizeMax) ->
        exists fsm, feed chunks
            (DbnFsm.new defaultBufSize 0 : DbnFsm VecBuffer) =
            .ret (.metadata ((sampleMetadata 1 22).upgrade .upgradeToV3) ::
              [heartbeatV1, heartbeatV1].map (fun rec => .record (some
                (upgradedImage 1 .upgradeToV3 false rec))), fsm) ∧
          fsm.data = [] :=
  (feed_encoded_stream VecBuffer (fun _ => "")
    (b := (default : DbnFsmBuilder)) rfl rfl (by decide +kernel)
    (by decide) (by decide +kernel)).1

end DbnFsm
end Dbn
