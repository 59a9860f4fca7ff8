import Dbn.Decode.MetadataAgreement
import Mathlib.Data.Set.Defs

/-!
# Schedules of reads

A metadata decoder decodes everything that has been read when the declared
block is complete.  How far past the block that goes depends on the schedule of
the reader.
-/

namespace Dbn
namespace DbnFsm

open Lib
open MetadataDecoder (decodeBlock)
open Async (decodeMetadataLoop)

/--
The reads for an accepted prelude and for the block that it declares return `n`
bytes after the prelude.
-/
inductive BlockRead (B : Type) [Buffer B] (policy : VersionUpgradePolicy)
    (r : ShortReader) (version : Nat) : Nat -> Prop where
  | read {length : Nat} {b b' : B} {r' r'' : ShortReader}
      (accepts : AcceptsPrelude policy r.rest version length)
      (prelude : Fills metadataPreludeLen (Buffer.withCapacity defaultBufSize)
        r b r')
      (block : Fills length
        (Buffer.grow (Buffer.consumeNoshift b metadataPreludeLen)
          (length + metadataPreludeLen)) r' b' r'') :
      BlockRead B policy r version (Buffer.data b').length

/--
The fixed fields are valid and the reads end before the symbol lists, in
`schema_definition_length`.
-/
def StopsBeforeLists (B : Type) [Buffer B] (policy : VersionUpgradePolicy)
    (r : ShortReader) : Prop :=
  exists version n, BlockRead B policy r version n ∧
    ValidFixedFields version (r.rest.drop metadataPreludeLen) ∧ n < listsOffset

/-- The stream goes on with a metadata block, and the reads reach its end. -/
def ReadsLists (B D : Type) [Buffer B] [CalendarDate D]
    (policy : VersionUpgradePolicy) (r : ShortReader) : Prop :=
  exists version n stop, BlockRead B policy r version n ∧
    WellFormedBlock D version (r.rest.drop metadataPreludeLen) stop ∧ stop ≤ n

variable {B D : Type} [Buffer B] [CalendarDate D]
  {policy : VersionUpgradePolicy}

theorem BlockRead.unique {r : ShortReader} {version version' n n' : Nat}
    (h : BlockRead B policy r version n)
    (h' : BlockRead B policy r version' n') : version = version' ∧ n = n' := by
  obtain ⟨accepts, prelude, block⟩ := h
  obtain ⟨accepts', prelude', block'⟩ := h'
  obtain ⟨rfl, rfl⟩ := accepts.unique accepts'
  obtain ⟨rfl, rfl⟩ := prelude.unique prelude'
  obtain ⟨rfl, _⟩ := block.unique block'
  exact ⟨rfl, rfl⟩

/-- A decoder ends as decoding these bytes does. -/
structure DecodesBlock (policy : VersionUpgradePolicy) (version : Nat)
    (block : List UInt8)
    (o : Outcome (Except Error (Metadata D) × MetadataDecoder ShortReader B)) :
    Prop where
  ok : forall m, decodeMetadataImpl version block = Res.ok m ->
    exists d, o = .ret (Except.ok (m.upgrade policy), d)
  err : forall e, decodeMetadataImpl (D := D) version block = Res.err e ->
    exists d, o = .ret (Except.error e, d)
  panic : forall p, decodeMetadataImpl (D := D) version block = Res.panic p ->
    o = .panic p

omit [Buffer B] in
theorem DecodesBlock.outcome {version : Nat} {block : List UInt8}
    {o : Outcome (Except Error (Metadata D) × MetadataDecoder ShortReader B)}
    (h : DecodesBlock policy version block o) :
    (exists m d, decodeMetadataImpl version block = Res.ok m ∧
        o = .ret (Except.ok (m.upgrade policy), d)) ∨
      (exists e d, o = .ret (Except.error e, d)) ∨
      exists p, decodeMetadataImpl (D := D) version block = Res.panic p ∧
        o = .panic p := by
  rcases Res.cases_outcome (decodeMetadataImpl (D := D) version block) with
    ⟨m, hm⟩ | ⟨e, he⟩ | ⟨p, hp⟩
  · obtain ⟨d, hd⟩ := h.ok m hm
    exact Or.inl ⟨m, d, hm, hd⟩
  · obtain ⟨d, hd⟩ := h.err e he
    exact Or.inr (Or.inl ⟨e, d, hd⟩)
  · exact Or.inr (Or.inr ⟨p, hp, h.panic p hp⟩)

/-- The call that finds the block complete. -/
theorem decodesBlock_of_complete {fsm fsm' : DbnFsm B} {version length fuel : Nat}
    (hprocess : fsm.process (D := D) = fsm'.processLoop (fuel + 1))
    (hstate : fsm'.state = .metadata length)
    (hversion : fsm'.inputDbnVersion = some version)
    (hroom : length ≤ (Buffer.data fsm'.buffer).length) (r : ShortReader)
    (rounds : Nat) :
    DecodesBlock (D := D) fsm'.upgradePolicy version (Buffer.data fsm'.buffer)
      (decodeMetadataLoop (rounds + 1) r fsm) := by
  rw [processLoop_metadata hstate hversion hroom] at hprocess
  unfold decodeMetadataLoop
  rw [hprocess]
  constructor
  · intro m hm
    rw [hm]
    exact ⟨_, rfl⟩
  · intro e he
    rw [he]
    exact ⟨_, rfl⟩
  · intro p hp
    rw [hp]

/-- What is buffered after the prelude is a part of the stream. -/
theorem Reading.data_eq_take {stream fed : List UInt8} {r : ShortReader}
    {fsm : DbnFsm B} (h : Reading policy stream r fsm fed)
    (hroom : metadataPreludeLen ≤ fed.length)
    (hdata : Buffer.data fsm.buffer = fed.drop metadataPreludeLen) :
    Buffer.data fsm.buffer =
      (stream.drop metadataPreludeLen).take (Buffer.data fsm.buffer).length := by
  rw [hdata, ← h.stream_eq, List.drop_append_of_le_length hroom,
    List.take_left']
  rfl

variable [LawfulBuffer B]

/-- A machine that has buffered the prelude of the stream of a reader. -/
structure PreludeRead (policy : VersionUpgradePolicy) (r r' : ShortReader)
    (fsm : DbnFsm B) (fed : List UInt8) : Prop where
  reading : Reading policy r.rest r' fsm fed
  state : fsm.state = .prelude
  room : metadataPreludeLen ≤ fed.length
  filled : Fills metadataPreludeLen (Buffer.withCapacity defaultBufSize) r
    fsm.buffer r'

/-- The first read of a stream that is not empty. -/
theorem fills_of_first {r r' : ShortReader} {b : B} (hne : r.rest ≠ [])
    (h : Fills metadataPreludeLen (afterRead r (fresh policy : DbnFsm B)).buffer
      (r.advance (r.amount defaultBufSize)) b r') :
    Fills metadataPreludeLen (Buffer.withCapacity defaultBufSize) r b r' := by
  have hafter : r.afterInto (Buffer.withCapacity defaultBufSize : B) =
      r.advance (r.amount defaultBufSize) := by
    show r.advance (r.amount (fresh policy : DbnFsm B).spaceLen) = _
    rw [spaceLen_fresh]
  rw [← hafter, ← readInto_eq] at h
  refine Fills.read (by simp) (fun hzero => ?_) h
  rcases ShortReader.amount_eq_zero.mp hzero with hspace | hrest
  · have hspaceLen : (fresh policy : DbnFsm B).spaceLen = 0 := hspace
    rw [spaceLen_fresh] at hspaceLen
    cases hspaceLen
  · exact hne hrest

/-- The reads that end the prelude, which leave two rounds to the loop. -/
theorem asyncMetadata_prelude (policy : VersionUpgradePolicy) (r : ShortReader)
    (hroom : metadataPreludeLen ≤ r.rest.length) :
    exists r' fsm fed rounds,
      PreludeRead (B := B) policy r r' fsm fed ∧
        asyncMetadata B D policy r = decodeMetadataLoop (rounds + 2) r' fsm := by
  have hfirst := reading_first (B := B) policy r
  have hlen : (r.rest.take (r.amount defaultBufSize)).length =
      r.amount defaultBufSize := r.length_take_amount _
  have hne : r.rest ≠ [] := by
    intro hrest
    rw [hrest] at hroom
    cases hroom
  have hstate : (afterRead r (fresh policy : DbnFsm B)).state = .prelude :=
    (reading_fresh policy r).state_afterRead
  have hdata := hfirst.holds.data_eq hstate
  rw [asyncMetadata_eq]
  by_cases hshort : (Buffer.data (afterRead r (fresh policy : DbnFsm B)).buffer
      ).length < metadataPreludeLen
  swap
  · rw [Nat.not_lt] at hshort
    exact ⟨_, _, _, 1, ⟨hfirst, hstate, hdata ▸ hshort,
      fills_of_first hne (Fills.done hshort)⟩, rfl⟩
  -- the loop reads the rest of the prelude
  have hret := process_prelude_short (D := D) hstate hshort
  have hlayout := LawfulBuffer.layout
    (afterRead r (fresh policy : DbnFsm B)).buffer
  have hcap := hfirst.prelude hstate
  have hspace : (afterRead r (fresh policy : DbnFsm B)).spaceLen =
      Buffer.availableSpace (afterRead r (fresh policy : DbnFsm B)).buffer :=
    rfl
  rw [hcap.1, hcap.2] at hlayout
  unfold defaultBufSize at hlayout
  have hprelude := metadataPreludeLen_eq
  rcases readLoop_spec hfirst (Nat.sub_pos_of_lt hshort) (by omega)
      (Nat.lt_succ_of_le (Nat.sub_le _ 0)) with
    ⟨r', fsm', more, hloop, hdone⟩ | ⟨r', fsm', hloop, hend⟩
  · rw [decodeMetadataLoop, hret]
    dsimp only
    rw [hloop]
    have henough := hdone.enough
    have hfilled := hdone.filled
    rw [Nat.sub_zero, Nat.add_sub_cancel' (Nat.le_of_lt hshort)] at hfilled
    refine ⟨r', fsm', _, 0, ⟨hdone.reading, hdone.state.trans hstate, ?_,
      fills_of_first hne hfilled⟩, rfl⟩
    rw [List.length_append, ← hdata]
    omega
  · rw [ShortReader.rest_advance, List.length_drop] at hend
    rw [hdata, hlen] at hend hshort
    omega

/-- The reads complete the block, and what they returned is decoded. -/
structure BlockDecoded (policy : VersionUpgradePolicy) (r : ShortReader)
    (version n : Nat)
    (o : Outcome (Except Error (Metadata D) × MetadataDecoder ShortReader B)) :
    Prop where
  blockRead : BlockRead B policy r version n
  fixed : metadataFixedLen ≤ n
  max : n ≤ isizeMax
  room : n ≤ (r.rest.drop metadataPreludeLen).length
  decodes : DecodesBlock policy version
    ((r.rest.drop metadataPreludeLen).take n) o

theorem blockDecoded_of_complete {r r' r'' : ShortReader}
    {fsm fsm' : DbnFsm B} {fed : List UInt8} {version length fuel : Nat}
    {b : B} (accepts : AcceptsPrelude policy r.rest version length)
    (prelude : Fills metadataPreludeLen (Buffer.withCapacity defaultBufSize)
      r b r')
    (block : Fills length
      (Buffer.grow (Buffer.consumeNoshift b metadataPreludeLen)
        (length + metadataPreludeLen)) r' fsm'.buffer r'')
    (hreading : Reading policy r.rest r'' fsm' fed)
    (hroom : metadataPreludeLen ≤ fed.length)
    (hdata : Buffer.data fsm'.buffer = fed.drop metadataPreludeLen)
    (hstate : fsm'.state = .metadata length)
    (hversion : fsm'.inputDbnVersion = some version)
    (hprocess : fsm.process (D := D) = fsm'.processLoop (fuel + 1))
    (rounds : Nat) :
    BlockDecoded (D := D) policy r version (Buffer.data fsm'.buffer).length
      (decodeMetadataLoop (rounds + 1) r'' fsm) := by
  have henough := block.enough
  have hge := accepts.length_ge
  have hmax := hreading.length_drop_le
  have htake := hreading.data_eq_take hroom hdata
  rw [← hdata] at hmax
  refine ⟨BlockRead.read accepts prelude block, by omega, ?_, ?_, ?_⟩
  · unfold isizeMax
    omega
  · have hlength := congrArg List.length htake
    rw [List.length_take] at hlength
    omega
  · rw [← htake, ← hreading.holds.upgradePolicy]
    exact decodesBlock_of_complete hprocess hstate hversion henough r'' rounds

/--
Under an accepted prelude either the block is read and decoded, or the stream
ends before.
-/
theorem asyncMetadata_block {r : ShortReader} {version length : Nat}
    (accepts : AcceptsPrelude policy r.rest version length) :
    (exists n, BlockDecoded policy r version n (asyncMetadata B D policy r)) ∨
    ((forall version n, ¬ BlockRead B policy r version n) ∧
      exists e d, asyncMetadata B D policy r = .ret (Except.error e, d)) := by
  obtain ⟨r1, fsm, fed, rounds, hread, hasync⟩ :=
    asyncMetadata_prelude (B := B) (D := D) policy r accepts.room
  have hfed := hread.reading.holds.data_eq hread.state
  have haccept : AcceptsPrelude policy fed version length := by
    rw [← hread.reading.stream_eq] at accepts
    exact (acceptsPrelude_append hread.room).mp accepts
  have haccept' := haccept
  rw [← hfed, ← hread.reading.holds.upgradePolicy] at haccept'
  obtain ⟨fsm1, hdone, hprocess⟩ :=
    process_prelude_accepts (D := D) hread.state haccept'
  have hreading := hread.reading.preludeDone hread.state hdone haccept'
  have hdata := hdone.data_eq
  rw [hfed] at hdata
  rw [hasync]
  by_cases hshort : (Buffer.data fsm1.buffer).length < length
  swap
  · rw [Nat.not_lt] at hshort
    refine Or.inl ⟨_, blockDecoded_of_complete accepts hread.filled ?_ hreading
      hread.room hdata hdone.state hdone.inputDbnVersion hprocess _⟩
    rw [← hdone.buffer]
    exact Fills.done hshort
  -- the loop reads the rest of the block
  rw [processLoop_metadata_short hdone.state hshort] at hprocess
  have hroom := hreading.metadata length hdone.state
  have hlayout := LawfulBuffer.layout fsm1.buffer
  have hspace : fsm1.spaceLen = Buffer.availableSpace fsm1.buffer := rfl
  rw [decodeMetadataLoop, hprocess]
  dsimp only
  rcases readLoop_spec hreading (Nat.sub_pos_of_lt hshort) (by omega)
      (Nat.lt_succ_of_le (Nat.sub_le _ 0)) with
    ⟨r2, fsm2, more, hloop, hmore⟩ | ⟨r2, fsm2, hloop, hend⟩
  · rw [hloop]
    have hfilled := hmore.filled
    rw [Nat.sub_zero, Nat.add_sub_cancel' (Nat.le_of_lt hshort),
      hdone.buffer] at hfilled
    have hstate := hmore.state.trans hdone.state
    have hfed2 : metadataPreludeLen ≤ (fed ++ more).length := by
      have hprelude := hread.room
      rw [List.length_append]
      omega
    have hdata2 : Buffer.data fsm2.buffer =
        (fed ++ more).drop metadataPreludeLen := by
      rcases hmore.reading.holds.phase with
        ⟨hprelude, _⟩ | ⟨_, _, _, _, _, hdata2⟩
      · rw [hstate] at hprelude
        cases hprelude
      · exact hdata2
    exact Or.inl ⟨_, blockDecoded_of_complete accepts hread.filled hfilled
      hmore.reading hfed2 hdata2 hstate
      (hmore.inputDbnVersion.trans hdone.inputDbnVersion) rfl _⟩
  · rw [hloop]
    refine Or.inr ⟨?_, _, _, rfl⟩
    rintro version' n ⟨accepts', prelude', block'⟩
    obtain ⟨rfl, rfl⟩ := accepts.unique accepts'
    obtain ⟨rfl, rfl⟩ := hread.filled.unique prelude'
    have hle := block'.target_le
    rw [← hdone.buffer] at hle
    omega

/-- How the reads of the asynchronous decoder can go. -/
theorem asyncMetadata_cases (policy : VersionUpgradePolicy) (r : ShortReader) :
    (exists version n,
      BlockDecoded policy r version n (asyncMetadata B D policy r)) ∨
    ((forall version n, ¬ BlockRead B policy r version n) ∧
      exists e d, asyncMetadata B D policy r = .ret (Except.error e, d)) := by
  by_cases haccept : exists version length,
      AcceptsPrelude policy r.rest version length
  · obtain ⟨version, length, accepts⟩ := haccept
    rcases asyncMetadata_block (B := B) (D := D) accepts with ⟨n, hn⟩ | hnot
    · exact Or.inl ⟨version, n, hn⟩
    · exact Or.inr hnot
  · refine Or.inr ⟨?_, asyncMetadata_error r
      (fun version length h => haccept ⟨version, length, h⟩)⟩
    rintro version n ⟨accepts, _, _⟩
    exact haccept ⟨_, _, accepts⟩

/-!
## The outcome
-/

namespace BlockDecoded

variable {r r' : ShortReader} {version version' n n' : Nat}
  {o o' : Outcome (Except Error (Metadata D) × MetadataDecoder ShortReader B)}

omit [LawfulBuffer B] in
theorem length_take (h : BlockDecoded policy r version n o) :
    ((r.rest.drop metadataPreludeLen).take n).length = n := by
  rw [List.length_take, Nat.min_eq_left h.room]

omit [LawfulBuffer B] in
theorem isPanic_iff (h : BlockDecoded policy r version n o) :
    (exists p, o = .panic p) <-> StopsBeforeLists B policy r := by
  have hlen := h.length_take
  have hfixed := h.fixed
  have hmax := h.max
  have himpl : (decodeMetadataImpl version
      ((r.rest.drop metadataPreludeLen).take n) : Result (Metadata D)).IsPanic <->
        _ :=
    decodeMetadataImpl_isPanic_iff (by omega) (by omega)
  rw [hlen, validFixedFields_take hfixed] at himpl
  constructor
  · rintro ⟨p, hp⟩
    rcases h.decodes.outcome with
      ⟨m, d, _, hok⟩ | ⟨e, d, herr⟩ | ⟨p', hpanic, _⟩
    · rw [hp] at hok
      cases hok
    · rw [hp] at herr
      cases herr
    · exact ⟨version, n, h.blockRead, himpl.mp ⟨p', hpanic⟩⟩
  · rintro ⟨version', n', hread, hvalid, hshort⟩
    obtain ⟨rfl, rfl⟩ := h.blockRead.unique hread
    obtain ⟨p, hp⟩ := himpl.mpr ⟨hvalid, hshort⟩
    exact ⟨p, h.decodes.panic p hp⟩

omit [LawfulBuffer B] in
/-- What is returned has been decoded. -/
theorem decoded_of_ok (h : BlockDecoded policy r version n o) {m : Metadata D}
    {d : MetadataDecoder ShortReader B} (hok : o = .ret (Except.ok m, d)) :
    exists m', decodeMetadataImpl version
        ((r.rest.drop metadataPreludeLen).take n) = Res.ok m' ∧
      m = m'.upgrade policy := by
  rcases h.decodes.outcome with
    ⟨m', d', hm, hd⟩ | ⟨e, d', hd⟩ | ⟨p, _, hd⟩
  · rw [hok] at hd
    cases hd
    exact ⟨m', hm, rfl⟩
  · rw [hok] at hd
    cases hd
  · rw [hok] at hd
    cases hd

omit [LawfulBuffer B] in
theorem isOk_iff (h : BlockDecoded policy r version n o) :
    (exists m d, o = .ret (Except.ok m, d)) <-> ReadsLists B D policy r := by
  have hlen := h.length_take
  have hfixed := h.fixed
  have hmax := h.max
  constructor
  · rintro ⟨m, d, hok⟩
    obtain ⟨m', hm, _⟩ := h.decoded_of_ok hok
    have hlists := listsOffset_le_of_ok hm
    rw [hlen] at hlists
    obtain ⟨stop, hblock⟩ := (decodeMetadataImpl_ok_iff_wellFormedBlock
      (by omega) (by omega)).mp ⟨m', hm⟩
    exact ⟨version, n, stop, h.blockRead,
      (wellFormedBlock_take hlists h.room).mp hblock⟩
  · rintro ⟨version', n', stop, hread, hblock, hstop⟩
    obtain ⟨rfl, rfl⟩ := h.blockRead.unique hread
    obtain ⟨_, _, _, _, hend⟩ := hblock.lists
    obtain ⟨m, hm⟩ := (decodeMetadataImpl_ok_iff_wellFormedBlock (by omega)
      (by omega)).mpr ⟨stop, (wellFormedBlock_take (by omega) h.room).mpr
        ⟨hblock, hstop⟩⟩
    obtain ⟨d, hd⟩ := h.decodes.ok m hm
    exact ⟨_, d, hd⟩

omit [LawfulBuffer B] in
/-- Reads that go on return the same metadata. -/
theorem decoded_of_le {m : Metadata D} (h : BlockDecoded policy r version n o)
    (h' : BlockDecoded policy r' version n' o') (hrest : r.rest = r'.rest)
    (hle : n ≤ n')
    (hm : decodeMetadataImpl version
      ((r.rest.drop metadataPreludeLen).take n) = Res.ok m) :
    decodeMetadataImpl version
      ((r'.rest.drop metadataPreludeLen).take n') = Res.ok m := by
  have hlen := h'.length_take
  have hmax := h'.max
  apply decodeMetadataImpl_of_cut h.fixed (by omega) (by omega)
  rw [List.take_take, Nat.min_eq_left hle, ← hrest]
  exact hm

omit [LawfulBuffer B] in
/-- The metadata do not depend on the schedule. -/
theorem ok_unique {m m' : Metadata D} {d d' : MetadataDecoder ShortReader B}
    (h : BlockDecoded policy r version n o)
    (h' : BlockDecoded policy r' version' n' o') (hrest : r.rest = r'.rest)
    (hok : o = .ret (Except.ok m, d)) (hok' : o' = .ret (Except.ok m', d')) :
    m = m' := by
  have hversion : version = version' := by
    obtain ⟨accepts, _, _⟩ := h.blockRead
    obtain ⟨accepts', _, _⟩ := h'.blockRead
    rw [hrest] at accepts
    exact (accepts.unique accepts').1
  subst hversion
  obtain ⟨m1, hm, rfl⟩ := h.decoded_of_ok hok
  obtain ⟨m2, hm', rfl⟩ := h'.decoded_of_ok hok'
  rcases Nat.le_total n n' with hle | hle
  · rw [h.decoded_of_le h' hrest hle hm] at hm'
    cases hm'
    rfl
  · rw [h'.decoded_of_le h hrest.symm hle hm'] at hm
    cases hm
    rfl

end BlockDecoded

section Schedules

variable (policy) (r r' : ShortReader)

theorem asyncMetadata_isPanic_iff :
    (exists p, asyncMetadata B D policy r = .panic p) <->
      StopsBeforeLists B policy r := by
  rcases asyncMetadata_cases (B := B) (D := D) policy r with
    ⟨version, n, h⟩ | ⟨hnot, e, d, he⟩
  · exact h.isPanic_iff
  · rw [he]
    constructor
    · rintro ⟨p, hp⟩
      cases hp
    · rintro ⟨version, n, hread, _⟩
      exact absurd hread (hnot version n)

theorem asyncMetadata_isOk_iff :
    (exists m d, asyncMetadata B D policy r = .ret (Except.ok m, d)) <->
      ReadsLists B D policy r := by
  rcases asyncMetadata_cases (B := B) (D := D) policy r with
    ⟨version, n, h⟩ | ⟨hnot, e, d, he⟩
  · exact h.isOk_iff
  · rw [he]
    constructor
    · rintro ⟨m, d', hd⟩
      cases hd
    · rintro ⟨version, n, stop, hread, _⟩
      exact absurd hread (hnot version n)

/-- The asynchronous decoder returns unless it panics. -/
theorem asyncMetadata_returns (h : ¬ StopsBeforeLists B policy r) :
    exists res d, asyncMetadata B D policy r = .ret (res, d) := by
  rcases asyncMetadata_cases (B := B) (D := D) policy r with
    ⟨version, n, hdecoded⟩ | ⟨_, e, d, he⟩
  swap
  · exact ⟨_, d, he⟩
  rcases hdecoded.decodes.outcome with
    ⟨m, d, _, hok⟩ | ⟨e, d, herr⟩ | ⟨p, _, hpanic⟩
  · exact ⟨_, d, hok⟩
  · exact ⟨_, d, herr⟩
  · exact absurd (hdecoded.isPanic_iff.mp ⟨p, hpanic⟩) h

theorem asyncMetadata_ok_unique (hrest : r.rest = r'.rest) {m m' : Metadata D}
    {d d' : MetadataDecoder ShortReader B}
    (hok : asyncMetadata B D policy r = .ret (Except.ok m, d))
    (hok' : asyncMetadata B D policy r' = .ret (Except.ok m', d')) :
    m = m' := by
  rcases asyncMetadata_cases (B := B) (D := D) policy r with
    ⟨version, n, h⟩ | ⟨_, e, d, he⟩
  swap
  · rw [he] at hok
    cases hok
  rcases asyncMetadata_cases (B := B) (D := D) policy r' with
    ⟨version', n', h'⟩ | ⟨_, e, d, he⟩
  swap
  · rw [he] at hok'
    cases hok'
  exact h.ok_unique h' hrest hok hok'

/-- Two schedules give the same metadata or both an error. -/
theorem sameMetadata_schedules_iff (hrest : r.rest = r'.rest)
    (h : ¬ StopsBeforeLists B policy r) (h' : ¬ StopsBeforeLists B policy r') :
    SameMetadata (asyncMetadata B D policy r) (asyncMetadata B D policy r') <->
      (ReadsLists B D policy r <-> ReadsLists B D policy r') := by
  rw [← asyncMetadata_isOk_iff, ← asyncMetadata_isOk_iff]
  constructor
  · rintro (⟨m, d, d', hok, hok'⟩ | ⟨e, e', d, d', herr, herr'⟩)
    · rw [hok, hok']
      exact ⟨fun _ => ⟨m, d', rfl⟩, fun _ => ⟨m, d, rfl⟩⟩
    · rw [herr, herr']
      simp
  · intro hsame
    obtain ⟨res, d, hret⟩ := asyncMetadata_returns (D := D) policy r h
    obtain ⟨res', d', hret'⟩ := asyncMetadata_returns (D := D) policy r' h'
    cases res with
    | ok m =>
        obtain ⟨m', d', hok'⟩ := hsame.mp ⟨m, d, hret⟩
        have heq := asyncMetadata_ok_unique policy r r' hrest hret hok'
        exact Or.inl ⟨m, d, d', hret, heq ▸ hok'⟩
    | error e =>
        cases res' with
        | ok m' =>
            obtain ⟨m, d, hok⟩ := hsame.mpr ⟨m', d', hret'⟩
            rw [hret] at hok
            cases hok
        | error e' => exact Or.inr ⟨e, e', d, d', hret, hret'⟩

end Schedules

omit [Buffer B] [LawfulBuffer B] [CalendarDate D] in
theorem not_sameMetadata_panic {S : Type} {p : Panic}
    {y : Outcome (Except Error (Metadata D) × S)} :
    ¬ SameMetadata (.panic p) y := by
  rintro (⟨m, s, t, h, _⟩ | ⟨e, e', s, t, h, _⟩) <;> cases h

omit [Buffer B] [LawfulBuffer B] [CalendarDate D] in
/-- A decoder that returns agrees with itself. -/
theorem sameMetadata_self_iff {S : Type}
    {x : Outcome (Except Error (Metadata D) × S)} :
    SameMetadata x x <-> exists res s, x = .ret (res, s) := by
  constructor
  · rintro (⟨m, s, _, h, _⟩ | ⟨e, _, s, _, h, _⟩)
    · exact ⟨_, s, h⟩
    · exact ⟨_, s, h⟩
  · rintro ⟨res, s, h⟩
    cases res with
    | ok m => exact Or.inl ⟨m, s, s, h, h⟩
    | error e => exact Or.inr ⟨e, e, s, s, h, h⟩

/-- What one schedule must not do for the two decoders to agree. -/
theorem sameMetadata_sync_async_iff (policy : VersionUpgradePolicy)
    (r : ShortReader) :
    SameMetadata (syncMetadata B D policy r) (asyncMetadata B D policy r) <->
      ¬ SplitPrelude policy r ∧ ¬ StopsBeforeLists B policy r := by
  rcases sync_async_cases (B := B) (D := D) policy r with
    ⟨hsplit, heq⟩ | ⟨hsplit, hsync, _⟩
  · rw [heq, sameMetadata_self_iff, ← asyncMetadata_isPanic_iff (D := D)]
    constructor
    · rintro ⟨res, d, hret⟩
      refine ⟨hsplit, ?_⟩
      rintro ⟨p, hp⟩
      rw [hret] at hp
      cases hp
    · rintro ⟨_, hpanic⟩
      rw [asyncMetadata_isPanic_iff] at hpanic
      exact asyncMetadata_returns policy r hpanic
  · rw [hsync]
    exact ⟨fun h => absurd h not_sameMetadata_panic,
      fun h => absurd hsplit h.1⟩

/--
Over any set of schedules, the two decoders return the same metadata or both an
error, which is the same under all of them, if and only if no schedule splits
the prelude or stops before the symbol lists, and either all of them or none of
them reach the end of a metadata block.
-/
theorem sync_async_metadata_iff (B D : Type) [Buffer B] [LawfulBuffer B]
    [CalendarDate D] (policy : VersionUpgradePolicy) (stream : List UInt8)
    (schedules : Set (Nat -> Nat)) :
    (forall schedule, schedule ∈ schedules ->
        SameMetadata (syncMetadata B D policy ⟨stream, schedule⟩)
          (asyncMetadata B D policy ⟨stream, schedule⟩)) ∧
      (forall schedule schedule', schedule ∈ schedules ->
        schedule' ∈ schedules ->
        SameMetadata (syncMetadata B D policy ⟨stream, schedule⟩)
          (syncMetadata B D policy ⟨stream, schedule'⟩)) <->
    (forall schedule, schedule ∈ schedules ->
        ¬ SplitPrelude policy ⟨stream, schedule⟩ ∧
          ¬ StopsBeforeLists B policy ⟨stream, schedule⟩) ∧
      (forall schedule schedule', schedule ∈ schedules ->
        schedule' ∈ schedules ->
        (ReadsLists B D policy ⟨stream, schedule⟩ <->
          ReadsLists B D policy ⟨stream, schedule'⟩)) := by
  have hone := fun schedule => sameMetadata_sync_async_iff (B := B) (D := D)
    policy ⟨stream, schedule⟩
  have hsync : forall schedule, ¬ SplitPrelude policy ⟨stream, schedule⟩ ->
      syncMetadata B D policy ⟨stream, schedule⟩ =
        asyncMetadata B D policy ⟨stream, schedule⟩ := by
    intro schedule hnot
    rcases sync_async_cases (B := B) (D := D) policy ⟨stream, schedule⟩ with
      ⟨_, heq⟩ | ⟨hsplit, _⟩
    · exact heq
    · exact absurd hsplit hnot
  simp only [hone]
  refine and_congr_right (fun hgood => ?_)
  refine forall₄_congr (fun schedule schedule' hmem hmem' => ?_)
  rw [hsync schedule (hgood schedule hmem).1,
    hsync schedule' (hgood schedule' hmem').1]
  exact sameMetadata_schedules_iff policy _ _ rfl (hgood schedule hmem).2
    (hgood schedule' hmem').2

/-- Schedules whose first read is long. -/
theorem sync_async_metadata_iff_zeroBlock :
    (forall schedule, schedule ∈ {schedule : Nat -> Nat | 200 ≤ schedule 0} ->
        SameMetadata
          (syncMetadata VecBuffer GregorianDate .upgradeToV3
            ⟨zeroBlockStream 120, schedule⟩)
          (asyncMetadata VecBuffer GregorianDate .upgradeToV3
            ⟨zeroBlockStream 120, schedule⟩)) ∧
      (forall schedule schedule',
        schedule ∈ {schedule : Nat -> Nat | 200 ≤ schedule 0} ->
        schedule' ∈ {schedule : Nat -> Nat | 200 ≤ schedule 0} ->
        SameMetadata
          (syncMetadata VecBuffer GregorianDate .upgradeToV3
            ⟨zeroBlockStream 120, schedule⟩)
          (syncMetadata VecBuffer GregorianDate .upgradeToV3
            ⟨zeroBlockStream 120, schedule'⟩)) <->
    (forall schedule, schedule ∈ {schedule : Nat -> Nat | 200 ≤ schedule 0} ->
        ¬ SplitPrelude .upgradeToV3 ⟨zeroBlockStream 120, schedule⟩ ∧
          ¬ StopsBeforeLists VecBuffer .upgradeToV3
            ⟨zeroBlockStream 120, schedule⟩) ∧
      (forall schedule schedule',
        schedule ∈ {schedule : Nat -> Nat | 200 ≤ schedule 0} ->
        schedule' ∈ {schedule : Nat -> Nat | 200 ≤ schedule 0} ->
        (ReadsLists VecBuffer GregorianDate .upgradeToV3
            ⟨zeroBlockStream 120, schedule⟩ <->
          ReadsLists VecBuffer GregorianDate .upgradeToV3
            ⟨zeroBlockStream 120, schedule'⟩)) :=
  sync_async_metadata_iff VecBuffer GregorianDate .upgradeToV3
    (zeroBlockStream 120) {schedule | 200 ≤ schedule 0}

set_option maxRecDepth 8000 in
/-- A read of one byte and a read of seven, then a complete block. -/
theorem syncMetadata_unreachable_zeroBlock :
    ¬ SameMetadata
      (syncMetadata VecBuffer GregorianDate .upgradeToV3
        ⟨zeroBlockStream 120, fun i => if i = 0 then 1 else 7⟩)
      (asyncMetadata VecBuffer GregorianDate .upgradeToV3
        ⟨zeroBlockStream 120, fun i => if i = 0 then 1 else 7⟩) := by
  have hpanic : syncMetadata VecBuffer GregorianDate .upgradeToV3
      ⟨zeroBlockStream 120, fun i => if i = 0 then 1 else 7⟩ =
      .panic Panic.unreachable := by rfl
  rw [hpanic]
  exact not_sameMetadata_panic

end DbnFsm
end Dbn
