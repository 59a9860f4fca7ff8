import Dbn.Decode.UpdatedMetadata
import Dbn.Encode.MetadataLength

/-!
# Streams of updated metadata

What a metadata decoder makes of a stream is settled by the prelude and by the
block, as long as the block is complete.  The buffer never holds more than the
initial capacity or the declared block.
-/

namespace Dbn
namespace DbnFsm

open Lib
open MetadataDecoder (decodeBlock)
open Async (decodeMetadataLoop)
open MetadataEncoder

variable {B D : Type} [Buffer B] [CalendarDate D] {policy : VersionUpgradePolicy}
  {stream fed : List UInt8} {r : ShortReader} {fsm fsm' : DbnFsm B}

/-!
## The capacity of the buffer
-/

/-- The buffer has grown for the prelude and the declared block at most. -/
def Sized (fsm : DbnFsm B) : Prop :=
  forall length, fsm.state = .metadata length ->
    Buffer.capacity fsm.buffer ≤
      max defaultBufSize (length + metadataPreludeLen)

theorem sized_of_prelude (hstate : fsm.state = .prelude) : fsm.Sized := by
  intro length hmetadata
  rw [hstate] at hmetadata
  cases hmetadata

variable [LawfulBuffer B]

theorem Sized.process {res : ProcessResult D Unit} (hsized : fsm.Sized)
    (h : Reading policy stream r fsm fed)
    (hret : fsm.process = .ret (res, fsm')) (hphase : ¬ fsm'.RecordPhase) :
    fsm'.Sized := by
  rcases h.holds.phase with ⟨hstate, hfed⟩ | ⟨v, l, hstate, hversion, _⟩
  swap
  · rw [eq_of_processLoop_metadata hstate hversion hret hphase]
    exact hsized
  by_cases hshort : (Buffer.data fsm.buffer).length < metadataPreludeLen
  · rw [process_prelude_short hstate hshort] at hret
    cases hret
    exact sized_of_prelude hstate
  rw [Nat.not_lt] at hshort
  by_cases haccept : exists version length, AcceptsPrelude fsm.upgradePolicy
      (Buffer.data fsm.buffer) version length
  · rcases haccept with ⟨version, length, haccept⟩
    rcases process_prelude_accepts (D := D) hstate haccept with
      ⟨fsm1, hdone, hprocess⟩
    rw [hprocess] at hret
    rw [eq_of_processLoop_metadata hdone.state hdone.inputDbnVersion hret
      hphase]
    intro length' hlength
    rw [hdone.state] at hlength
    cases hlength
    rw [hdone.buffer, LawfulBuffer.capacity_grow,
      LawfulBuffer.capacity_consumeNoshift, (h.prelude hstate).1]
  · rcases process_prelude_rejects (D := D) hstate hshort
      (fun v l hv => haccept ⟨v, l, hv⟩) with ⟨e, version, hprocess⟩
    rw [hprocess] at hret
    cases hret
    exact sized_of_prelude hstate

omit [CalendarDate D] [LawfulBuffer B] in
theorem Sized.of_capacity (hsized : fsm.Sized)
    (hstate : fsm'.state = fsm.state)
    (hcapacity : Buffer.capacity fsm'.buffer = Buffer.capacity fsm.buffer) :
    fsm'.Sized := by
  intro length hlength
  rw [hcapacity]
  rw [hstate] at hlength
  exact hsized length hlength

omit [CalendarDate D] in
/-- Reading changes neither the state nor the capacity. -/
theorem Sized.readLoop {n fuel total : Nat} {r' : ShortReader}
    {x : Except Error Unit} (hsized : fsm.Sized)
    (hret : MetadataDecoder.readLoop n fuel total r fsm =
      .ret (x, r', fsm')) : fsm'.Sized := by
  induction fuel generalizing total r fsm with
  | zero => cases hret
  | succ fuel ih =>
      have hread : (afterRead r fsm).Sized :=
        hsized.of_capacity (by rw [afterRead_eq]) (capacity_afterRead r fsm)
      rw [MetadataDecoder.readLoop, readSpace_shortReader] at hret
      dsimp only at hret
      split at hret
      · cases hret
        exact hsized.of_capacity rfl (LawfulBuffer.capacity_writeSpace _ _)
      split at hret
      · cases hret
        exact hread
      · exact ih hread hret

/-- A successful decoder has kept to the capacity. -/
theorem sized_of_syncMetadata {m : Metadata D}
    {md : MetadataDecoder ShortReader B}
    (h : syncMetadata B D policy r = .ret (Except.ok m, md)) :
    exists fed fsm, Reading policy r.rest md.reader fsm fed ∧ fsm.Sized ∧
      fsm.process = .ret (.metadata m, md.fsm) := by
  have hfirst := reading_first (B := B) policy r
  have hsized : (afterRead r (fresh policy : DbnFsm B)).Sized := by
    apply sized_of_prelude
    rw [afterRead_eq]
    rfl
  rcases hfirst.process_cases (D := D) with
    ⟨_, n, fsm', hret, hasks⟩ | ⟨_, hfinal, _⟩
  swap
  · rw [syncMetadata_of_final r hfinal] at h
    rcases process_of_decodeBlock h with ⟨hprocess, hreader⟩
    rw [hreader]
    exact ⟨_, _, hfirst, hsized, hprocess⟩
  have hsized' := hsized.process hfirst hret hasks.reading.holds.not_recordPhase
  rcases hasks.readLoop with ⟨r2, fsm2, more, hloop, hdone⟩ |
    ⟨r2, fsm2, hloop, _⟩
  · rw [(decoders_of_readLoop_ok r hret hloop).1] at h
    rcases process_of_decodeBlock h with ⟨hprocess, hreader⟩
    rw [hreader]
    exact ⟨_, _, hdone.reading, hsized'.readLoop hloop, hprocess⟩
  · rw [(decoders_of_readLoop_error r hret hloop).1] at h
    cases h

omit [CalendarDate D] in
/-- What is buffered is not longer than the capacity. -/
theorem Reading.length_fed_le {version length : Nat}
    (h : Reading policy stream r fsm fed) (hsized : fsm.Sized)
    (haccept : AcceptsPrelude policy fed version length) :
    (fed.drop metadataPreludeLen).length ≤
      max defaultBufSize (length + metadataPreludeLen) := by
  have hdata := Buffer.length_data_le fsm.buffer
  rcases h.holds.phase with ⟨hstate, hfed⟩ | ⟨v, l, hstate, _, haccept', hfed⟩
  · rw [hfed, (h.prelude hstate).1] at hdata
    rw [List.length_drop]
    omega
  · have hcapacity := hsized l hstate
    rw [(haccept.unique haccept').2, ← hfed]
    exact Nat.le_trans hdata hcapacity

/-!
## Reading a block
-/

/-- The stream starts with a prelude and a block that decodes to metadata. -/
structure BlockAt (policy : VersionUpgradePolicy) (stream : List UInt8)
    (version length : Nat) (m : Metadata D) : Prop where
  accepts : AcceptsPrelude policy stream version length
  complete : metadataPreludeLen + length ≤ stream.length
  decodes : forall k, length ≤ k ->
    ((stream.drop metadataPreludeLen).take k).length ≤ isizeMax ->
    decodeMetadataImpl version ((stream.drop metadataPreludeLen).take k) =
      Res.ok m

section BlockAt

variable {version length : Nat} {m : Metadata D}

theorem BlockAt.process (h : BlockAt policy stream version length m)
    (hreading : Reading policy stream r fsm fed)
    (hlen : metadataPreludeLen + length ≤ fed.length) :
    exists fsm', fsm.process = .ret (.metadata (m.upgrade policy), fsm') := by
  have hroom : metadataPreludeLen ≤ fed.length :=
    Nat.le_trans (Nat.le_add_right _ _) hlen
  have haccept : AcceptsPrelude policy fed version length := by
    have haccept := h.accepts
    rw [← hreading.stream_eq] at haccept
    exact (acceptsPrelude_append hroom).mp haccept
  have htake : fed.drop metadataPreludeLen =
      (stream.drop metadataPreludeLen).take
        (fed.length - metadataPreludeLen) := by
    rw [← hreading.stream_eq, List.drop_append_of_le_length hroom,
      ← List.length_drop, List.take_left]
  have hmax : (fed.drop metadataPreludeLen).length ≤ isizeMax := by
    have hle := hreading.length_drop_le
    unfold isizeMax
    omega
  have hok : decodeMetadataImpl version (fed.drop metadataPreludeLen) =
      Res.ok m := by
    rw [htake]
    apply h.decodes _ (by omega)
    rw [← htake]
    exact hmax
  rcases hreading.holds.process_block haccept
    (by rw [List.length_drop]; omega) hok with ⟨_, _, _, _, _, hprocess⟩
  exact ⟨_, hprocess⟩

/-- One read goes on to the end of the prelude or of the block. -/
theorem BlockAt.readMore (h : BlockAt policy stream version length m)
    (hreading : Reading policy stream r fsm fed)
    (hshort : fed.length < metadataPreludeLen + length) (fuel : Nat) :
    exists r' fsm' fed', Reading policy stream r' fsm' fed' ∧
      decodeMetadataLoop (D := D) (fuel + 1) r fsm =
        decodeMetadataLoop fuel r' fsm' ∧
      metadataPreludeLen ≤ fed'.length ∧
      (metadataPreludeLen ≤ fed.length ->
        metadataPreludeLen + length ≤ fed'.length) := by
  have haccept {fed rest : List UInt8} (heq : fed ++ rest = stream)
      (hroom : metadataPreludeLen ≤ fed.length) :
      AcceptsPrelude policy fed version length := by
    have haccept := h.accepts
    rw [← heq] at haccept
    exact (acceptsPrelude_append hroom).mp haccept
  have hincomplete : Incomplete policy fed := by
    by_cases hroom : fed.length < metadataPreludeLen
    · exact Or.inl hroom
    · exact Or.inr ⟨version, length,
        haccept hreading.stream_eq (Nat.not_lt.mp hroom), hshort⟩
  rcases hreading.process_cases (D := D) with
    ⟨_, n, fsm', hret, hasks⟩ | ⟨hcomplete, _⟩
  swap
  · exact absurd hincomplete hcomplete
  have hcomplete := h.complete
  have hpos := hasks.pos
  -- what the machine asks for is the rest of the prelude or of the block
  have htarget : fed.length + n ≤ metadataPreludeLen + length ∧
      metadataPreludeLen ≤ fed.length + n ∧
      (metadataPreludeLen ≤ fed.length ->
        fed.length + n = metadataPreludeLen + length) := by
    rcases hasks.target with ⟨_, htarget⟩ | ⟨v, l, _, haccept', htarget⟩
    · exact ⟨by omega, by omega, fun hroom => by omega⟩
    · have hsame :=
        (haccept hreading.stream_eq haccept'.room).unique haccept'
      rw [← hsame.2] at htarget
      exact ⟨by omega, by omega, fun _ => htarget⟩
  rcases hasks.readLoop with ⟨r2, fsm2, more, hloop, hdone⟩ |
    ⟨r2, fsm2, hloop, hend⟩
  · refine ⟨r2, fsm2, fed ++ more, hdone.reading, ?_, ?_⟩
    · rw [decodeMetadataLoop, hret]
      dsimp only
      rw [hloop]
    · have henough := hdone.enough
      rw [List.length_append]
      exact ⟨by omega, fun hroom => by have := htarget.2.2 hroom; omega⟩
  · have hlen := congrArg List.length hasks.reading.stream_eq
    rw [List.length_append] at hlen
    omega

theorem BlockAt.decodeMetadataLoop_complete
    (h : BlockAt policy stream version length m)
    (hreading : Reading policy stream r fsm fed)
    (hlen : metadataPreludeLen + length ≤ fed.length) (fuel : Nat) :
    exists md, decodeMetadataLoop (fuel + 1) r fsm =
      .ret (Except.ok (m.upgrade policy), md) := by
  rcases h.process hreading hlen with ⟨fsm', hprocess⟩
  refine ⟨⟨r, fsm'⟩, ?_⟩
  rw [decodeMetadataLoop, hprocess]

/-- The asynchronous decoder returns the metadata under every schedule. -/
theorem BlockAt.asyncMetadata (h : BlockAt policy r.rest version length m) :
    exists md, asyncMetadata B D policy r =
      .ret (Except.ok (m.upgrade policy), md) := by
  rw [asyncMetadata_eq]
  have hfirst := reading_first (B := B) policy r
  by_cases hlen : metadataPreludeLen + length ≤
      (r.rest.take (r.amount defaultBufSize)).length
  · exact h.decodeMetadataLoop_complete hfirst hlen 2
  rcases h.readMore hfirst (Nat.not_le.mp hlen) 2 with
    ⟨r1, fsm1, fed1, hreading1, hloop1, hroom1, _⟩
  rw [hloop1]
  by_cases hlen1 : metadataPreludeLen + length ≤ fed1.length
  · exact h.decodeMetadataLoop_complete hreading1 hlen1 1
  rcases h.readMore hreading1 (Nat.not_le.mp hlen1) 1 with
    ⟨r2, fsm2, fed2, hreading2, hloop2, _, hblock2⟩
  rw [hloop2]
  exact h.decodeMetadataLoop_complete hreading2 (hblock2 hroom1) 0

/-- So does the synchronous one, if no read splits the prelude. -/
theorem BlockAt.syncMetadata (h : BlockAt policy r.rest version length m)
    (hsplit : ¬ SplitPrelude policy r) :
    exists md, syncMetadata B D policy r =
      .ret (Except.ok (m.upgrade policy), md) := by
  rcases sync_async_cases (B := B) (D := D) policy r with
    ⟨_, hsame⟩ | ⟨hnot, _⟩
  · rw [hsame]
    exact h.asyncMetadata
  · exact absurd hnot hsplit

end BlockAt

/-!
## Updated metadata
-/

section Updated

variable {m : Metadata D} {start : UInt64} {endTs limit : Option NonZeroU64}

/-- A length that fits in the buffer has not wrapped around. -/
theorem calcLength_eq_of_le (h : Accepts m)
    (hle : neededLen m ≤
      max defaultBufSize ((calcLength m).1 + metadataPreludeLen)) :
    (calcLength m).1 = neededLen m + (calcLength m).2 := by
  apply calcLength_eq_neededLen h
  rw [metadataPreludeLen_eq] at hle
  unfold defaultBufSize at hle
  rw [calcLength_neededLen h] at hle ⊢
  split at hle
  · next hround =>
      rw [if_pos hround]
      dsimp only at hle ⊢
      omega
  · next hround =>
      rw [if_neg hround]
      dsimp only at hle ⊢
      omega

theorem uintAt_version (h : m.version ≤ dbnVersion) :
    uintAt 1 (encodedBytes m) dbnPrefix.length = max m.version 1 := by
  have hdrop : (encodedBytes m).drop dbnPrefix.length =
      UInt8.ofNat (max m.version 1) ::
        (leBytes 4 (calcLength m).1 ++ blockBytes m) := rfl
  have hlt : max m.version 1 < 2 ^ 8 := by
    unfold dbnVersion at h
    omega
  have hread := uintAt_cons (UInt8.ofNat (max m.version 1))
    (leBytes 4 (calcLength m).1 ++ blockBytes m)
  unfold uintAt at hread ⊢
  rw [hdrop]
  rw [List.drop_zero] at hread
  rw [hread, UInt8.toNat_ofNat_of_lt' hlt]

/-- Metadata that the encoder and then the decoder return as it was. -/
structure RoundTrips (B : Type) [Buffer B] (m : Metadata D)
    (bytes : List UInt8) : Prop where
  encodes : encode m [] = (Res.ok (), bytes)
  decodes : exists r md, ShortReader.rest r = bytes ∧
    syncMetadata B D .asIs r = .ret (Except.ok m, md)

/-- A reader that hands out as much as there is space for. -/
def wholeReader (bytes : List UInt8) : ShortReader :=
  ⟨bytes, fun _ => bytes.length⟩

omit [CalendarDate D] [Buffer B] [LawfulBuffer B] in
theorem not_splitPrelude_wholeReader {bytes : List UInt8}
    (h : metadataPreludeLen ≤ bytes.length) :
    ¬ SplitPrelude policy (wholeReader bytes) := by
  apply not_splitPrelude_of_first
  rw [metadataPreludeLen_eq] at h ⊢
  unfold ShortReader.amount wholeReader defaultBufSize
  dsimp only
  omega

/-- Metadata that can be encoded without loss round-trips. -/
theorem roundTrips_of_encodable [LawfulCalendarDate D] (h : Encodable m) :
    RoundTrips B m (encodedBytes m) := by
  have hlt := h.length_lt
  have hcompat : VersionUpgradePolicy.Compatible .asIs m.version := by
    simp [VersionUpgradePolicy.Compatible]
  have haccept := acceptsPrelude_encodedBytes h hcompat []
  rw [List.append_nil] at haccept
  have hblock : BlockAt .asIs (wholeReader (encodedBytes m)).rest m.version
      (blockBytes m).length m := by
    refine ⟨haccept, ?_, ?_⟩
    · have hlen := length_encodedBytes m
      rw [metadataPreludeLen_eq]
      exact Nat.le_of_eq hlen.symm
    · intro k hk hmax
      have hdrop := drop_encodedBytes m []
      rw [List.append_nil] at hdrop
      change decodeMetadataImpl m.version
        (((encodedBytes m).drop metadataPreludeLen).take k) = _
      rw [hdrop, List.append_nil, List.take_of_length_le hk,
        ← List.append_nil (blockBytes m)]
      apply (rereads_of_encodable h).decodes
      rw [List.append_nil]
      rw [length_encodedBytes] at hlt
      unfold isizeMax
      omega
  have hsync := hblock.syncMetadata (B := B)
    (not_splitPrelude_wholeReader haccept.room)
  rw [upgrade_asIs h.cstrLenV1 h.version_pos] at hsync
  rcases hsync with ⟨md, hsync⟩
  exact ⟨writes_encode h.accepts [], wholeReader (encodedBytes m), md, rfl, hsync⟩

omit [LawfulBuffer B] in
theorem RoundTrips.accepts {bytes : List UInt8} (h : RoundTrips B m bytes) :
    Accepts m ∧ bytes = encodedBytes m := by
  rcases emits_encode m _ _ h.encodes with ⟨haccepts, hbytes⟩
  exact ⟨haccepts, hbytes⟩

/-- What the decoder has read of a stream that starts with metadata. -/
theorem decode_of_syncMetadata {m' : Metadata D} {rest : List UInt8}
    {md : MetadataDecoder ShortReader B} (haccepts : Accepts m)
    (hrest : r.rest = encodedBytes m ++ rest)
    (h : syncMetadata B D policy r = .ret (Except.ok m', md)) :
    exists read m1, AcceptsPrelude policy (encodedBytes m ++ rest)
        (max m.version 1) (calcLength m).1 ∧
      (exists j, read = (blockBytes m ++ rest).take j) ∧
      read.length ≤ isizeMax ∧
      read.length ≤
        max defaultBufSize ((calcLength m).1 + metadataPreludeLen) ∧
      decodeMetadataImpl (max m.version 1) read = Res.ok m1 ∧
      m' = m1.upgrade policy := by
  rcases sized_of_syncMetadata h with ⟨fed, fsm, hreading, hsized, hprocess⟩
  rcases hreading.holds.process_metadata hprocess with ⟨version, length, _, m1,
    haccept, _, _, _, _, _, _, hok, hm, _⟩
  have hfits := hreading.length_fed_le hsized haccept
  have hle := hreading.length_drop_le
  have hroom : metadataPreludeLen ≤ fed.length := haccept.room
  have hstream := hreading.stream_eq
  rw [hrest] at hstream
  have hstart : AcceptsPrelude policy (encodedBytes m ++ rest) version
      length := by
    rw [← hstream]
    exact (acceptsPrelude_append hroom).mpr haccept
  have hprelude : metadataPreludeLen ≤ (encodedBytes m).length := by
    rw [length_encodedBytes, metadataPreludeLen_eq]
    exact Nat.le_add_right _ _
  have hlength : length = (calcLength m).1 := by
    rw [← uintAt_encodedBytes m,
      ← uintAt_append (by rwa [metadataPreludeLen_eq] at hprelude)]
    exact hstart.length_eq
  have hversion : version = max m.version 1 := by
    rw [← uintAt_version haccepts.version_le,
      ← uintAt_append (by
        rw [metadataPreludeLen_eq] at hprelude
        exact Nat.le_trans (by decide) hprelude)]
    exact hstart.version_eq
  rw [hversion, hlength] at hstart
  rw [hversion] at hok
  rw [hlength] at hfits
  refine ⟨fed.drop metadataPreludeLen, m1, hstart,
    ⟨fed.length - metadataPreludeLen, ?_⟩, ?_, hfits, hok, hm⟩
  · rw [← drop_encodedBytes, ← hstream,
      List.drop_append_of_le_length hroom, ← List.length_drop,
      List.take_left]
  · unfold isizeMax
    omega

/-- The block of the metadata, as far as the decoder has read it. -/
theorem RoundTrips.block {bytes : List UInt8} (h : RoundTrips B m bytes) :
    AcceptsPrelude .asIs (encodedBytes m) m.version (calcLength m).1 ∧
      1 ≤ m.version ∧
      (m.version = 1 -> m.symbolCstrLen = symbolCstrLenV1) ∧
      (calcLength m).1 = neededLen m + (calcLength m).2 ∧
      exists j, ((blockBytes m).take j).length ≤ isizeMax ∧
        decodeMetadataImpl m.version ((blockBytes m).take j) = Res.ok m := by
  rcases h.accepts with ⟨haccepts, hbytes⟩
  rcases h.decodes with ⟨r, md, hr, hdecode⟩
  have hrest : r.rest = encodedBytes m ++ [] := by
    rw [hr, hbytes, List.append_nil]
  rcases decode_of_syncMetadata haccepts hrest hdecode with
    ⟨read, m1, hstart, ⟨j, hread⟩, hmax, hfits, hok, hm⟩
  rw [List.append_nil] at hstart hread
  have hversion1 := version_of_decodeMetadataImpl hok
  have hpos : 1 ≤ m1.version := by
    rw [hversion1]
    exact Nat.le_max_right _ _
  have hcstr : m1.version = 1 -> m1.symbolCstrLen = symbolCstrLenV1 := by
    intro hone
    rw [symbolCstrLen_of_decodeMetadataImpl hmax hok]
    unfold declaredCstrLen
    rw [if_pos (hversion1.symm.trans hone)]
  rw [upgrade_asIs hcstr hpos] at hm
  rw [← hm] at hok hpos hcstr hversion1
  rw [← hversion1] at hstart hok
  have hneeded := (decodeMetadataImpl_stop haccepts hmax hok).1
  rw [hread] at hok hmax
  exact ⟨hstart, hpos, hcstr,
    calcLength_eq_of_le haccepts (Nat.le_trans hneeded hfits), j, hmax, hok⟩

/-- The stream of the updated metadata. -/
theorem RoundTrips.blockAt {bytes : List UInt8} (h : RoundTrips B m bytes)
    (hend : forall e, e ∈ endTs -> e.val.toNat ≠ undefTimestamp)
    (rest : List UInt8) :
    BlockAt .asIs (encodedBytes (m.withRange start endTs limit) ++ rest)
      m.version (calcLength m).1 (m.withRange start endTs limit) := by
  rcases h.accepts with ⟨haccepts, _⟩
  rcases h.block with ⟨haccept, hpos, _, hlength, j, hmax, hok⟩
  constructor
  · unfold encodedBytes at haccept ⊢
    rw [preludeBytes_withRange, List.append_assoc]
    have hroom : metadataPreludeLen ≤ (preludeBytes m).length := by
      rw [length_preludeBytes, metadataPreludeLen_eq]
    exact (acceptsPrelude_append hroom).mpr
      ((acceptsPrelude_append hroom).mp haccept)
  · have hblock := length_blockBytes_eq haccepts
    rw [if_neg (Nat.ne_of_gt hpos)] at hblock
    rw [List.length_append, length_encodedBytes_withRange,
      length_encodedBytes, metadataPreludeLen_eq]
    omega
  · intro k hk hmax'
    rw [drop_encodedBytes] at hmax' ⊢
    exact decodeMetadataImpl_withRange haccepts hend hmax hok rest
      (by omega) hmax'

/--
Updating encoded metadata that round-trips, with any bytes after it, succeeds,
keeps all lengths and the bytes after it, and ends at the end.  The metadata
that is decoded afterwards has the new range and is otherwise the same.
-/
theorem updateEncoded_roundTrip (B D : Type) [Buffer B] [LawfulBuffer B]
    [CalendarDate D] (m : Metadata D) (bytes rest : List UInt8)
    (position : Nat) (start : UInt64) (endTs limit : Option NonZeroU64)
    (h : RoundTrips B m bytes)
    (hend : forall e, e ∈ endTs -> e.val.toNat ≠ undefTimestamp) :
    exists bytes', updateEncoded m.version start endTs limit
        (⟨bytes ++ rest, position⟩ : VecCursor) =
        (Res.ok (), ⟨bytes' ++ rest, (bytes' ++ rest).length⟩) ∧
      bytes'.length = bytes.length ∧
      forall r, ShortReader.rest r = bytes' ++ rest ->
        (¬ SplitPrelude .asIs r -> exists md, syncMetadata B D .asIs r =
          .ret (Except.ok (m.withRange start endTs limit), md)) ∧
        exists md, asyncMetadata B D .asIs r =
          .ret (Except.ok (m.withRange start endTs limit), md) := by
  rcases h.accepts with ⟨haccepts, rfl⟩
  rcases h.block with ⟨_, hpos, hcstr, _⟩
  refine ⟨encodedBytes (m.withRange start endTs limit),
    updateEncoded_encodedBytes haccepts.dataset rest position,
    length_encodedBytes_withRange, ?_⟩
  intro r hr
  have hblock : BlockAt .asIs
      (encodedBytes (m.withRange start endTs limit) ++ rest) m.version
      (calcLength m).1 (m.withRange start endTs limit) := h.blockAt hend rest
  rw [← hr] at hblock
  have hupgrade : (m.withRange start endTs limit).upgrade .asIs =
      m.withRange start endTs limit := upgrade_asIs hcstr hpos
  constructor
  · intro hsplit
    have hsync := hblock.syncMetadata (B := B) hsplit
    rw [hupgrade] at hsync
    exact hsync
  · have hasync := hblock.asyncMetadata (B := B)
    rw [hupgrade] at hasync
    exact hasync

theorem updateEncoded_roundTrip_sample :
    exists bytes', updateEncoded 3 5 (NonZeroU64.new 7) none
        (⟨encodedBytes (sampleMetadata 3 71) ++ [1, 2, 3], 0⟩ : VecCursor) =
        (Res.ok (), ⟨bytes' ++ [1, 2, 3], (bytes' ++ [1, 2, 3]).length⟩) ∧
      bytes'.length = (encodedBytes (sampleMetadata 3 71)).length ∧
      forall r, ShortReader.rest r = bytes' ++ [1, 2, 3] ->
        (¬ SplitPrelude .asIs r ->
          exists md, syncMetadata VecBuffer GregorianDate .asIs r =
            .ret (Except.ok ((sampleMetadata 3 71).withRange 5
              (NonZeroU64.new 7) none), md)) ∧
        exists md, asyncMetadata VecBuffer GregorianDate .asIs r =
          .ret (Except.ok ((sampleMetadata 3 71).withRange 5
            (NonZeroU64.new 7) none), md) :=
  updateEncoded_roundTrip VecBuffer GregorianDate (sampleMetadata 3 71)
    (encodedBytes (sampleMetadata 3 71)) [1, 2, 3] 0 5 (NonZeroU64.new 7) none
    (roundTrips_of_encodable encodable_sampleMetadata)
    (by
      intro e he
      cases he
      decide)

end Updated

end DbnFsm
end Dbn
