import Dbn.Decode.MetadataReaders

/-!
# Synchronous and asynchronous decoding of metadata

The synchronous decoder calls `process` twice, the asynchronous one as often
as the machine asks for more.  The machine may ask twice, for the prelude and
then for the block, so the two decoders part when the reads that complete the
prelude do not complete the block.
-/

namespace Dbn
namespace DbnFsm

open Lib
open MetadataDecoder (decodeBlock)
open Async (decodeMetadataLoop decodeMetadataWithFsm)

variable {B D : Type} [Buffer B] [CalendarDate D]

/-- The machine of a fresh metadata decoder. -/
def fresh (policy : VersionUpgradePolicy) : DbnFsm B where
  inputDbnVersion := none
  upgradePolicy := policy
  tsOut := false
  state := .prelude
  buffer := Buffer.withCapacity defaultBufSize
  compatBuffer := Buffer.withCapacity 0

theorem withUpgradePolicy_eq {R : Type} [Read R] (reader : R)
    (policy : VersionUpgradePolicy) :
    MetadataDecoder.withUpgradePolicy reader policy =
      Res.ok (⟨reader, fresh policy⟩ : MetadataDecoder R B) := rfl

/-- The synchronous decoder on a stream of short reads. -/
def syncMetadata (B D : Type) [Buffer B] [CalendarDate D]
    (policy : VersionUpgradePolicy) (r : ShortReader) :
    Outcome (Except Error (Metadata D) × MetadataDecoder ShortReader B) :=
  (⟨r, fresh policy⟩ : MetadataDecoder ShortReader B).decode

/-- The asynchronous decoder on a stream of short reads. -/
def asyncMetadata (B D : Type) [Buffer B] [CalendarDate D]
    (policy : VersionUpgradePolicy) (r : ShortReader) :
    Outcome (Except Error (Metadata D) × MetadataDecoder ShortReader B) :=
  decodeMetadataWithFsm r (fresh policy)

/-- Both calls return, with the same metadata or both with an error. -/
def SameMetadata {S : Type}
    (x y : Outcome (Except Error (Metadata D) × S)) : Prop :=
  (exists m s t, x = .ret (Except.ok m, s) ∧ y = .ret (Except.ok m, t)) ∨
    (exists e e' s t,
      x = .ret (Except.error e, s) ∧ y = .ret (Except.error e', t))

/--
The reads complete the prelude, after a first read that did not, without
completing the block.
-/
def SplitPrelude (policy : VersionUpgradePolicy) (r : ShortReader) : Prop :=
  exists i version length, 1 ≤ i ∧
    AcceptsPrelude policy r.rest version length ∧
    r.totalAfter defaultBufSize i < metadataPreludeLen ∧
    metadataPreludeLen ≤ r.totalAfter defaultBufSize (i + 1) ∧
    r.totalAfter defaultBufSize (i + 1) < metadataPreludeLen + length

variable [LawfulBuffer B] {policy : VersionUpgradePolicy}
  {stream : List UInt8}

theorem reading_fresh (policy : VersionUpgradePolicy) (r : ShortReader) :
    Reading policy r.rest r (fresh policy : DbnFsm B) [] where
  holds :=
    { inv := by simp [Inv, fresh]
      upgradePolicy := rfl
      phase := Or.inl ⟨rfl, by simp [fresh]⟩ }
  stream_eq := rfl
  le_capacity := by
    simp [fresh]
  capacity_le := by
    simp [fresh, defaultBufSize]
  prelude := by
    intro _
    simp [fresh]
  metadata := by
    intro length hstate
    cases hstate

theorem spaceLen_fresh (policy : VersionUpgradePolicy) :
    (fresh policy : DbnFsm B).spaceLen = defaultBufSize := by
  simp [spaceLen, fresh, Buffer.availableSpace_eq]

omit [LawfulBuffer B] in
/-- A call that does not ask for more ends both decoders. -/
theorem decodeMetadataLoop_of_final {reader : ShortReader} {fsm : DbnFsm B}
    (hfinal : IsFinal (fsm.process (D := D))) (fuel : Nat) :
    decodeMetadataLoop (D := D) (fuel + 1) reader fsm =
      decodeBlock reader fsm := by
  unfold decodeMetadataLoop decodeBlock
  rcases hfinal with ⟨e, fsm', h⟩ | ⟨m, fsm', h⟩ | h <;> rw [h]

omit [LawfulBuffer B] in
theorem decodeBlock_of_final_ne {reader : ShortReader} {fsm : DbnFsm B}
    (hfinal : IsFinal (fsm.process (D := D))) :
    decodeBlock (D := D) reader fsm ≠ .panic Panic.unreachable := by
  unfold decodeBlock
  rcases hfinal with ⟨e, fsm', h⟩ | ⟨m, fsm', h⟩ | h <;> rw [h] <;> simp

/-- The reads that the machine has asked for. -/
theorem Asks.readLoop {r : ShortReader} {fed : List UInt8} {n : Nat}
    {fsm : DbnFsm B} (h : Asks policy stream r fed n fsm) :
    (exists r' fsm' more,
      MetadataDecoder.readLoop n (n + 1) 0 r fsm =
        .ret (Except.ok (), r', fsm') ∧
      ReadEnough policy stream n 0 r fsm fed r' fsm' more) ∨
    (exists r' fsm',
      MetadataDecoder.readLoop n (n + 1) 0 r fsm =
        .ret (Except.error (MetadataDecoder.ioErr .unexpectedEof), r', fsm') ∧
      r.rest.length < n) := by
  have hspec := readLoop_spec h.reading h.pos (Nat.le_trans (Nat.sub_le n 0)
    h.room) (Nat.lt_succ_of_le (Nat.sub_le n 0))
  simpa using hspec

/-- After the reads for the block the machine does not ask again. -/
theorem not_incomplete_of_metadata {fed more : List UInt8}
    {n version length : Nat} (haccept : AcceptsPrelude policy fed version length)
    (htarget : fed.length + n = metadataPreludeLen + length)
    (henough : n ≤ more.length) : ¬ Incomplete policy (fed ++ more) := by
  apply ((acceptsPrelude_append haccept.room).mpr haccept).not_incomplete
  rw [List.length_append]
  omega

/-- The asynchronous decoder has no arm that is marked as unreachable. -/
theorem decodeMetadataLoop_ne_unreachable {r : ShortReader} {fed : List UInt8}
    {fsm : DbnFsm B} (h : Reading policy stream r fsm fed)
    (hroom : metadataPreludeLen ≤ fed.length) :
    decodeMetadataLoop (D := D) 2 r fsm ≠ .panic Panic.unreachable := by
  rcases h.process_cases (D := D) with
    ⟨_, n, fsm', hret, hasks⟩ | ⟨_, hfinal, _⟩
  swap
  · rw [decodeMetadataLoop_of_final hfinal]
    exact decodeBlock_of_final_ne hfinal
  unfold decodeMetadataLoop
  rw [hret]
  dsimp only
  rcases hasks.readLoop with ⟨r2, fsm2, more, hloop, hdone⟩ | ⟨r2, fsm2, hloop, _⟩
  swap
  · rw [hloop]
    simp
  rw [hloop]
  dsimp only
  rcases hasks.target with ⟨_, htarget⟩ | ⟨v, l, _, haccept, htarget⟩
  · have hpos := hasks.pos
    omega
  have hcomplete := not_incomplete_of_metadata haccept htarget
    (by have := hdone.enough; omega : n ≤ more.length)
  rcases hdone.reading.process_cases (D := D) with ⟨hinc, _⟩ | ⟨_, hfinal, _⟩
  · exact absurd hinc hcomplete
  · rw [decodeMetadataLoop_of_final hfinal]
    exact decodeBlock_of_final_ne hfinal

omit [LawfulBuffer B] in
/-- The synchronous decoder panics when it is asked for more again. -/
theorem decodeBlock_of_readMore {reader : ShortReader} {fsm fsm' : DbnFsm B}
    {n : Nat} (hret : fsm.process (D := D) = .ret (.readMore n, fsm')) :
    decodeBlock (D := D) reader fsm = .panic Panic.unreachable := by
  unfold decodeBlock
  rw [hret]

/-!
## One schedule
-/

section Schedule

/-- The reading after the first read. -/
theorem reading_first (policy : VersionUpgradePolicy) (r : ShortReader) :
    Reading policy r.rest (r.advance (r.amount defaultBufSize))
      (afterRead r (fresh policy : DbnFsm B))
      (r.rest.take (r.amount defaultBufSize)) := by
  have h := (reading_fresh (B := B) policy r).read
  rwa [spaceLen_fresh, List.nil_append] at h

variable (r : ShortReader)

theorem asyncMetadata_eq :
    asyncMetadata B D policy r =
      decodeMetadataLoop 3 (r.advance (r.amount defaultBufSize))
        (afterRead r (fresh policy)) := by
  unfold asyncMetadata decodeMetadataWithFsm afterRead
  rw [readSpace_shortReader, spaceLen_fresh]

theorem syncMetadata_of_final
    (h : IsFinal ((afterRead r (fresh policy : DbnFsm B)).process (D := D))) :
    syncMetadata B D policy r =
      decodeBlock (r.advance (r.amount defaultBufSize))
        (afterRead r (fresh policy)) := by
  unfold syncMetadata MetadataDecoder.decode decodeBlock
  dsimp only
  rw [readSpace_shortReader, spaceLen_fresh]
  unfold afterRead at h ⊢
  rw [spaceLen_fresh] at h
  rw [spaceLen_fresh]
  dsimp only
  rcases h with ⟨e, fsm', h⟩ | ⟨m, fsm', h⟩ | h <;> rw [h]

section Asked

variable {n : Nat} {fsm' fsm2 : DbnFsm B} {r2 : ShortReader}
  (hret : (afterRead r (fresh policy : DbnFsm B)).process (D := D) =
    .ret (.readMore n, fsm'))

include hret

/-- The reads that were asked for end the first part of the decoders. -/
theorem decoders_of_readLoop_ok
    (hloop : MetadataDecoder.readLoop n (n + 1) 0
      (r.advance (r.amount defaultBufSize)) fsm' =
      .ret (Except.ok (), r2, fsm2)) :
    syncMetadata B D policy r = decodeBlock r2 fsm2 ∧
      asyncMetadata B D policy r = decodeMetadataLoop 2 r2 fsm2 := by
  constructor
  · unfold syncMetadata MetadataDecoder.decode
    dsimp only
    rw [readSpace_shortReader, spaceLen_fresh]
    unfold afterRead at hret
    rw [spaceLen_fresh] at hret
    dsimp only
    rw [hret]
    dsimp only
    rw [hloop]
  · rw [asyncMetadata_eq, decodeMetadataLoop, hret]
    dsimp only
    rw [hloop]

theorem decoders_of_readLoop_error {e : Error}
    (hloop : MetadataDecoder.readLoop n (n + 1) 0
      (r.advance (r.amount defaultBufSize)) fsm' =
      .ret (Except.error e, r2, fsm2)) :
    syncMetadata B D policy r = .ret (Except.error e, ⟨r2, fsm2⟩) ∧
      asyncMetadata B D policy r = .ret (Except.error e, ⟨r2, fsm2⟩) := by
  constructor
  · unfold syncMetadata MetadataDecoder.decode
    dsimp only
    rw [readSpace_shortReader, spaceLen_fresh]
    unfold afterRead at hret
    rw [spaceLen_fresh] at hret
    dsimp only
    rw [hret]
    dsimp only
    rw [hloop]
  · rw [asyncMetadata_eq, decodeMetadataLoop, hret]
    dsimp only
    rw [hloop]

end Asked

end Schedule

/-- A prelude that is read at once does not split. -/
theorem not_splitPrelude_of_first {r : ShortReader}
    (h : metadataPreludeLen ≤ r.amount defaultBufSize) :
    ¬ SplitPrelude policy r := by
  rintro ⟨i, v, l, hi, _, hlt, _⟩
  have hmono := r.totalAfter_mono defaultBufSize hi
  have hone : r.totalAfter defaultBufSize 1 = r.amount defaultBufSize := rfl
  omega

/--
The prelude splits when the reads that complete it do not reach the end of the
block.
-/
theorem splitPrelude_iff_incomplete {r r2 : ShortReader} {n : Nat}
    {fsm' fsm2 : DbnFsm B} {more : List UInt8}
    (hasks : Asks policy r.rest (r.advance (r.amount defaultBufSize))
      (r.rest.take (r.amount defaultBufSize)) n fsm')
    (hdone : ReadEnough policy r.rest n 0
      (r.advance (r.amount defaultBufSize)) fsm'
      (r.rest.take (r.amount defaultBufSize)) r2 fsm2 more)
    (hstate : fsm'.state = .prelude)
    (htarget : (r.rest.take (r.amount defaultBufSize)).length + n =
      metadataPreludeLen) :
    SplitPrelude policy r <->
      Incomplete policy (r.rest.take (r.amount defaultBufSize) ++ more) := by
  have hlen : (r.rest.take (r.amount defaultBufSize)).length =
      r.amount defaultBufSize := r.length_take_amount _
  obtain ⟨i, hi, hmore⟩ := hdone.crossing hstate
  have henough := hdone.enough
  have hpos := hasks.pos
  have hstream := hdone.reading.stream_eq
  have hspace : fsm'.spaceLen = defaultBufSize - r.amount defaultBufSize := by
    have hlayout := LawfulBuffer.layout fsm'.buffer
    have hcap := hasks.reading.prelude hstate
    have hdata := hasks.reading.holds.data_eq hstate
    rw [hcap.1, hcap.2, hdata, hlen] at hlayout
    have hspaceLen : fsm'.spaceLen = Buffer.availableSpace fsm'.buffer := rfl
    omega
  rw [hspace] at hi hmore
  have hti : r.totalAfter defaultBufSize (i + 1) < metadataPreludeLen := by
    rw [ShortReader.totalAfter]
    omega
  have hti' : (r.rest.take (r.amount defaultBufSize) ++ more).length =
      r.totalAfter defaultBufSize (i + 1 + 1) := by
    rw [List.length_append, hlen, hmore]
    rfl
  have hfed : metadataPreludeLen ≤
      (r.rest.take (r.amount defaultBufSize) ++ more).length := by
    rw [List.length_append]
    omega
  have haccepts : forall v l,
      AcceptsPrelude policy r.rest v l <->
        AcceptsPrelude policy (r.rest.take (r.amount defaultBufSize) ++ more)
          v l := by
    intro v l
    have happend : AcceptsPrelude policy
        (r.rest.take (r.amount defaultBufSize) ++ more ++ r2.rest) v l <->
        AcceptsPrelude policy (r.rest.take (r.amount defaultBufSize) ++ more)
          v l := acceptsPrelude_append hfed
    rw [hstream] at happend
    exact happend
  constructor
  · rintro ⟨j, v, l, _, haccept, hj, hj', hlt⟩
    have hij : j = i + 1 := ShortReader.totalAfter_crossing hj hj' hti
      (by omega)
    subst hij
    refine Or.inr ⟨v, l, (haccepts v l).mp haccept, ?_⟩
    rw [hti']
    exact hlt
  · rintro (hshort | ⟨v, l, haccept, hlt⟩)
    · omega
    · exact ⟨i + 1, v, l, by omega, (haccepts v l).mpr haccept, hti,
        by omega, by omega⟩

/--
Either the two decoders do the same, or the prelude splits and the synchronous
one panics.
-/
theorem sync_async_cases (policy : VersionUpgradePolicy) (r : ShortReader) :
    (¬ SplitPrelude policy r ∧
      syncMetadata B D policy r =
        asyncMetadata B D policy r) ∨
    (SplitPrelude policy r ∧
      syncMetadata B D policy r =
        .panic Panic.unreachable ∧
      asyncMetadata B D policy r ≠
        .panic Panic.unreachable) := by
  have hfirst := reading_first (B := B) policy r
  have hlen : (r.rest.take (r.amount defaultBufSize)).length =
      r.amount defaultBufSize := r.length_take_amount _
  rcases hfirst.process_cases (D := D) with
    ⟨_, n, fsm', hret, hasks⟩ | ⟨hcomplete, hfinal, _⟩
  swap
  · -- one call is enough
    have hroom : metadataPreludeLen ≤ r.amount defaultBufSize := by
      by_contra hshort
      exact hcomplete (Or.inl (by omega))
    exact Or.inl ⟨not_splitPrelude_of_first hroom, by
      rw [asyncMetadata_eq, decodeMetadataLoop_of_final hfinal,
        syncMetadata_of_final r hfinal]⟩
  rcases hasks.readLoop with ⟨r2, fsm2, more, hloop, hdone⟩ |
    ⟨r2, fsm2, hloop, hshort⟩
  swap
  · -- the stream ends before the reads are done
    obtain ⟨hsync, hasync⟩ := decoders_of_readLoop_error r hret hloop
    refine Or.inl ⟨?_, by rw [hsync, hasync]⟩
    rintro ⟨i, v, l, hi, haccept, hlt, _⟩
    have hroom := haccept.room
    have hrest := r.amount_le_rest defaultBufSize
    rw [ShortReader.rest_advance, List.length_drop] at hshort
    rcases hasks.target with ⟨_, htarget⟩ | ⟨v', l', _, haccept', htarget⟩
    · omega
    · have hprelude := haccept'.room
      exact not_splitPrelude_of_first (by omega) ⟨i, v, l, hi, haccept, hlt, ‹_›⟩
  obtain ⟨hsync, hasync⟩ := decoders_of_readLoop_ok r hret hloop
  rw [hsync, hasync]
  rcases hasks.target with ⟨hstate, htarget⟩ | ⟨v, l, _, haccept, htarget⟩
  swap
  · -- the first read has completed the prelude
    have hprelude := haccept.room
    have hcomplete := not_incomplete_of_metadata haccept htarget
      (by have := hdone.enough; omega : n ≤ more.length)
    rcases hdone.reading.process_cases (D := D) with ⟨hinc, _⟩ | ⟨_, hfinal, _⟩
    · exact absurd hinc hcomplete
    · exact Or.inl ⟨not_splitPrelude_of_first (by omega),
        (decodeMetadataLoop_of_final hfinal 1).symm⟩
  -- the prelude was completed by the loop
  rw [splitPrelude_iff_incomplete hasks hdone hstate htarget]
  have hfed : metadataPreludeLen ≤
      (r.rest.take (r.amount defaultBufSize) ++ more).length := by
    have henough := hdone.enough
    rw [List.length_append]
    omega
  rcases hdone.reading.process_cases (D := D) with
    ⟨hinc, n', fsm3, hret', _⟩ | ⟨hcomplete, hfinal, _⟩
  · exact Or.inr ⟨hinc, decodeBlock_of_readMore hret',
      decodeMetadataLoop_ne_unreachable hdone.reading hfed⟩
  · exact Or.inl ⟨hcomplete, (decodeMetadataLoop_of_final hfinal 1).symm⟩

/-!
## Rejected preludes
-/

/-- A stream without an accepted prelude is an error under every schedule. -/
theorem asyncMetadata_error (r : ShortReader)
    (h : forall version length,
      ¬ AcceptsPrelude policy r.rest version length) :
    exists e d, asyncMetadata B D policy r =
      .ret (Except.error e, d) := by
  have hrejects : forall {a b : List UInt8} {version length : Nat},
      a ++ b = r.rest -> ¬ AcceptsPrelude policy a version length := by
    intro a b version length hab haccept
    apply h version length
    rw [← hab]
    exact (acceptsPrelude_append haccept.room).mpr haccept
  have hfirst := reading_first (B := B) policy r
  rcases hfirst.process_cases (D := D) with
    ⟨_, n, fsm', hret, hasks⟩ | ⟨_, hfinal, herr⟩
  swap
  · obtain ⟨e, fsm', he⟩ := herr (fun v l => hrejects hfirst.stream_eq)
    rw [asyncMetadata_eq, decodeMetadataLoop_of_final hfinal]
    unfold decodeBlock
    rw [he]
    exact ⟨e, _, rfl⟩
  rcases hasks.readLoop with ⟨r2, fsm2, more, hloop, hdone⟩ |
    ⟨r2, fsm2, hloop, _⟩
  swap
  · exact ⟨_, _, (decoders_of_readLoop_error r hret hloop).2⟩
  rw [(decoders_of_readLoop_ok r hret hloop).2]
  have hstream := hdone.reading.stream_eq
  rcases hdone.reading.process_cases (D := D) with
    ⟨hinc, _⟩ | ⟨_, hfinal, herr⟩
  · rcases hinc with hshort | ⟨v, l, haccept, _⟩
    · have henough := hdone.enough
      rcases hasks.target with ⟨_, htarget⟩ | ⟨v, l, _, haccept, _⟩
      · rw [List.length_append] at hshort
        omega
      · exact absurd haccept (hrejects hfirst.stream_eq)
    · exact absurd haccept (hrejects hstream)
  · obtain ⟨e, fsm3, he⟩ := herr (fun v l => hrejects hstream)
    rw [decodeMetadataLoop_of_final hfinal]
    unfold decodeBlock
    rw [he]
    exact ⟨e, _, rfl⟩

end DbnFsm
end Dbn
