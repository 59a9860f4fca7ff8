import Dbn.Decode.RereadMetadata
import Dbn.Decode.StreamRoundTrip
import Dbn.UpgradeSteps

/-!
# Upgrading a stream in one step or in two

A version 1 stream can be decoded with an upgrade to version 3, or with an
upgrade to version 2, encoded again, and decoded with an upgrade to version 3.
Both give the same metadata and records, as long as the length of the metadata
with the longer symbols of version 2 fits in the 32 bits that it is declared
in.  The encoder cuts a greater length off and reports no error.
-/

namespace Dbn
namespace DbnFsm

open Lib
open MetadataEncoder
open RecordEncoder (encodeStream)

/-!
## Decoded streams
-/

section Definitions

variable (B D : Type) [Buffer B] [CalendarDate D]

/-- The metadata has been returned, and the records will be. -/
def Yields (m : Metadata D) (images : List (List UInt8))
    (out : Outcome (Except Error (Metadata D) ×
      MetadataDecoder ShortReader B)) : Prop :=
  exists md d, out = .ret (Except.ok m, md) ∧
    RecordDecoder.fromMetadataDecoder md = Res.ok d ∧
    DecodesRecords D images d

/--
Whatever the reader returns at a time, the asynchronous decoder returns the
metadata and the records, and so does the synchronous one unless a read splits
the prelude.
-/
structure DecodesTo (policy : VersionUpgradePolicy) (stream : List UInt8)
    (m : Metadata D) (images : List (List UInt8)) : Prop where
  asynchronous : forall r, ShortReader.rest r = stream ->
    Yields B D m images (asyncMetadata B D policy r)
  synchronous : forall r, ShortReader.rest r = stream ->
    ¬ SplitPrelude policy r -> Yields B D m images (syncMetadata B D policy r)

/--
Decoding with an upgrade to version 3 gives what decoding with an upgrade to
version 2, encoding, and decoding with an upgrade to version 3 gives.
-/
def PathIndependent (debug : RecordRef -> String) (stream : List UInt8) :
    Prop :=
  exists (m3 m2 : Metadata D) (images3 images2 : List (List UInt8))
      (stream2 : List UInt8),
    DecodesTo B D .upgradeToV3 stream m3 images3 ∧
    DecodesTo B D .upgradeToV2 stream m2 images2 ∧
    encodeStream debug m2 (images2.map RecordRef.mk) [] =
      (Res.ok (), stream2) ∧
    DecodesTo B D .upgradeToV3 stream2 m3 images3

end Definitions

variable {B D : Type} [Buffer B] [LawfulBuffer B] [CalendarDate D]
  {policy : VersionUpgradePolicy} {stream : List UInt8} {m : Metadata D}
  {records : List (List UInt8)}

/-- The record decoder takes over from a metadata decoder. -/
theorem recordDecoder_of_blockAt {version length : Nat} {r : ShortReader}
    {md : MetadataDecoder ShortReader B}
    (h : BlockAt policy r.rest version length m)
    (hstream : r.rest.drop (metadataPreludeLen + length) = records.flatten)
    (hrecords : forall rec, rec ∈ records ->
      WellFormedRecord version policy m.tsOut rec)
    (hdecode :
      syncMetadata B D policy r = .ret (Except.ok (m.upgrade policy), md) ∨
        asyncMetadata B D policy r =
          .ret (Except.ok (m.upgrade policy), md)) :
    exists d, RecordDecoder.fromMetadataDecoder md = Res.ok d ∧
      DecodesRecords D
        (records.map (upgradedImage version policy m.tsOut)) d := by
  have hpart : PartialRecord [] := Or.inl (by decide)
  rcases recordDecoder_of_metadata records hpart hdecode with
    ⟨d, version', length', hd, haccept, himages⟩
  rcases h.accepts.unique haccept with ⟨rfl, rfl⟩
  rw [Metadata.upgrade_tsOut, List.append_nil] at himages
  exact ⟨d, hd, himages hstream hrecords⟩

theorem BlockAt.decodesTo {version length : Nat}
    (h : BlockAt policy stream version length m)
    (hstream : stream.drop (metadataPreludeLen + length) = records.flatten)
    (hrecords : forall rec, rec ∈ records ->
      WellFormedRecord version policy m.tsOut rec) :
    DecodesTo B D policy stream (m.upgrade policy)
      (records.map (upgradedImage version policy m.tsOut)) := by
  constructor
  · intro r hr
    rw [← hr] at h hstream
    rcases h.asyncMetadata (B := B) with ⟨md, hdecode⟩
    rcases recordDecoder_of_blockAt h hstream hrecords (Or.inr hdecode) with
      ⟨d, hd, himages⟩
    exact ⟨md, d, hdecode, hd, himages⟩
  · intro r hr hsplit
    rw [← hr] at h hstream
    rcases h.syncMetadata (B := B) hsplit with ⟨md, hdecode⟩
    rcases recordDecoder_of_blockAt h hstream hrecords (Or.inl hdecode) with
      ⟨d, hd, himages⟩
    exact ⟨md, d, hdecode, hd, himages⟩

/-- Metadata that is read again, and records of its version. -/
theorem Rereads.decodesTo (h : Rereads m)
    (hcompat : policy.Compatible m.version)
    (hlen : (calcLength m).1 = (blockBytes m).length)
    (hrecords : forall rec, rec ∈ records ->
      VersionRecord m.version m.tsOut rec) :
    DecodesTo B D policy (encodedBytes m ++ records.flatten)
      (m.upgrade policy)
      (records.map (upgradedImage m.version policy m.tsOut)) := by
  apply (h.blockAt hcompat hlen records.flatten).decodesTo
  · apply List.drop_left'
    rw [length_encodedBytes, metadataPreludeLen_eq]
  · intro rec hrec
    exact (hrecords rec hrec).wellFormed policy

omit [LawfulBuffer B] in
/-- A stream is decoded to one value of the metadata. -/
theorem DecodesTo.metadata_unique {m' : Metadata D}
    {images images' : List (List UInt8)}
    (h : DecodesTo B D policy stream m images)
    (h' : DecodesTo B D policy stream m' images') : m = m' := by
  rcases h.asynchronous (wholeReader stream) rfl with ⟨_, _, hdecode, _⟩
  rcases h'.asynchronous (wholeReader stream) rfl with ⟨_, _, hdecode', _⟩
  rw [hdecode] at hdecode'
  cases hdecode'
  rfl

/-!
## The length after the upgrade
-/

section Length

variable {bytes : List UInt8}

omit [Buffer B] [LawfulBuffer B] in
/-- Metadata of version 2 is not padded. -/
theorem calcLength_eq_iff (h : Accepts m) (hversion : m.version = 2) :
    (calcLength m).1 = (blockBytes m).length <->
      metadataLen m.symbolCstrLen m < 2 ^ 32 := by
  have hblock := length_blockBytes_eq h
  rw [if_neg (by omega), calcLength_neededLen h, if_pos (Or.inl (by omega)),
    Nat.add_zero, Nat.add_zero, neededLen_eq_metadataLen h] at hblock
  rw [calcLength_neededLen h, if_pos (Or.inl (by omega)), hblock,
    neededLen_eq_metadataLen h]
  exact Nat.mod_eq_iff_lt (by decide)

theorem RoundTrips.calcLength_eq (h : RoundTrips B m bytes) :
    (calcLength m).1 = (blockBytes m).length := by
  rcases h.block with ⟨_, hpos, _, hlength, _⟩
  have hblock := length_blockBytes_eq h.accepts.1
  rw [if_neg (Nat.ne_of_gt hpos), Nat.add_zero] at hblock
  exact hlength.trans hblock.symm

omit [CalendarDate D] in
/-- The version that an upgrade to version 3 has replaced is restored. -/
theorem eq_of_upgrade {m1 : Metadata D} (hversion : m.version = 1)
    (hversion1 : m1.version = 2)
    (h : m.upgrade .upgradeToV3 = m1.upgrade .upgradeToV3) :
    m1 = m.upgrade .upgradeToV2 := by
  have hm1 : m1 = { m1.upgrade .upgradeToV3 with version := 2 } := by
    unfold Metadata.upgrade
    rw [if_neg (by omega), if_pos ⟨hversion1, rfl⟩, ← hversion1]
  rw [hm1, ← h, upgrade_toV2 hversion]
  unfold Metadata.upgrade
  rw [if_pos (by omega)]
  rfl

/-- What is decoded again has had its length declared. -/
theorem metadataLen_lt_of_decodesTo {rest : List UInt8}
    {images : List (List UInt8)} (hrereads : Rereads m)
    (hversion : m.version = 1)
    (h : DecodesTo B D .upgradeToV3
      (encodedBytes (m.upgrade .upgradeToV2) ++ rest)
      (m.upgrade .upgradeToV3) images) :
    metadataLen symbolCstrLenV2 m < 2 ^ 32 := by
  have haccepts := (hrereads.upgrade hversion).accepts
  have hprelude : metadataPreludeLen ≤
      (encodedBytes (m.upgrade .upgradeToV2) ++ rest).length := by
    rw [List.length_append, length_encodedBytes, metadataPreludeLen_eq]
    omega
  rcases h.synchronous (wholeReader _) rfl
    (not_splitPrelude_wholeReader hprelude) with ⟨md, _, hdecode, _⟩
  rcases decode_of_syncMetadata haccepts rfl hdecode with
    ⟨read, m1, _, _, hmax, hfits, hok, hm⟩
  have hversion2 : (m.upgrade .upgradeToV2).version = 2 := by
    rw [upgrade_toV2 hversion]
  have hversion1 : m1.version = 2 := by
    rw [version_of_decodeMetadataImpl hok, hversion2]
    rfl
  rw [eq_of_upgrade hversion hversion1 hm] at hok
  have hneeded := (decodeMetadataImpl_stop haccepts hmax hok).1
  have hlength := calcLength_eq_of_le haccepts (Nat.le_trans hneeded hfits)
  have hblock := length_blockBytes_eq haccepts
  rw [if_neg (by omega), Nat.add_zero, ← hlength] at hblock
  have hlt := (calcLength_eq_iff haccepts hversion2).mp hblock.symm
  rw [upgrade_toV2 hversion] at hlt
  exact hlt

end Length

/-!
## Both paths
-/

/-- The records after the first step, and after both. -/
theorem records_upgraded {tsOut : Bool}
    (h : forall rec, rec ∈ records -> VersionRecord 1 tsOut rec) :
    (forall rec, rec ∈
        records.map (upgradedImage 1 .upgradeToV2 tsOut) ->
      VersionRecord 2 tsOut rec) ∧
    (records.map (upgradedImage 1 .upgradeToV2 tsOut)).map
        (upgradedImage 2 .upgradeToV3 tsOut) =
      records.map (upgradedImage 1 .upgradeToV3 tsOut) := by
  constructor
  · intro rec hrec
    rcases List.mem_map.mp hrec with ⟨old, hold, rfl⟩
    exact (h old hold).upgraded.1
  · rw [List.map_map]
    apply List.map_congr_left
    intro rec hrec
    exact upgradedImage_steps (h rec hrec)

/-- Of the stream that was encoded again nothing is lost. -/
theorem Rereads.decodesTo_again (h : Rereads m) (hversion : m.version = 1)
    (hlt : metadataLen symbolCstrLenV2 m < 2 ^ 32)
    (hrecords : forall rec, rec ∈ records -> VersionRecord 1 m.tsOut rec) :
    DecodesTo B D .upgradeToV3
      (encodedBytes (m.upgrade .upgradeToV2) ++
        (records.map (upgradedImage 1 .upgradeToV2 m.tsOut)).flatten)
      (m.upgrade .upgradeToV3)
      (records.map (upgradedImage 1 .upgradeToV3 m.tsOut)) := by
  have hupgrade := h.upgrade hversion
  rcases records_upgraded hrecords with ⟨hrecords2, himages⟩
  have hdirect : m.upgrade .upgradeToV3 =
      (m.upgrade .upgradeToV2).upgrade .upgradeToV3 := by
    rw [upgrade_toV2 hversion]
    unfold Metadata.upgrade
    rw [if_pos (by omega)]
    rfl
  rw [hdirect, ← himages]
  rw [upgrade_toV2 hversion] at hupgrade ⊢
  have hlen := (calcLength_eq_iff hupgrade.accepts rfl).mpr hlt
  exact hupgrade.decodesTo
    (by decide : VersionUpgradePolicy.Compatible .upgradeToV3 2) hlen hrecords2

section Paths

variable {debug : RecordRef -> String} {bytes : List UInt8}

theorem RoundTrips.decodesTo (h : RoundTrips B m bytes)
    (hversion : m.version = 1)
    (hrecords : forall rec, rec ∈ records -> VersionRecord 1 m.tsOut rec)
    (policy : VersionUpgradePolicy) :
    DecodesTo B D policy (bytes ++ records.flatten) (m.upgrade policy)
      (records.map (upgradedImage 1 policy m.tsOut)) := by
  have hcompat : policy.Compatible m.version := by
    simp [VersionUpgradePolicy.Compatible, hversion]
  rw [h.accepts.2]
  rw [← hversion] at hrecords ⊢
  exact h.rereads.decodesTo hcompat h.calcLength_eq hrecords

/-- The second path gives the same only for a length that was declared. -/
theorem PathIndependent.metadataLen_lt (h : RoundTrips B m bytes)
    (hversion : m.version = 1)
    (hrecords : forall rec, rec ∈ records -> VersionRecord 1 m.tsOut rec)
    (hpaths : PathIndependent B D debug (bytes ++ records.flatten)) :
    metadataLen symbolCstrLenV2 m < 2 ^ 32 := by
  have haccepts := (h.rereads.upgrade hversion).accepts
  have hfirst := h.decodesTo hversion hrecords
  rcases hpaths with
    ⟨m3, m2, images3, images2, stream2, hdirect, hmid, hencode, hagain⟩
  rw [hdirect.metadata_unique (hfirst .upgradeToV3)] at hagain
  rw [hmid.metadata_unique (hfirst .upgradeToV2)] at hencode
  have hwritten := @RecordEncoder.writes_encodeStream D _ debug _ haccepts
    (images2.map RecordRef.mk) []
  rw [hencode] at hwritten
  cases hwritten
  exact metadataLen_lt_of_decodesTo h.rereads hversion hagain

end Paths

/--
For metadata of version 1 that round-trips and well-formed records of version
1, decoding with an upgrade to version 3 gives what the way over version 2
gives exactly if the metadata of version 2 is shorter than four gigabytes.
-/
theorem upgrade_pathIndependent_iff (B D : Type) [Buffer B] [LawfulBuffer B]
    [CalendarDate D] (debug : RecordRef -> String) {m : Metadata D}
    {bytes : List UInt8} (h : RoundTrips B m bytes)
    (hversion : m.version = 1) {records : List (List UInt8)}
    (hrecords : forall rec, rec ∈ records ->
      VersionRecord 1 m.tsOut rec) :
    PathIndependent B D debug (bytes ++ records.flatten) <->
      metadataLen symbolCstrLenV2 m < 2 ^ 32 := by
  constructor
  · intro hpaths
    exact hpaths.metadataLen_lt h hversion hrecords
  · intro hlt
    have hrereads := h.rereads
    have hfirst := h.decodesTo hversion hrecords
    have hrecords2 : forall rec, rec ∈
        records.map (upgradedImage 1 .upgradeToV2 m.tsOut) ->
        WellFormedRecord (m.upgrade .upgradeToV2).version .upgradeToV3
          (m.upgrade .upgradeToV2).tsOut rec := by
      intro rec hrec
      rw [upgrade_toV2 hversion]
      exact ((records_upgraded hrecords).1 rec hrec).wellFormed _
    exact ⟨_, _, _, _, _, hfirst .upgradeToV3, hfirst .upgradeToV2,
      encodeStream_wellFormed debug (hrereads.upgrade hversion).accepts
        hrecords2,
      hrereads.decodesTo_again hversion hlt hrecords⟩

theorem encodable_sampleMetadataV1 :
    Encodable (sampleMetadata 1 symbolCstrLenV1) := by
  decide +kernel

/-- Metadata of version 1 and a heartbeat. -/
theorem upgrade_pathIndependent_heartbeat :
    PathIndependent VecBuffer GregorianDate (fun _ => "")
      (encodedBytes (sampleMetadata 1 symbolCstrLenV1) ++
        [heartbeatV1].flatten) :=
  (upgrade_pathIndependent_iff VecBuffer GregorianDate (fun _ => "")
    (roundTrips_of_encodable encodable_sampleMetadataV1) rfl
    (by decide)).mpr (by decide)

/-!
### Metadata that becomes too long
-/

/-- Metadata of version 1 with a number of empty symbols. -/
def emptySymbols (n : Nat) : Metadata GregorianDate :=
  { sampleMetadata 1 symbolCstrLenV1 with
    symbols := List.replicate n ⟨[], by decide⟩ }

theorem metadataLen_emptySymbols (len n : Nat) :
    metadataLen len (emptySymbols n) = 132 + (n + 3) * len := by
  have hsum : metadataLen len (emptySymbols n) =
      100 + 4 * 5 + ((List.replicate n (⟨[], by decide⟩ : Str)).length + 0 +
        1) * len + (len + 4 + 1 * (4 * 2 + len) + 0) := rfl
  rw [hsum, List.length_replicate]
  ring

theorem encodable_emptySymbols {n : Nat}
    (h : 140 + (n + 3) * symbolCstrLenV1 < 2 ^ 32) :
    Encodable (emptySymbols n) := by
  have hsample := encodable_sampleMetadataV1
  have hsymbols : forall s, s ∈ (emptySymbols n).symbols ->
      FitsCstr symbolCstrLenV1 s := by
    intro s hs
    rw [List.eq_of_mem_replicate hs]
    decide
  have haccepts : Accepts (emptySymbols n) :=
    { hsample.accepts with
      symbols := fun s hs => (hsymbols s hs).accepts }
  have hlength : (encodedBytes (emptySymbols n)).length < 2 ^ 32 := by
    have hblock := length_blockBytes_eq haccepts
    have hversion : (emptySymbols n).version = 1 := rfl
    rw [neededLen_eq_metadataLen haccepts, calcLength_neededLen haccepts,
      hversion, if_pos (Or.inl (by decide)), if_neg (by decide)] at hblock
    have hlen : metadataLen (emptySymbols n).symbolCstrLen (emptySymbols n) =
        132 + (n + 3) * symbolCstrLenV1 := metadataLen_emptySymbols _ n
    rw [length_encodedBytes]
    omega
  exact { hsample with symbols := hsymbols, length_lt := hlength }

/-- Symbols that take one and a half gigabytes, and then more than four. -/
theorem not_pathIndependent_emptySymbols :
    (emptySymbols (2 ^ 26)).version = 1 ∧
      RoundTrips VecBuffer (emptySymbols (2 ^ 26))
        (encodedBytes (emptySymbols (2 ^ 26))) ∧
      ¬ PathIndependent VecBuffer GregorianDate (fun _ => "")
        (encodedBytes (emptySymbols (2 ^ 26))) := by
  have hround : RoundTrips VecBuffer (emptySymbols (2 ^ 26))
      (encodedBytes (emptySymbols (2 ^ 26))) :=
    roundTrips_of_encodable (encodable_emptySymbols (by decide))
  refine ⟨rfl, hround, ?_⟩
  intro hpaths
  rw [← List.append_nil (encodedBytes _)] at hpaths
  have hlt := PathIndependent.metadataLen_lt hround rfl
    (fun _ hrec => absurd hrec List.not_mem_nil) hpaths
  rw [metadataLen_emptySymbols] at hlt
  exact absurd hlt (by decide)

end DbnFsm
end Dbn
