import Dbn.Decode.AnyReader
import Dbn.Decode.DbzMetadata

/-!
# Decoding a legacy file

The DBZ decoder reads the metadata from the frame and the records from what the
Zstandard library makes of the rest.  A file has the same content as a DBN
stream of version 1.
-/

namespace Dbn
namespace Dbz

open Lib
open DbnFsm
open Dbz.MetadataDecoder (ValidHeader dbnBlock legacy)

/-- A legacy file: the frame after its magic number and its size. -/
def dbzFile (magic : Nat) (frame body : List UInt8) : List UInt8 :=
  leBytes 4 magic ++ (leBytes 4 frame.length ++ (frame ++ body))

/-- The stream of version 1 with the content of a legacy file. -/
def dbnStream (frame varBuffer : List UInt8) (records : List (List UInt8)) :
    List UInt8 :=
  dbnPrefix ++ ([1] ++ (leBytes 4 (dbnBlock frame varBuffer).length ++
    (dbnBlock frame varBuffer ++ records.flatten)))

variable {D : Type} [CalendarDate D] {policy : VersionUpgradePolicy}
  {frame varBuffer body : List UInt8} {magic : Nat} {m : Metadata D}

/-!
## The stream of version 1
-/

/-- The block is read from the stream. -/
theorem blockAt_dbnStream (policy : VersionUpgradePolicy)
    (h : fixedMetadataLen ≤ frame.length)
    (hlength : metadataFixedLen + varBuffer.length < 2 ^ 32)
    (hok : decodeMetadataImpl 1 (dbnBlock frame varBuffer) = Res.ok m)
    (records : List (List UInt8)) :
    BlockAt policy (dbnStream frame varBuffer records) 1
      (dbnBlock frame varBuffer).length m := by
  have hblock := MetadataDecoder.length_dbnBlock h varBuffer
  have hdrop : (dbnStream frame varBuffer records).drop metadataPreludeLen =
      dbnBlock frame varBuffer ++ records.flatten := rfl
  have hsize : (dbnStream frame varBuffer records).length =
      metadataPreludeLen + (dbnBlock frame varBuffer).length +
        records.flatten.length := by
    simp only [dbnStream, List.length_append, length_leBytes,
      metadataPreludeLen_eq]
    have hstarts : dbnPrefix.length = 3 := rfl
    rw [hstarts, List.length_singleton]
    omega
  refine ⟨?_, by omega, ?_⟩
  · exact
      { room := by omega
        magic := rfl
        version_eq := rfl
        version_le := by decide
        compatible := fun hcompatible => absurd hcompatible.1 (by decide)
        length_eq := by
          have hfield : uintAt 4 (dbnStream frame varBuffer records) 4 =
              uintAt 4 (leBytes 4 (dbnBlock frame varBuffer).length ++
                (dbnBlock frame varBuffer ++ records.flatten)) 0 := rfl
          rw [hfield, uintAt_leBytes (by omega)]
        length_ge := by omega }
  · intro k hk hmax
    rw [hdrop, List.take_append, List.take_of_length_le hk] at hmax ⊢
    have hle : (dbnBlock frame varBuffer).length ≤
        (dbnBlock frame varBuffer ++ records.flatten.take
          (k - (dbnBlock frame varBuffer).length)).length := by
      rw [List.length_append]
      exact Nat.le_add_right _ _
    apply decodeMetadataImpl_of_take (listsOffset_le_of_ok hok) hle hmax
    rw [List.take_left]
    exact hok

/-!
## The frame
-/

section Read

variable {R : Type} [Read R] {holds : R -> List UInt8 -> Prop}

/-- The frame is read, up to the compressed records. -/
theorem read_dbzFile (newSlice : List UInt8 ->
      Except IoErrorKind (Except IoErrorKind (List UInt8)))
    (hhonest : Honest holds) {r : R}
    (h : holds r (dbzFile magic frame body))
    (hmagic : InSkippableMagicRange magic)
    (hframe : fixedMetadataLen ≤ frame.length)
    (hlength : frame.length < 2 ^ 32) :
    exists r', MetadataDecoder.read (D := D) newSlice r =
      (MetadataDecoder.decode newSlice frame, r') ∧ holds r' body := by
  have htake : (dbzFile magic frame body).take 8 =
      leBytes 4 magic ++ leBytes 4 frame.length := rfl
  have hdrop : (dbzFile magic frame body).drop 8 = frame ++ body := rfl
  have hmagicLt : magic < 256 ^ 4 := Nat.lt_trans hmagic.2 (by decide)
  rcases readExact_honest hhonest h (n := 8) (by
    simp only [dbzFile, List.length_append, length_leBytes]
    omega) with ⟨r1, hprelude, hr1⟩
  rw [hdrop] at hr1
  rcases readExact_honest hhonest hr1 (n := frame.length) (by
    rw [List.length_append]
    omega) with ⟨r2, hread, hr2⟩
  rw [List.take_left] at hread
  rw [List.drop_left] at hr2
  refine ⟨r2, ?_, hr2⟩
  have hfirst : leNat ((leBytes 4 magic ++ leBytes 4 frame.length).take 4) =
      magic := leNat_leBytes_of_lt hmagicLt
  have hsecond : leNat ((leBytes 4 magic ++ leBytes 4 frame.length).drop 4) =
      frame.length := leNat_leBytes_of_lt hlength
  unfold MetadataDecoder.read
  rw [hprelude, htake]
  dsimp only
  rw [hfirst, hsecond, if_neg (not_not.mpr hmagic),
    if_neg (Nat.not_lt.mpr hframe), hread]

end Read

/-!
## The records
-/

section Records

variable {B : Type} [Buffer B] [LawfulBuffer B]

/-- The settings of the machine. -/
def fsmBuilder (policy : VersionUpgradePolicy) : DbnFsmBuilder :=
  { (default : DbnFsmBuilder) with
    inputDbnVersion := some ⟨1, by decide⟩
    tsOut := false
    upgradePolicy := policy
    skipMetadata := true }

/-- The machine is ready for records of version 1. -/
theorem buffers_of_build {fsm : DbnFsm B}
    (hbuild : (fsmBuilder policy).build = Res.ok fsm) (r : ShortReader) :
    Buffers 1 policy false [] r.rest r fsm := by
  have hfsm := DbnFsmBuilder.build_eq_ok hbuild
  refine ⟨⟨?_, inv_build hbuild, ?_, ?_, ?_, ?_⟩, rfl, ?_, ?_⟩
  · rw [hfsm]
    rfl
  · rw [hfsm]
    rfl
  · rw [hfsm]
    rfl
  · rw [hfsm]
    rfl
  · rw [hfsm]
    simp [DbnFsm.data, fsmBuilder]
  · rw [hfsm]
    simp [fsmBuilder]
    exact Nat.le_refl _
  · intro _
    rw [hfsm]
    simp

end Records

section Decoder

variable {R Z B : Type} [Read R] [Zstd R Z] [Buffer B]
  {holds : R -> List UInt8 -> Prop} {holdsZstd : Z -> List UInt8 -> Prop}

theorem decoder_of_dbzFile (policy : VersionUpgradePolicy)
    (hhonest : Honest holds) {r : R}
    (h : holds r (dbzFile magic frame body))
    (hmagic : InSkippableMagicRange magic)
    (hframe : fixedMetadataLen ≤ frame.length)
    (hlength : frame.length < 2 ^ 32)
    (hdecode : MetadataDecoder.decode (Zstd.newSlice R Z) frame = Res.ok m)
    {records : List UInt8}
    (hbody : Zstd.Decompresses holds holdsZstd body records) :
    exists (z : Z) (fsm : DbnFsm B),
      Decoder.withUpgradePolicy r policy =
        Res.ok ⟨z, m.upgrade policy, fsm⟩ ∧
      holdsZstd z records ∧ (fsmBuilder policy).build = Res.ok fsm := by
  rcases read_dbzFile (D := D) (Zstd.newSlice R Z) hhonest h hmagic hframe
    hlength with ⟨r', hread, hr'⟩
  rcases hbody r' hr' with ⟨z, hz, hrecords⟩
  refine ⟨z, _, ?_, hrecords, rfl⟩
  unfold Decoder.withUpgradePolicy
  rw [hread, hdecode]
  have hbuilder : (default : DbnFsmBuilder).withInputDbnVersion (some 1) =
      Res.ok { (default : DbnFsmBuilder) with
        inputDbnVersion := some ⟨1, by decide⟩ } := rfl
  dsimp only
  rw [hbuilder, MetadataDecoder.tsOut_of_decode hframe hdecode, hz]
  rfl

end Decoder

end Dbz
end Dbn
