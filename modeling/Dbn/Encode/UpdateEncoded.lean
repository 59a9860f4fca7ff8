import Dbn.Encode.EncodedMetadata
import Dbn.Lib.Seek

/-!
# Updating encoded metadata

`MetadataEncoder::update_encoded` seeks to the range in encoded metadata and
writes it again.  On the encoding of metadata it leaves the encoding of the
metadata with the new range.
-/

namespace Dbn

/-- The metadata with another range and limit. -/
def Metadata.withRange {D : Type} (m : Metadata D) (start : UInt64)
    (endTs limit : Option NonZeroU64) : Metadata D :=
  { m with start := start, endTs := endTs, limit := limit }

namespace MetadataEncoder

open Lib
open Lib.WriteM (seekFrom Overwrites)

/-- The offset of `start` in encoded metadata. -/
def startOffset : Nat := 8 + metadataDatasetCstrLen + 2

/-- Updates the given metadata properties in an existing DBN buffer. -/
def updateEncoded {W : Type} [Write W] [Seek W] (version : Nat)
    (start : UInt64) (endTs limit : Option NonZeroU64) : Encode W Unit := do
  seekFrom (fun e => Error.io e "seeking to write position")
    (.start startOffset)
  encodeRangeAndCounts version start endTs limit
  seekFrom (fun e => Error.io e "seeking back to end") (.fromEnd 0)

/-!
## The bytes before and after the range
-/

section Pieces

variable {D : Type} {m : Metadata D} {start : UInt64}
  {endTs limit : Option NonZeroU64}

/-- The dataset and the schema. -/
def frontBytes (m : Metadata D) : List UInt8 :=
  cstrBytes metadataDatasetCstrLen m.dataset ++
    leBytes 2 ((m.schema.map Schema.toNat).getD nullSchema)

/-- The fields after the range, and the lists. -/
def backBytes [CalendarDate D] (m : Metadata D) : List UInt8 :=
  stypeBytes m ++ (reservedBytes m ++ (leBytes 4 0 ++
    (listsBytes m ++ List.replicate (calcLength m).2 0)))

theorem blockBytes_eq [CalendarDate D] (m : Metadata D) :
    blockBytes m = frontBytes m ++ (rangeBytes m ++ backBytes m) := by
  unfold blockBytes fixedBytes frontBytes backBytes
  simp only [List.append_assoc]

/-- Only the bytes of the range depend on the range. -/
theorem blockBytes_withRange [CalendarDate D] :
    blockBytes (m.withRange start endTs limit) =
      frontBytes m ++ (rangeBytes (m.withRange start endTs limit) ++
        backBytes m) :=
  blockBytes_eq _

theorem preludeBytes_withRange :
    preludeBytes (m.withRange start endTs limit) = preludeBytes m := rfl

theorem length_preludeBytes (m : Metadata D) :
    (preludeBytes m).length = 8 := by
  unfold preludeBytes
  rw [List.length_append, List.length_append, length_leBytes]
  rfl

theorem length_frontBytes (h : AcceptsCstr metadataDatasetCstrLen m.dataset) :
    (frontBytes m).length = metadataDatasetCstrLen + 2 := by
  unfold frontBytes
  rw [List.length_append, length_cstrBytes h.2, length_leBytes]

/-- The number of bytes of the range depends on the version only. -/
theorem length_rangeBytes (m : Metadata D) :
    (rangeBytes m).length = if m.version = 1 then 32 else 24 := by
  unfold rangeBytes
  simp only [List.length_append, length_leBytes]
  split
  · rfl
  · rfl

theorem length_rangeBytes_withRange :
    (rangeBytes (m.withRange start endTs limit)).length =
      (rangeBytes m).length := by
  rw [length_rangeBytes, length_rangeBytes]
  rfl

theorem length_encodedBytes_withRange [CalendarDate D] :
    (encodedBytes (m.withRange start endTs limit)).length =
      (encodedBytes m).length := by
  unfold encodedBytes
  rw [blockBytes_withRange, blockBytes_eq, preludeBytes_withRange]
  simp only [List.length_append, length_rangeBytes_withRange]

theorem overwrites_encodeRangeAndCounts (m : Metadata D) :
    Overwrites (encodeRangeAndCounts m.version m.start m.endTs m.limit)
      (rangeBytes m) := by
  unfold encodeRangeAndCounts rangeBytes
  apply (Overwrites.writeAll _ _).bind
  apply (Overwrites.writeAll _ _).bind
  apply (Overwrites.writeAll _ _).bind
  split
  · exact Overwrites.writeAll _ _
  · exact Overwrites.pure

/--
Updating encoded metadata leaves the encoding of the metadata with the new
range and all bytes after it, with the position at the end.
-/
theorem updateEncoded_encodedBytes [CalendarDate D]
    (h : AcceptsCstr metadataDatasetCstrLen m.dataset) (rest : List UInt8)
    (position : Nat) :
    updateEncoded m.version start endTs limit
        (⟨encodedBytes m ++ rest, position⟩ : VecCursor) =
      (Res.ok (),
        ⟨encodedBytes (m.withRange start endTs limit) ++ rest,
          (encodedBytes (m.withRange start endTs limit) ++ rest).length⟩) := by
  have hfront : (preludeBytes m ++ frontBytes m).length = startOffset := by
    rw [List.length_append, length_preludeBytes, length_frontBytes h]
    rfl
  have hold : encodedBytes m ++ rest = (preludeBytes m ++ frontBytes m) ++
      (rangeBytes m ++ (backBytes m ++ rest)) := by
    unfold encodedBytes
    rw [blockBytes_eq]
    simp only [List.append_assoc]
  have hnew : encodedBytes (m.withRange start endTs limit) ++ rest =
      (preludeBytes m ++ frontBytes m) ++
        (rangeBytes (m.withRange start endTs limit) ++ (backBytes m ++ rest)) := by
    unfold encodedBytes
    rw [blockBytes_withRange, preludeBytes_withRange]
    simp only [List.append_assoc]
  have hwrite := overwrites_encodeRangeAndCounts
    (m.withRange start endTs limit) (preludeBytes m ++ frontBytes m)
    (rangeBytes m) (backBytes m ++ rest) length_rangeBytes_withRange.symm
  rw [hfront, ← hold, ← hnew] at hwrite
  change encodeRangeAndCounts m.version start endTs limit _ = _ at hwrite
  have hseek : seekFrom (fun e => Error.io e "seeking to write position")
      (.start startOffset) (⟨encodedBytes m ++ rest, position⟩ : VecCursor) =
      (Res.ok (), ⟨encodedBytes m ++ rest, startOffset⟩) := rfl
  unfold updateEncoded
  rw [WriteM.bind_of_ok hseek, WriteM.bind_of_ok hwrite]
  rfl

end Pieces

end MetadataEncoder
end Dbn
