import Dbn.Decode.MetadataRoundTrip

/-!
# The declared length of metadata

Whatever metadata the encoder accepts, what it has written is known.  The
length that it declares is the number of bytes after the prelude for the
versions of DBN; metadata of version 0, which comes from DBZ files, is written
with the padding of later versions but without their length of symbols.
-/

namespace Dbn
namespace MetadataEncoder

open Lib
open Lib.WriteM (Emits emits_writeAll emits_forEach emits_pure emits_fail
  emits_panic)
open DbnFsm (uintAt)

variable {W D : Type} [LoggedWrite W] [CalendarDate D]

/-!
## What the encoder has written
-/

section Emits

variable {len : Nat}

theorem emits_encodeFixedLenCstr (len : Nat) (s : Str) :
    Emits (encodeFixedLenCstr len s : Encode W Unit) (AcceptsCstr len s)
      (cstrBytes len s) := by
  unfold encodeFixedLenCstr AcceptsCstr cstrBytes
  by_cases hascii : s.isAscii = false
  · rw [if_pos hascii]
    exact (emits_fail _).mono False.elim
  by_cases hlong : s.len ≥ len
  · rw [if_neg hascii, if_pos hlong]
    split
    · exact (emits_panic _).mono False.elim
    · exact (emits_fail _).mono False.elim
  · rw [if_neg hascii, if_neg hlong, ← flatMap_replicate_nul]
    apply ((emits_writeAll _ _).andThen
      (emits_forEach (fun _ => emits_writeAll _ _))).mono
    intro _
    exact ⟨Bool.eq_true_of_not_eq_false hascii, Nat.not_le.mp hlong⟩

theorem emits_encodeRepeatedSymbolCstr (len : Nat) (symbols : List Str) :
    Emits (encodeRepeatedSymbolCstr len symbols : Encode W Unit)
      (forall s, s ∈ symbols -> AcceptsCstr len s)
      (countedBytes (cstrBytes len) symbols) :=
  (emits_writeAll _ _).andThen (emits_forEach (emits_encodeFixedLenCstr len))

theorem emits_encodeMappingInterval (len : Nat)
    (interval : MappingInterval D) :
    Emits (encodeMappingInterval len interval : Encode W Unit)
      (AcceptsCstr len interval.symbol) (intervalBytes len interval) :=
  (emits_writeAll _ _).andThen
    ((emits_writeAll _ _).andThen (emits_encodeFixedLenCstr len _))

theorem emits_encodeSymbolMapping (len : Nat) (mapping : SymbolMapping D) :
    Emits (encodeSymbolMapping len mapping : Encode W Unit)
      (AcceptsMapping len mapping) (mappingBytes len mapping) :=
  (emits_encodeFixedLenCstr len _).bind
    ((emits_writeAll _ _).andThen
      (emits_forEach (emits_encodeMappingInterval len)))

theorem emits_encodeSymbolMappings (len : Nat)
    (mappings : List (SymbolMapping D)) :
    Emits (encodeSymbolMappings len mappings : Encode W Unit)
      (forall mapping, mapping ∈ mappings -> AcceptsMapping len mapping)
      (countedBytes (mappingBytes len) mappings) :=
  (emits_writeAll _ _).andThen (emits_forEach (emits_encodeSymbolMapping len))

omit [CalendarDate D] in
theorem emits_encodeRangeAndCounts (m : Metadata D) :
    Emits (encodeRangeAndCounts m.version m.start m.endTs m.limit :
      Encode W Unit) True (rangeBytes m) := by
  unfold encodeRangeAndCounts rangeBytes
  apply (emits_writeAll _ _).andThen
  apply (emits_writeAll _ _).andThen
  apply (emits_writeAll _ _).andThen
  split
  · exact emits_writeAll _ _
  · exact emits_pure

theorem emits_padding (n : Nat) :
    Emits (if n > 0 then WriteM.writeAll metadataErr (List.replicate n 0)
      else pure () : Encode W Unit) True (List.replicate n 0) := by
  split
  · exact emits_writeAll _ _
  · next hzero =>
      rw [Nat.eq_zero_of_not_pos hzero]
      exact emits_pure

/-- An encoder that succeeds has accepted the metadata and written it. -/
theorem emits_encode (m : Metadata D) :
    Emits (encode m : Encode W Unit) (Accepts m) (encodedBytes m) := by
  unfold encode encodedBytes preludeBytes blockBytes fixedBytes reservedBytes
    listsBytes
  simp only [List.append_assoc]
  apply (emits_writeAll _ _).andThen
  by_cases hversion : m.version > dbnVersion
  · rw [if_pos hversion]
    exact (emits_fail _).mono False.elim
  rw [if_neg hversion]
  have haccepts : AcceptsCstr metadataDatasetCstrLen m.dataset ∧
      (forall s, s ∈ m.symbols -> AcceptsCstr m.symbolCstrLen s) ∧
      (forall s, s ∈ m.partialSymbols -> AcceptsCstr m.symbolCstrLen s) ∧
      (forall s, s ∈ m.notFound -> AcceptsCstr m.symbolCstrLen s) ∧
      (forall mapping, mapping ∈ m.mappings ->
        AcceptsMapping m.symbolCstrLen mapping) ∧ True -> Accepts m := by
    intro h
    rcases h with ⟨hdataset, hsymbols, hpartial, hnotFound, hmappings, _⟩
    exact ⟨Nat.not_lt.mp hversion, hdataset, hsymbols, hpartial, hnotFound,
      hmappings⟩
  apply Emits.mono _ haccepts
  apply (emits_writeAll _ _).andThen
  apply (emits_writeAll _ _).andThen
  apply (emits_encodeFixedLenCstr _ _).bind
  apply (emits_writeAll _ _).andThen
  apply (emits_encodeRangeAndCounts m).andThen
  apply (emits_writeAll _ _).andThen
  apply (emits_writeAll _ _).optional
  apply (emits_writeAll _ _).andThen
  apply (emits_writeAll _ _).andThen
  apply (emits_encodeRepeatedSymbolCstr _ _).bind
  apply (emits_encodeRepeatedSymbolCstr _ _).bind
  apply (emits_encodeRepeatedSymbolCstr _ _).bind
  exact (emits_encodeSymbolMappings _ _).bind (emits_padding _)

end Emits

/-!
## The declared length
-/

omit [CalendarDate D] in
/-- In version 3 the declared length keeps the alignment of records. -/
theorem dvd_calcLength {m : Metadata D} (h : m.version = 3) :
    8 ∣ (calcLength m).1 := by
  unfold calcLength
  dsimp only
  split
  · next hround =>
      rcases hround with hversion | hrem
      · omega
      · exact Nat.dvd_of_mod_eq_zero hrem
  · apply Nat.dvd_of_mod_eq_zero
    omega

/-- The length field is at offset four. -/
theorem uintAt_encodedBytes (m : Metadata D) :
    uintAt 4 (encodedBytes m) 4 = (calcLength m).1 := by
  have hdrop : (encodedBytes m).drop 4 =
      leBytes 4 (calcLength m).1 ++ blockBytes m := rfl
  unfold uintAt
  rw [hdrop, List.take_left' (length_leBytes 4 _)]
  exact leNat_leBytes_of_lt (calcLength_lt m)

/--
For metadata that the encoder accepts, the number of bytes that it has written
is that of the prelude and the declared length, and a multiple of eight in
version 3, exactly if the version is not 0.
-/
theorem encode_length_iff {m : Metadata D} {w w' : W}
    (h : encode m w = (Res.ok (), w')) :
    exists bytes,
      LoggedWrite.written w' = LoggedWrite.written w ++ bytes ∧
      (bytes.length < 2 ^ 32 ->
        (bytes.length = 8 + uintAt 4 bytes 4 ∧
            (m.version = 3 -> 8 ∣ bytes.length) <->
          m.version ≠ 0)) := by
  rcases emits_encode m w w' h with ⟨haccepts, hwritten⟩
  refine ⟨encodedBytes m, hwritten, ?_⟩
  intro hlt
  have hblock := length_blockBytes_eq haccepts
  rw [uintAt_encodedBytes, length_encodedBytes] at *
  have hneeded : neededLen m + (calcLength m).2 < 2 ^ 32 := by
    split at hblock <;> omega
  rw [← calcLength_eq_neededLen haccepts hneeded] at hblock
  by_cases hzero : m.version = 0
  · rw [if_pos hzero] at hblock
    constructor
    · intro hexact
      omega
    · intro hversion
      exact absurd hzero hversion
  · rw [if_neg hzero, Nat.add_zero] at hblock
    rw [hblock]
    constructor
    · intro _
      exact hzero
    · intro _
      refine ⟨rfl, ?_⟩
      intro hversion
      exact Nat.dvd_add (Nat.dvd_refl 8) (dvd_calcLength hversion)

theorem encode_length_iff_sample :
    exists bytes, encode (DbnFsm.sampleMetadata 3 71) ([] : List UInt8) =
        (Res.ok (), bytes) ∧ bytes.length = 8 + uintAt 4 bytes 4 ∧
      8 ∣ bytes.length := by
  have hencode :=
    writes_encode DbnFsm.encodable_sampleMetadata.accepts []
  rcases encode_length_iff hencode with ⟨bytes, hwritten, hiff⟩
  have hbytes : bytes = encodedBytes (DbnFsm.sampleMetadata 3 71) :=
    hwritten.symm
  have hlt : bytes.length < 2 ^ 32 := by
    rw [hbytes]
    exact DbnFsm.encodable_sampleMetadata.length_lt
  have hexact := (hiff hlt).mpr (by decide)
  exact ⟨bytes, by rw [hencode, hbytes]; rfl, hexact.1, hexact.2 rfl⟩

/-- Metadata of a DBZ file that is not upgraded. -/
theorem encode_length_ne_sample :
    exists bytes, encode (DbnFsm.sampleMetadata 0 symbolCstrLenV1)
        ([] : List UInt8) = (Res.ok (), bytes) ∧ bytes.length < 2 ^ 32 ∧
      bytes.length ≠ 8 + uintAt 4 bytes 4 :=
  ⟨_, rfl, by decide +kernel, by decide +kernel⟩

end MetadataEncoder
end Dbn
