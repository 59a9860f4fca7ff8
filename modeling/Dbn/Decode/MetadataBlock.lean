import Dbn.Decode.MetadataGrammar

/-!
# Metadata blocks

What `decode_metadata_impl` does with a slice of at least the fixed length: it
reports invalid fixed fields, it panics when the slice ends before
`schema_definition_length`, and otherwise it accepts exactly the well-formed
blocks, whatever follows them.
-/

namespace Dbn
namespace DbnFsm

open Lib
open Lib.Grammar (value seq uint many counted)

/-!
## The fixed fields
-/

/-- The position of the symbology types in the block. -/
def stypeOffset (version : Nat) : Nat :=
  if version = 1 then 50 else 42

/-- An integer field of the block. -/
def uintAt (width : Nat) (block : List UInt8) (pos : Nat) : Nat :=
  leNat ((block.drop pos).take width)

/-- The length of symbols that the block declares. -/
def declaredCstrLen (version : Nat) (block : List UInt8) : Nat :=
  if version = 1 then symbolCstrLenV1 else uintAt 2 block 45

/-- The fields of fixed length hold valid values. -/
structure ValidFixedFields (version : Nat) (block : List UInt8) : Prop where
  dataset : IsUtf8 (block.take metadataDatasetCstrLen)
  schema : uintAt 2 block 16 = nullSchema ∨
    (Schema.tryFrom (uintAt 2 block 16)).isSome
  stypeIn : uintAt 1 block (stypeOffset version) = nullStype ∨
    (SType.tryFrom (uintAt 1 block (stypeOffset version))).isSome
  stypeOut : (SType.tryFrom (uintAt 1 block (stypeOffset version + 1))).isSome

theorem decodeFixedFields_eq {version : Nat} {block : List UInt8}
    (h : metadataFixedLen ≤ block.length) :
    decodeFixedFields version block = (do
      let dataset ← (trimmedUtf8 (block.take metadataDatasetCstrLen)).mapErr
        (fun e => Error.utf8 e "reading dataset from metadata")
      let schema ← decodeSchema block 16
      let stypeIn ← decodeOptSType block (stypeOffset version)
      let stypeOut ← decodeSType block (stypeOffset version + 1)
      Res.ok
        ({ dataset := dataset
           schema := schema
           start := UInt64.ofNat (uintAt 8 block 18)
           endTs := UInt64.ofNat (uintAt 8 block 26)
           limit := NonZeroU64.new (UInt64.ofNat (uintAt 8 block 34))
           stypeIn := stypeIn
           stypeOut := stypeOut
           tsOut := uintAt 1 block (stypeOffset version + 2) != 0
           symbolCstrLen := declaredCstrLen version block },
          metadataFixedLen)) := by
  unfold metadataFixedLen at h
  have hslice : slice (ε := Error) block 0 metadataDatasetCstrLen =
      Res.ok (block.take metadataDatasetCstrLen) :=
    if_pos (by unfold metadataDatasetCstrLen; omega)
  unfold decodeFixedFields
  dsimp only
  rw [hslice, Res.ok_bind]
  by_cases hversion : version = 1
  · subst hversion
    simp (disch := omega) [fromLeSlice_eq, stypeOffset, declaredCstrLen,
      uintAt, metadataDatasetCstrLen]
    rfl
  · simp (disch := omega) [fromLeSlice_eq, stypeOffset, declaredCstrLen,
      uintAt, hversion, metadataDatasetCstrLen]
    rfl

section Fields

variable {block : List UInt8} {pos : Nat}

theorem decodeSchema_ok (h : pos + 2 ≤ block.length)
    (hvalid : uintAt 2 block pos = nullSchema ∨
      (Schema.tryFrom (uintAt 2 block pos)).isSome) :
    exists schema, decodeSchema block pos = Res.ok schema := by
  unfold decodeSchema
  rw [fromLeSlice_eq h, Res.ok_bind]
  by_cases hnull : uintAt 2 block pos = nullSchema
  · exact ⟨none, if_pos hnull⟩
  · obtain ⟨schema, hschema⟩ :=
      Option.isSome_iff_exists.mp (hvalid.resolve_left hnull)
    unfold uintAt at hnull hschema
    rw [if_neg hnull, hschema]
    exact ⟨some schema, rfl⟩

theorem decodeSchema_isErr (h : pos + 2 ≤ block.length)
    (hvalid : ¬ (uintAt 2 block pos = nullSchema ∨
      (Schema.tryFrom (uintAt 2 block pos)).isSome)) :
    (decodeSchema block pos).IsErr := by
  rw [not_or, Option.not_isSome_iff_eq_none] at hvalid
  unfold uintAt at hvalid
  unfold decodeSchema
  rw [fromLeSlice_eq h, Res.ok_bind, if_neg hvalid.1, hvalid.2]
  exact Res.err_isErr _

theorem decodeSType_ok (h : pos + 1 ≤ block.length)
    (hvalid : (SType.tryFrom (uintAt 1 block pos)).isSome) :
    exists stype, decodeSType block pos = Res.ok stype := by
  obtain ⟨stype, hstype⟩ := Option.isSome_iff_exists.mp hvalid
  unfold uintAt at hstype
  unfold decodeSType
  rw [fromLeSlice_eq h, Res.ok_bind, hstype]
  exact ⟨stype, rfl⟩

theorem decodeSType_isErr (h : pos + 1 ≤ block.length)
    (hvalid : ¬ (SType.tryFrom (uintAt 1 block pos)).isSome) :
    (decodeSType block pos).IsErr := by
  rw [Option.not_isSome_iff_eq_none] at hvalid
  unfold uintAt at hvalid
  unfold decodeSType
  rw [fromLeSlice_eq h, Res.ok_bind, hvalid]
  exact Res.err_isErr _

theorem decodeOptSType_ok (h : pos + 1 ≤ block.length)
    (hvalid : uintAt 1 block pos = nullStype ∨
      (SType.tryFrom (uintAt 1 block pos)).isSome) :
    exists stype, decodeOptSType block pos = Res.ok stype := by
  unfold decodeOptSType
  rw [fromLeSlice_eq h, Res.ok_bind]
  by_cases hnull : uintAt 1 block pos = nullStype
  · exact ⟨none, if_pos hnull⟩
  · obtain ⟨stype, hstype⟩ := decodeSType_ok h (hvalid.resolve_left hnull)
    unfold uintAt at hnull
    rw [if_neg hnull, hstype]
    exact ⟨some stype, rfl⟩

theorem decodeOptSType_isErr (h : pos + 1 ≤ block.length)
    (hvalid : ¬ (uintAt 1 block pos = nullStype ∨
      (SType.tryFrom (uintAt 1 block pos)).isSome)) :
    (decodeOptSType block pos).IsErr := by
  rw [not_or] at hvalid
  obtain ⟨e, herr⟩ := decodeSType_isErr h hvalid.2
  have hnull := hvalid.1
  unfold uintAt at hnull
  unfold decodeOptSType
  rw [fromLeSlice_eq h, Res.ok_bind, if_neg hnull, herr]
  exact Res.err_isErr e

end Fields

section FixedFields

variable {version : Nat} {block : List UInt8}

theorem stypeOffset_le (version : Nat) : stypeOffset version ≤ 50 := by
  unfold stypeOffset
  split <;> omega

theorem declaredCstrLen_lt (version : Nat) (block : List UInt8) :
    declaredCstrLen version block < 2 ^ 16 := by
  unfold declaredCstrLen
  split
  · decide
  · exact leNat_take_lt 2 _

theorem decodeFixedFields_ok (h : metadataFixedLen ≤ block.length)
    (hvalid : ValidFixedFields version block) :
    exists fixed, decodeFixedFields version block =
        Res.ok (fixed, metadataFixedLen) ∧
      fixed.symbolCstrLen = declaredCstrLen version block := by
  have hoffset := stypeOffset_le version
  rw [decodeFixedFields_eq h]
  unfold metadataFixedLen at h
  obtain ⟨schema, hschema⟩ := decodeSchema_ok (by omega) hvalid.schema
  obtain ⟨stypeIn, hin⟩ := decodeOptSType_ok (by omega) hvalid.stypeIn
  obtain ⟨stypeOut, hout⟩ := decodeSType_ok (by omega) hvalid.stypeOut
  have hdataset : trimmedUtf8 (block.take metadataDatasetCstrLen) =
      Res.ok (Str.trimEndNul ⟨_, hvalid.dataset⟩) := by
    unfold trimmedUtf8
    rw [Str.fromUtf8_of_valid hvalid.dataset]
  rw [hdataset, hschema, hin, hout]
  exact ⟨_, rfl, rfl⟩

theorem decodeFixedFields_isErr (h : metadataFixedLen ≤ block.length)
    (hvalid : ¬ ValidFixedFields version block) :
    (decodeFixedFields version block).IsErr := by
  have hoffset := stypeOffset_le version
  rw [decodeFixedFields_eq h]
  unfold metadataFixedLen at h
  -- the first invalid field is the one that is reported
  by_cases hdataset : IsUtf8 (block.take metadataDatasetCstrLen)
  swap
  · obtain ⟨e, he⟩ := Str.fromUtf8_of_not_valid hdataset
    unfold trimmedUtf8
    rw [he]
    exact Res.err_isErr _
  have htrim : trimmedUtf8 (block.take metadataDatasetCstrLen) =
      Res.ok (Str.trimEndNul ⟨_, hdataset⟩) := by
    unfold trimmedUtf8
    rw [Str.fromUtf8_of_valid hdataset]
  rw [htrim, Res.mapErr_ok, Res.ok_bind]
  by_cases hschema : uintAt 2 block 16 = nullSchema ∨
      (Schema.tryFrom (uintAt 2 block 16)).isSome
  swap
  · obtain ⟨e, he⟩ := decodeSchema_isErr (by omega) hschema
    rw [he]
    exact Res.err_isErr e
  obtain ⟨schema, hschemaOk⟩ := decodeSchema_ok (by omega) hschema
  rw [hschemaOk, Res.ok_bind]
  by_cases hin : uintAt 1 block (stypeOffset version) = nullStype ∨
      (SType.tryFrom (uintAt 1 block (stypeOffset version))).isSome
  swap
  · obtain ⟨e, he⟩ := decodeOptSType_isErr (by omega) hin
    rw [he]
    exact Res.err_isErr e
  obtain ⟨stypeIn, hinOk⟩ := decodeOptSType_ok (by omega) hin
  rw [hinOk, Res.ok_bind]
  have hout : ¬ (SType.tryFrom
      (uintAt 1 block (stypeOffset version + 1))).isSome :=
    fun hout => hvalid ⟨hdataset, hschema, hin, hout⟩
  obtain ⟨e, he⟩ := decodeSType_isErr (by omega) hout
  rw [he]
  exact Res.err_isErr e

theorem uintAt_append {width pos : Nat} {bytes : List UInt8}
    (h : pos + width ≤ bytes.length) (rest : List UInt8) :
    uintAt width (bytes ++ rest) pos = uintAt width bytes pos := by
  unfold uintAt
  rw [List.drop_append_of_le_length (by omega),
    List.take_append_of_le_length (by rw [List.length_drop]; omega)]

/-- A field in the first bytes of a block. -/
theorem uintAt_take {width pos len : Nat} (h : pos + width ≤ len) :
    uintAt width (block.take len) pos = uintAt width block pos := by
  unfold uintAt
  rw [List.drop_take, List.take_take, Nat.min_eq_left (by omega)]

theorem fromLeSlice_take {width pos len : Nat} (h : pos + width ≤ len)
    (hlen : len ≤ block.length) :
    fromLeSlice width (block.take len) pos = fromLeSlice width block pos := by
  have htake : uintAt width (block.take len) pos = uintAt width block pos :=
    uintAt_take h
  unfold uintAt at htake
  rw [fromLeSlice_eq (by rw [List.length_take]; omega),
    fromLeSlice_eq (by omega), htake]

/-- The fixed fields are read from the first bytes of a block alone. -/
theorem decodeFixedFields_take {len : Nat} (h : metadataFixedLen ≤ len)
    (hlen : len ≤ block.length) :
    decodeFixedFields version (block.take len) =
      decodeFixedFields version block := by
  have hoffset := stypeOffset_le version
  have htake : metadataFixedLen ≤ (block.take len).length := by
    rw [List.length_take]
    omega
  rw [decodeFixedFields_eq htake, decodeFixedFields_eq (by omega)]
  unfold metadataFixedLen at h
  simp (disch := omega) only [decodeSchema, decodeOptSType, decodeSType,
    declaredCstrLen, uintAt_take, fromLeSlice_take, List.take_take,
    metadataDatasetCstrLen, Nat.min_eq_left, List.drop_take]

theorem validFixedFields_take {len : Nat} (h : metadataFixedLen ≤ len) :
    ValidFixedFields version (block.take len) <->
      ValidFixedFields version block := by
  have hoffset := stypeOffset_le version
  unfold metadataFixedLen at h
  have hdataset : (block.take len).take metadataDatasetCstrLen =
      block.take metadataDatasetCstrLen := by
    rw [List.take_take, Nat.min_eq_left (by unfold metadataDatasetCstrLen; omega)]
  have hschema : uintAt 2 (block.take len) 16 = uintAt 2 block 16 :=
    uintAt_take (by omega)
  have hin : uintAt 1 (block.take len) (stypeOffset version) =
      uintAt 1 block (stypeOffset version) := uintAt_take (by omega)
  have hout : uintAt 1 (block.take len) (stypeOffset version + 1) =
      uintAt 1 block (stypeOffset version + 1) := uintAt_take (by omega)
  constructor
  · rintro ⟨h1, h2, h3, h4⟩
    rw [hdataset] at h1
    rw [hschema] at h2
    rw [hin] at h3
    rw [hout] at h4
    exact ⟨h1, h2, h3, h4⟩
  · rintro ⟨h1, h2, h3, h4⟩
    rw [← hdataset] at h1
    rw [← hschema] at h2
    rw [← hin] at h3
    rw [← hout] at h4
    exact ⟨h1, h2, h3, h4⟩

end FixedFields

/-!
## The block
-/

variable {D : Type} [CalendarDate D]

/-- Where the symbol lists start. -/
def listsOffset : Nat := metadataFixedLen + 4

/-- The metadata with the given fields. -/
def metadataOf (version : Nat) (fixed : FixedFields)
    (lists : SymbolLists D) : Metadata D where
  version := version
  dataset := fixed.dataset
  schema := fixed.schema
  start := fixed.start
  endTs :=
    if fixed.endTs.toNat = undefTimestamp then none
    else NonZeroU64.new fixed.endTs
  limit := fixed.limit
  stypeIn := fixed.stypeIn
  stypeOut := fixed.stypeOut
  tsOut := fixed.tsOut
  symbolCstrLen := fixed.symbolCstrLen
  symbols := lists.symbols
  partialSymbols := lists.partialSymbols
  notFound := lists.notFound
  mappings := lists.mappings

/-- The calls that decode the lists. -/
def decodeLists (len : Nat) (buffer : List UInt8) (pos : Nat) :
    Result (SymbolLists D × Nat) := do
  let (symbols, pos) ← decodeMetadataRepeatedSymbolCstr len buffer pos
  let (partialSymbols, pos) ← decodeMetadataRepeatedSymbolCstr len buffer pos
  let (notFound, pos) ← decodeMetadataRepeatedSymbolCstr len buffer pos
  let (mappings, pos) ← decodeMetadataSymbolMappings len buffer pos
  Res.ok (⟨symbols, partialSymbols, notFound, mappings⟩, pos)

theorem recognizes_lists {len : Nat} {buffer : List UInt8} {pos : Nat}
    (hin : InSlice buffer pos) (hlen : len < 2 ^ 16) :
    Recognizes buffer pos (decodeLists (D := D) len buffer pos)
      (listsGrammar len) := by
  have hsymbols : forall {pos}, InSlice buffer pos ->
      Recognizes buffer pos (decodeMetadataRepeatedSymbolCstr len buffer pos)
        (counted (symbolGrammar len)) :=
    fun hin => recognizes_repeatedSymbolCstr hin (by omega)
  have hnext : forall {pos stop} {as : List Str}, InSlice buffer pos ->
      decodeMetadataRepeatedSymbolCstr len buffer pos = Res.ok (as, stop) ->
      InSlice buffer stop := fun hin hok =>
    ⟨hin.length_le, ((hsymbols hin).stop_le hin.pos_le hok).2⟩
  unfold decodeLists listsGrammar
  refine (hsymbols hin).bind (fun symbols pos1 hok1 => ?_)
  have hin1 := hnext hin hok1
  refine (hsymbols hin1).bind (fun partialSymbols pos2 hok2 => ?_)
  have hin2 := hnext hin1 hok2
  refine (hsymbols hin2).bind (fun notFound pos3 hok3 => ?_)
  have hin3 := hnext hin2 hok3
  refine (recognizes_symbolMappings hin3 hlen).bind ?_
  intro mappings stop _
  exact Recognizes.ok buffer stop _

theorem decodeMetadataImpl_eq (version : Nat) (buffer : List UInt8) :
    decodeMetadataImpl version buffer = (do
      let (fixed, pos) ← decodeFixedFields version buffer
      let schemaDefinitionLength ← fromLeSlice 4 buffer pos
      if schemaDefinitionLength ≠ 0 then
        Res.err (Error.decode
          "this version of dbn can't parse schema definitions")
      else
        let (lists, _) ← decodeLists fixed.symbolCstrLen buffer
          (pos + 4 + schemaDefinitionLength)
        Res.ok (metadataOf (D := D) version fixed lists)) := by
  unfold decodeMetadataImpl decodeLists
  simp only [Res.bind_assoc, Res.ok_bind]
  rfl

section Block

variable {version : Nat} {buffer : List UInt8}

omit [CalendarDate D] in
/-- The cursor is behind the fixed fields, whatever the length of the slice. -/
theorem pos_of_decodeFixedFields {fixed : FixedFields} {pos : Nat}
    (h : decodeFixedFields version buffer = Res.ok (fixed, pos)) :
    pos = metadataFixedLen := by
  unfold decodeFixedFields at h
  dsimp only at h
  rcases Res.bind_eq_ok.mp h with ⟨_, _, h⟩
  rcases Res.bind_eq_ok.mp h with ⟨_, _, h⟩
  rcases Res.bind_eq_ok.mp h with ⟨_, _, h⟩
  rcases Res.bind_eq_ok.mp h with ⟨_, _, h⟩
  rcases Res.bind_eq_ok.mp h with ⟨_, _, h⟩
  rcases Res.bind_eq_ok.mp h with ⟨_, _, h⟩
  rcases Res.bind_eq_ok.mp h with ⟨_, _, h⟩
  rcases Res.bind_eq_ok.mp h with ⟨_, _, h⟩
  by_cases hversion : version = 1
  · rw [if_pos hversion, if_pos hversion, if_pos hversion] at h
    rcases Res.bind_eq_ok.mp h with ⟨_, _, h⟩
    rw [if_pos hversion] at h
    rcases Res.bind_eq_ok.mp h with ⟨_, _, h⟩
    cases h
    rfl
  · rw [if_neg hversion, if_neg hversion, if_neg hversion] at h
    rcases Res.bind_eq_ok.mp h with ⟨_, _, h⟩
    rw [if_neg hversion] at h
    rcases Res.bind_eq_ok.mp h with ⟨_, _, h⟩
    cases h
    rfl

theorem listsOffset_le_of_ok {m : Metadata D}
    (h : decodeMetadataImpl version buffer = Res.ok m) :
    listsOffset ≤ buffer.length := by
  unfold decodeMetadataImpl at h
  rcases Res.bind_eq_ok.mp h with ⟨⟨fixed, pos⟩, hfixed, h⟩
  rcases Res.bind_eq_ok.mp h with ⟨_, hread, _⟩
  rw [pos_of_decodeFixedFields hfixed] at hread
  by_contra hshort
  have hslice : fromLeSlice 4 buffer metadataFixedLen =
      Res.panic Panic.outOfBounds := if_neg hshort
  rw [hslice] at hread
  cases hread

theorem version_of_decodeMetadataImpl {m : Metadata D}
    (h : decodeMetadataImpl version buffer = Res.ok m) :
    m.version = version := by
  unfold decodeMetadataImpl at h
  rcases Res.bind_eq_ok.mp h with ⟨_, _, h⟩
  rcases Res.bind_eq_ok.mp h with ⟨_, _, h⟩
  split at h
  · cases h
  rcases Res.bind_eq_ok.mp h with ⟨_, _, h⟩
  rcases Res.bind_eq_ok.mp h with ⟨_, _, h⟩
  rcases Res.bind_eq_ok.mp h with ⟨_, _, h⟩
  rcases Res.bind_eq_ok.mp h with ⟨_, _, h⟩
  cases h
  rfl

theorem decodeMetadataImpl_isErr_of_invalid
    (h : metadataFixedLen ≤ buffer.length)
    (hvalid : ¬ ValidFixedFields version buffer) :
    (decodeMetadataImpl version buffer : Result (Metadata D)).IsErr := by
  obtain ⟨e, he⟩ := decodeFixedFields_isErr h hvalid
  rw [decodeMetadataImpl_eq, he]
  exact Res.err_isErr e

/-- Valid fixed fields at the end of a slice make the decoder panic. -/
theorem decodeMetadataImpl_of_short
    (h : metadataFixedLen ≤ buffer.length)
    (hvalid : ValidFixedFields version buffer)
    (hshort : buffer.length < listsOffset) :
    decodeMetadataImpl (D := D) version buffer =
      Res.panic Panic.outOfBounds := by
  obtain ⟨fixed, hfixed, _⟩ := decodeFixedFields_ok h hvalid
  have hslice : fromLeSlice 4 buffer metadataFixedLen =
      Res.panic Panic.outOfBounds :=
    if_neg (by unfold listsOffset at hshort; omega)
  rw [decodeMetadataImpl_eq, hfixed, Res.ok_bind]
  dsimp only
  rw [hslice, Res.panic_bind]

/-- A slice with room for all of the fixed part. -/
theorem decodeMetadataImpl_of_valid (h : listsOffset ≤ buffer.length)
    (hvalid : ValidFixedFields version buffer) :
    exists fixed, decodeFixedFields version buffer =
        Res.ok (fixed, metadataFixedLen) ∧
      fixed.symbolCstrLen = declaredCstrLen version buffer ∧
      decodeMetadataImpl (D := D) version buffer =
        if uintAt 4 buffer metadataFixedLen ≠ 0 then
          Res.err (Error.decode
            "this version of dbn can't parse schema definitions")
        else
          decodeLists fixed.symbolCstrLen buffer listsOffset >>= fun lists =>
            Res.ok (metadataOf version fixed lists.1) := by
  have hfixedLen : metadataFixedLen ≤ buffer.length :=
    Nat.le_trans (Nat.le_add_right _ _) h
  obtain ⟨fixed, hfixed, hlen⟩ := decodeFixedFields_ok hfixedLen hvalid
  refine ⟨fixed, hfixed, hlen, ?_⟩
  rw [decodeMetadataImpl_eq, hfixed, Res.ok_bind]
  dsimp only
  rw [fromLeSlice_eq h, Res.ok_bind]
  unfold uintAt
  by_cases hzero : leNat ((buffer.drop metadataFixedLen).take 4) = 0
  · rw [if_neg (not_not.mpr hzero), if_neg (not_not.mpr hzero), hzero]
    rfl
  · rw [if_pos hzero, if_pos hzero]

/-- The values that the decoder reads from a slice. -/
theorem decodeMetadataImpl_eq_ok_iff (h : listsOffset ≤ buffer.length)
    (hmax : buffer.length ≤ isizeMax) {m : Metadata D} :
    decodeMetadataImpl version buffer = Res.ok m <->
      exists fixed piece lists,
        decodeFixedFields version buffer = Res.ok (fixed, metadataFixedLen) ∧
        uintAt 4 buffer metadataFixedLen = 0 ∧
        piece <+: buffer.drop listsOffset ∧
        listsGrammar (declaredCstrLen version buffer) piece lists ∧
        m = metadataOf version fixed lists := by
  have hfixedLen : metadataFixedLen ≤ buffer.length :=
    Nat.le_trans (Nat.le_add_right _ _) h
  by_cases hvalid : ValidFixedFields version buffer
  · obtain ⟨fixed, hfixed, hlen, himpl⟩ :=
      decodeMetadataImpl_of_valid (D := D) h hvalid
    have hlists : Recognizes buffer listsOffset
        (decodeLists (D := D) fixed.symbolCstrLen buffer listsOffset)
        (listsGrammar fixed.symbolCstrLen) :=
      recognizes_lists ⟨hmax, h⟩ (hlen ▸ declaredCstrLen_lt version buffer)
    rw [himpl]
    constructor
    · intro hok
      split_ifs at hok with hzero
      obtain ⟨⟨lists, stop⟩, hdecode, heq⟩ := Res.bind_eq_ok.mp hok
      cases heq
      obtain ⟨piece, hpiece, hgrammar, _⟩ :=
        (hlists.accepts lists stop).mp hdecode
      exact ⟨fixed, piece, lists, hfixed, not_not.mp hzero, hpiece,
        hlen ▸ hgrammar, rfl⟩
    · rintro ⟨fixed', piece, lists, hfixed', hzero, hpiece, hgrammar, rfl⟩
      rw [hfixed] at hfixed'
      cases hfixed'
      rw [if_neg (not_not.mpr hzero)]
      have hdecode := (hlists.accepts lists _).mpr
        ⟨piece, hpiece, hlen ▸ hgrammar, rfl⟩
      rw [hdecode]
      rfl
  · obtain ⟨e, he⟩ :=
      decodeMetadataImpl_isErr_of_invalid (D := D) hfixedLen hvalid
    obtain ⟨e', he'⟩ := decodeFixedFields_isErr hfixedLen hvalid
    constructor
    · intro hok
      rw [he] at hok
      cases hok
    · rintro ⟨fixed, _, _, hfixed, _⟩
      rw [he'] at hfixed
      cases hfixed

/-- The decoder panics only for want of `schema_definition_length`. -/
theorem decodeMetadataImpl_isPanic_iff (h : metadataFixedLen ≤ buffer.length)
    (hmax : buffer.length ≤ isizeMax) :
    (decodeMetadataImpl version buffer : Result (Metadata D)).IsPanic <->
      ValidFixedFields version buffer ∧ buffer.length < listsOffset := by
  constructor
  · intro hpanic
    have hvalid : ValidFixedFields version buffer := by
      by_contra hvalid
      obtain ⟨e, he⟩ := decodeMetadataImpl_isErr_of_invalid (D := D) h hvalid
      rw [he] at hpanic
      exact Res.err_not_isPanic e hpanic
    refine ⟨hvalid, ?_⟩
    by_contra hlong
    obtain ⟨fixed, _, hlen, himpl⟩ :=
      decodeMetadataImpl_of_valid (D := D) (Nat.not_lt.mp hlong) hvalid
    rw [himpl] at hpanic
    split_ifs at hpanic
    · exact Res.err_not_isPanic _ hpanic
    · rw [Res.bind_isPanic] at hpanic
      rcases hpanic with hpanic | ⟨_, _, hpanic⟩
      · have hlists := recognizes_lists (D := D) ⟨hmax, Nat.not_lt.mp hlong⟩
          (hlen ▸ declaredCstrLen_lt version buffer)
        exact hlists.safe hpanic
      · exact Res.ok_not_isPanic _ hpanic
  · rintro ⟨hvalid, hshort⟩
    exact ⟨_, decodeMetadataImpl_of_short h hvalid hshort⟩

end Block

/-!
## Well-formed blocks and cut buffers
-/

/-- The bytes of a buffer up to `stop` are a metadata block. -/
structure WellFormedBlock (D : Type) [CalendarDate D] (version : Nat)
    (buffer : List UInt8) (stop : Nat) : Prop where
  fixed : ValidFixedFields version buffer
  room : listsOffset ≤ buffer.length
  schemaDefinition : uintAt 4 buffer metadataFixedLen = 0
  lists : exists piece, exists lists : SymbolLists D,
    piece <+: buffer.drop listsOffset ∧
      listsGrammar (declaredCstrLen version buffer) piece lists ∧
      stop = listsOffset + piece.length

section Cut

variable {version len : Nat} {buffer : List UInt8}

theorem decodeMetadataImpl_ok_iff_wellFormedBlock
    (h : listsOffset ≤ buffer.length) (hmax : buffer.length ≤ isizeMax) :
    (exists m : Metadata D, decodeMetadataImpl version buffer = Res.ok m) <->
      exists stop, WellFormedBlock D version buffer stop := by
  have hfixedLen : metadataFixedLen ≤ buffer.length :=
    Nat.le_trans (Nat.le_add_right _ _) h
  constructor
  · rintro ⟨m, hok⟩
    obtain ⟨fixed, piece, lists, hfixed, hzero, hpiece, hgrammar, _⟩ :=
      (decodeMetadataImpl_eq_ok_iff h hmax).mp hok
    refine ⟨_, ?_, h, hzero, piece, lists, hpiece, hgrammar, rfl⟩
    by_contra hvalid
    obtain ⟨e, he⟩ := decodeFixedFields_isErr hfixedLen hvalid
    rw [he] at hfixed
    cases hfixed
  · rintro ⟨stop, hvalid, _, hzero, piece, lists, hpiece, hgrammar, _⟩
    obtain ⟨fixed, hfixed, _⟩ := decodeFixedFields_ok hfixedLen hvalid
    exact ⟨_, (decodeMetadataImpl_eq_ok_iff h hmax).mpr
      ⟨fixed, piece, lists, hfixed, hzero, hpiece, hgrammar, rfl⟩⟩

theorem declaredCstrLen_take (h : metadataFixedLen ≤ len) :
    declaredCstrLen version (buffer.take len) =
      declaredCstrLen version buffer := by
  unfold metadataFixedLen at h
  unfold declaredCstrLen
  rw [uintAt_take (by omega)]

/-- A block that ends in the cut buffer is decoded from it. -/
theorem decodeMetadataImpl_take (h : listsOffset ≤ len)
    (hlen : len ≤ buffer.length) (hmax : buffer.length ≤ isizeMax)
    {m : Metadata D} :
    decodeMetadataImpl version (buffer.take len) = Res.ok m <->
      exists fixed piece lists,
        decodeFixedFields version buffer = Res.ok (fixed, metadataFixedLen) ∧
        uintAt 4 buffer metadataFixedLen = 0 ∧
        piece <+: buffer.drop listsOffset ∧
        listsOffset + piece.length ≤ len ∧
        listsGrammar (declaredCstrLen version buffer) piece lists ∧
        m = metadataOf version fixed lists := by
  have hfixedLen : metadataFixedLen ≤ len :=
    Nat.le_trans (Nat.le_add_right _ _) h
  have htake : (buffer.take len).length = len := by
    rw [List.length_take, Nat.min_eq_left hlen]
  rw [decodeMetadataImpl_eq_ok_iff (by omega) (by omega),
    decodeFixedFields_take hfixedLen hlen, declaredCstrLen_take hfixedLen,
    uintAt_take (show metadataFixedLen + 4 ≤ len from h)]
  simp only [prefix_drop_take h, and_assoc]

theorem decodeMetadataImpl_of_take (h : listsOffset ≤ len)
    (hlen : len ≤ buffer.length) (hmax : buffer.length ≤ isizeMax)
    {m : Metadata D}
    (hok : decodeMetadataImpl version (buffer.take len) = Res.ok m) :
    decodeMetadataImpl version buffer = Res.ok m := by
  obtain ⟨fixed, piece, lists, hfixed, hzero, hpiece, _, hgrammar, hm⟩ :=
    (decodeMetadataImpl_take h hlen hmax).mp hok
  exact (decodeMetadataImpl_eq_ok_iff (by omega) hmax).mpr
    ⟨fixed, piece, lists, hfixed, hzero, hpiece, hgrammar, hm⟩

theorem wellFormedBlock_take (h : listsOffset ≤ len)
    (hlen : len ≤ buffer.length) {stop : Nat} :
    WellFormedBlock D version (buffer.take len) stop <->
      WellFormedBlock D version buffer stop ∧ stop ≤ len := by
  have hfixedLen : metadataFixedLen ≤ len :=
    Nat.le_trans (Nat.le_add_right _ _) h
  have hcstr : declaredCstrLen version (buffer.take len) =
      declaredCstrLen version buffer := declaredCstrLen_take hfixedLen
  have hzero : uintAt 4 (buffer.take len) metadataFixedLen =
      uintAt 4 buffer metadataFixedLen := uintAt_take h
  constructor
  · rintro ⟨hvalid, _, hschema, piece, lists, hpiece, hgrammar, rfl⟩
    obtain ⟨hpiece', hstop⟩ := (prefix_drop_take h).mp hpiece
    exact ⟨⟨(validFixedFields_take hfixedLen).mp hvalid, by omega,
      hzero ▸ hschema, piece, lists, hpiece', hcstr ▸ hgrammar, rfl⟩, hstop⟩
  · rintro ⟨⟨hvalid, _, hschema, piece, lists, hpiece, hgrammar, rfl⟩, hstop⟩
    exact ⟨(validFixedFields_take hfixedLen).mpr hvalid,
      by rw [List.length_take]; omega, hzero.symm ▸ hschema, piece, lists,
      (prefix_drop_take h).mpr ⟨hpiece, hstop⟩, hcstr.symm ▸ hgrammar, rfl⟩

/-- A block has one end. -/
theorem WellFormedBlock.stop_unique {stop stop' : Nat}
    (hmax : buffer.length ≤ isizeMax)
    (h : WellFormedBlock D version buffer stop)
    (h' : WellFormedBlock D version buffer stop') : stop = stop' := by
  obtain ⟨piece, lists, hpiece, hgrammar, hstop⟩ := h.lists
  obtain ⟨piece', lists', hpiece', hgrammar', hstop'⟩ := h'.lists
  have hrec := recognizes_lists (D := D) ⟨hmax, h.room⟩
    (declaredCstrLen_lt version buffer)
  have hok := (hrec.accepts lists stop).mpr ⟨piece, hpiece, hgrammar, hstop⟩
  have hok' := (hrec.accepts lists' stop').mpr
    ⟨piece', hpiece', hgrammar', hstop'⟩
  rw [hok] at hok'
  cases hok'
  rfl

end Cut

end DbnFsm
end Dbn
