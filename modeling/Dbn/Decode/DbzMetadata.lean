import Dbn.Decode.Dbz
import Dbn.Decode.MetadataRoundTrip

/-!
# DBZ metadata as DBN metadata of version 1

The variable part of a DBZ frame, decompressed, has the format of the end of a
DBN block of version 1, and the decoders of both differ in the texts of their
errors.  The fields of fixed length are the same up to one byte.
-/

namespace Dbn
namespace Dbz
namespace MetadataDecoder

open Lib
open DbnFsm (fromLeSlice slice uintAt SymbolLists decodeLists decodeMetadataImpl
  InSlice)

variable {D : Type} [CalendarDate D]

/-!
## The variable part
-/

theorem forget_decodeRepeatedSymbolCstr (buffer : List UInt8) (pos : Nat) :
    (decodeRepeatedSymbolCstr buffer pos).forget =
      (DbnFsm.decodeMetadataRepeatedSymbolCstr symbolCstrLenV1 buffer
        pos).forget := by
  unfold decodeRepeatedSymbolCstr DbnFsm.decodeMetadataRepeatedSymbolCstr
  simp only [Res.forget_bind, apply_ite Res.forget, Res.forget_err]

theorem forget_decodeIntervalDate (which : String) (idx i : Nat)
    (buffer : List UInt8) (pos : Nat) :
    (decodeIntervalDate (D := D) i buffer pos).forget =
      (DbnFsm.decodeIntervalDate which idx i buffer pos).forget := by
  unfold decodeIntervalDate DbnFsm.decodeIntervalDate
  simp only [Res.forget_bind, Res.forget_mapErr]

theorem forget_decodeIntervalLoop (idx : Nat) (buffer : List UInt8)
    (count i pos : Nat) :
    (decodeIntervalLoop (D := D) buffer count i pos).forget =
      (DbnFsm.decodeIntervalLoop symbolCstrLenV1 idx buffer count i
        pos).forget := by
  induction count generalizing i pos with
  | zero => rfl
  | succ count ih =>
      unfold decodeIntervalLoop DbnFsm.decodeIntervalLoop
      simp only [Res.forget_bind, Res.forget_mapErr, ih,
        forget_decodeIntervalDate "start" idx]
      simp only [← forget_decodeIntervalDate "end" idx i,
        forget_decodeIntervalDate "start" idx]

theorem forget_decodeSymbolMapping (idx : Nat) (buffer : List UInt8)
    (pos : Nat) :
    (decodeSymbolMapping (D := D) buffer pos).forget =
      (DbnFsm.decodeMetadataSymbolMapping symbolCstrLenV1 idx buffer
        pos).forget := by
  unfold decodeSymbolMapping DbnFsm.decodeMetadataSymbolMapping
  simp only [Res.forget_bind, Res.forget_mapErr, apply_ite Res.forget,
    Res.forget_err, forget_decodeIntervalLoop idx]

theorem forget_decodeMappingLoop (buffer : List UInt8) (count i pos : Nat) :
    (decodeMappingLoop (D := D) buffer count pos).forget =
      (DbnFsm.decodeMappingLoop symbolCstrLenV1 buffer count i pos).forget := by
  induction count generalizing i pos with
  | zero => rfl
  | succ count ih =>
      unfold decodeMappingLoop DbnFsm.decodeMappingLoop
      simp only [Res.forget_bind, forget_decodeSymbolMapping i, ih (i + 1)]

theorem forget_decodeSymbolMappings (buffer : List UInt8) (pos : Nat) :
    (decodeSymbolMappings (D := D) buffer pos).forget =
      (DbnFsm.decodeMetadataSymbolMappings symbolCstrLenV1 buffer
        pos).forget := by
  unfold decodeSymbolMappings DbnFsm.decodeMetadataSymbolMappings
  simp only [Res.forget_bind, apply_ite Res.forget, Res.forget_err,
    forget_decodeMappingLoop buffer _ 0]

/-- The lists are decoded as the state machine does. -/
theorem forget_decodeVariable (varBuffer : List UInt8) :
    (decodeVariable (D := D) varBuffer).forget =
      (fromLeSlice 4 varBuffer 0 >>= fun schemaDefinitionLength =>
        if schemaDefinitionLength ≠ 0 then
          Res.err (Error.decode "DBZ doesn't support schema definitions")
        else
          decodeLists symbolCstrLenV1 varBuffer (4 + schemaDefinitionLength)
            >>= fun out => Res.ok out.1).forget := by
  unfold decodeVariable decodeLists
  simp only [Res.bind_assoc, Res.ok_bind, Res.forget_bind,
    apply_ite Res.forget, Res.forget_err, forget_decodeRepeatedSymbolCstr,
    forget_decodeSymbolMappings]

/-!
## The fields of fixed length
-/

/-- The header and the fields that DBN of version 1 does not have or check. -/
structure ValidHeader (frame : List UInt8) : Prop where
  magic : frame.take dbzPrefix.length = dbzPrefix
  version : uintAt 1 frame 3 ≤ schemaVersion
  schema : uintAt 2 frame 20 ≠ nullSchema
  compression : (Cli.Compression.tryFrom (uintAt 1 frame 54)).isSome
  stypeIn : uintAt 1 frame 55 ≠ nullStype

/--
The block of version 1 with the content of a frame: without the header and the
compression, and with `ts_out` and eight more reserved bytes.
-/
def dbnBlock (frame varBuffer : List UInt8) : List UInt8 :=
  (frame.drop versionCstrLen).take 50 ++ ((frame.drop 55).take 2 ++
    (List.replicate (1 + metadataReservedLenV1) 0 ++ varBuffer))

/-- The fields of the block of version 1. -/
def FixedFields.toDbn (fixed : FixedFields) : DbnFsm.FixedFields where
  dataset := fixed.dataset
  schema := some fixed.schema
  start := fixed.start
  endTs := fixed.endTs
  limit := fixed.limit
  stypeIn := some fixed.stypeIn
  stypeOut := fixed.stypeOut
  tsOut := false
  symbolCstrLen := symbolCstrLenV1

/-- The metadata of a frame, from that of the block of version 1. -/
def legacy (frame : List UInt8) (m : Metadata D) : Metadata D :=
  { m with
    version := 0
    endTs := NonZeroU64.new (UInt64.ofNat (uintAt 8 frame 30)) }

section Frame

variable {frame varBuffer : List UInt8}

theorem length_fields (h : fixedMetadataLen ≤ frame.length) :
    ((frame.drop versionCstrLen).take 50).length = 50 := by
  unfold fixedMetadataLen at h
  rw [List.length_take, List.length_drop, versionCstrLen]
  omega

theorem length_stypes (h : fixedMetadataLen ≤ frame.length) :
    ((frame.drop 55).take 2).length = 2 := by
  unfold fixedMetadataLen at h
  rw [List.length_take, List.length_drop]
  omega

theorem length_dbnBlock (h : fixedMetadataLen ≤ frame.length)
    (varBuffer : List UInt8) :
    (dbnBlock frame varBuffer).length = metadataFixedLen + varBuffer.length := by
  unfold fixedMetadataLen at h
  unfold dbnBlock
  simp only [List.length_append, List.length_take, List.length_drop,
    List.length_replicate, versionCstrLen, metadataReservedLenV1,
    metadataFixedLen]
  omega

/-- The fields up to the record count. -/
theorem field_dbnBlock (h : fixedMetadataLen ≤ frame.length)
    {width pos : Nat} (hpos : pos + width ≤ 50) :
    ((dbnBlock frame varBuffer).drop pos).take width =
      (frame.drop (versionCstrLen + pos)).take width := by
  have hlength := length_fields h
  unfold dbnBlock
  rw [List.drop_append_of_le_length (by omega),
    List.take_append_of_le_length (by rw [List.length_drop]; omega),
    List.drop_take, List.take_take, List.drop_drop,
    Nat.min_eq_left (by omega)]

theorem uintAt_dbnBlock (h : fixedMetadataLen ≤ frame.length)
    {width pos : Nat} (hpos : pos + width ≤ 50) :
    uintAt width (dbnBlock frame varBuffer) pos =
      uintAt width frame (versionCstrLen + pos) :=
  congrArg leNat (field_dbnBlock h hpos)

/-- The symbology types, after the compression. -/
theorem stype_dbnBlock (h : fixedMetadataLen ≤ frame.length)
    (varBuffer : List UInt8) {pos : Nat} (hpos : pos < 2) :
    uintAt 1 (dbnBlock frame varBuffer) (50 + pos) =
      uintAt 1 frame (55 + pos) := by
  have hstypes := length_stypes h
  unfold dbnBlock
  rw [DbnFsm.uintAt_skip (length_fields h), DbnFsm.uintAt_append (by omega),
    DbnFsm.uintAt_take (by omega)]
  unfold uintAt
  rw [List.drop_drop]

theorem tsOut_dbnBlock (h : fixedMetadataLen ≤ frame.length) :
    uintAt 1 (dbnBlock frame varBuffer) 52 = 0 := by
  unfold dbnBlock
  rw [show 52 = 50 + (2 + 0) from rfl, DbnFsm.uintAt_skip (length_fields h),
    DbnFsm.uintAt_skip (length_stypes h)]
  rfl

/-- What follows the fields of fixed length. -/
theorem drop_dbnBlock (h : fixedMetadataLen ≤ frame.length)
    (varBuffer : List UInt8) (n : Nat) :
    (dbnBlock frame varBuffer).drop (metadataFixedLen + n) =
      varBuffer.drop n := by
  have hlength := length_dbnBlock h []
  rw [List.length_nil, Nat.add_zero] at hlength
  have happend : dbnBlock frame varBuffer =
      dbnBlock frame [] ++ varBuffer := by
    simp only [dbnBlock, List.append_assoc, List.append_nil]
  rw [happend, ← hlength, ← List.drop_drop, List.drop_left]

theorem decodeFixedFields_eq (h : fixedMetadataLen ≤ frame.length) :
    decodeFixedFields frame versionCstrLen = (do
      let dataset ← (DbnFsm.trimmedUtf8 ((frame.drop versionCstrLen).take
        metadataDatasetCstrLen)).mapErr
        (fun e => Error.utf8 e "reading dataset from metadata")
      let schema ← decodeSchema frame 20
      let _ ← decodeCompression frame 54
      let stypeIn ← DbnFsm.decodeSType frame 55
      let stypeOut ← DbnFsm.decodeSType frame 56
      Res.ok
        ({ dataset := dataset
           schema := schema
           start := UInt64.ofNat (uintAt 8 frame 22)
           endTs := UInt64.ofNat (uintAt 8 frame 30)
           limit := NonZeroU64.new (UInt64.ofNat (uintAt 8 frame 38))
           stypeIn := stypeIn
           stypeOut := stypeOut }, fixedMetadataLen)) := by
  unfold fixedMetadataLen at h
  have hslice : slice (ε := Error) frame versionCstrLen
      metadataDatasetCstrLen =
      Res.ok ((frame.drop versionCstrLen).take metadataDatasetCstrLen) :=
    if_pos (by unfold metadataDatasetCstrLen versionCstrLen; omega)
  unfold decodeFixedFields
  rw [hslice, Res.ok_bind]
  simp (disch := omega) [DbnFsm.fromLeSlice_eq, uintAt, versionCstrLen,
    metadataDatasetCstrLen]
  rfl

theorem decodeSchema_dbnBlock (h : fixedMetadataLen ≤ frame.length)
    (hnull : uintAt 2 frame 20 ≠ nullSchema) :
    DbnFsm.decodeSchema (dbnBlock frame varBuffer) 16 =
      (decodeSchema frame 20 >>= fun schema => Res.ok (some schema)) := by
  have hlength := length_dbnBlock h varBuffer
  have hfield : ((dbnBlock frame varBuffer).drop 16).take 2 =
      (frame.drop 20).take 2 := field_dbnBlock h (by omega)
  unfold fixedMetadataLen at h
  unfold metadataFixedLen at hlength
  unfold uintAt at hnull
  unfold DbnFsm.decodeSchema decodeSchema
  rw [DbnFsm.fromLeSlice_eq (by omega), DbnFsm.fromLeSlice_eq (by omega),
    hfield, Res.ok_bind, Res.ok_bind, if_neg hnull]
  cases Schema.tryFrom (leNat ((frame.drop 20).take 2)) with
  | none => rfl
  | some schema => rfl

theorem decodeSType_dbnBlock (h : fixedMetadataLen ≤ frame.length)
    (varBuffer : List UInt8) {pos : Nat} (hpos : pos < 2) :
    DbnFsm.decodeSType (dbnBlock frame varBuffer) (50 + pos) =
      DbnFsm.decodeSType frame (55 + pos) := by
  have hlength := length_dbnBlock h varBuffer
  have hfield := stype_dbnBlock h varBuffer hpos
  unfold fixedMetadataLen at h
  unfold metadataFixedLen at hlength
  unfold uintAt at hfield
  unfold DbnFsm.decodeSType
  rw [DbnFsm.fromLeSlice_eq (by omega), DbnFsm.fromLeSlice_eq (by omega),
    hfield]

theorem decodeOptSType_dbnBlock (h : fixedMetadataLen ≤ frame.length)
    (hnull : uintAt 1 frame 55 ≠ nullStype) :
    DbnFsm.decodeOptSType (dbnBlock frame varBuffer) 50 =
      (DbnFsm.decodeSType frame 55 >>= fun stype => Res.ok (some stype)) := by
  have hlength := length_dbnBlock h varBuffer
  have hfield := stype_dbnBlock h varBuffer Nat.zero_lt_two
  have hstype := decodeSType_dbnBlock h varBuffer Nat.zero_lt_two
  unfold metadataFixedLen at hlength
  unfold uintAt at hfield
  unfold DbnFsm.decodeOptSType
  rw [DbnFsm.fromLeSlice_eq (by omega), Res.ok_bind, hfield, hstype]
  exact if_neg hnull

/-- The fields of the block of version 1 are those of the frame. -/
theorem decodeFixedFields_dbnBlock (h : fixedMetadataLen ≤ frame.length)
    (hvalid : ValidHeader frame) :
    DbnFsm.decodeFixedFields 1 (dbnBlock frame varBuffer) =
      (decodeFixedFields frame versionCstrLen >>= fun out =>
        Res.ok (out.1.toDbn, metadataFixedLen)) := by
  have hlength := length_dbnBlock h varBuffer
  have hdataset :
      ((dbnBlock frame varBuffer).drop 0).take metadataDatasetCstrLen =
      (frame.drop (versionCstrLen + 0)).take metadataDatasetCstrLen :=
    field_dbnBlock h (by decide)
  have hcompression : exists c, decodeCompression frame 54 = Res.ok c := by
    rcases Option.isSome_iff_exists.mp hvalid.compression with ⟨c, hc⟩
    unfold fixedMetadataLen at h
    unfold uintAt at hc
    unfold decodeCompression
    rw [DbnFsm.fromLeSlice_eq (by omega), Res.ok_bind, hc]
    exact ⟨c, rfl⟩
  rcases hcompression with ⟨c, hc⟩
  rw [List.drop_zero, Nat.add_zero] at hdataset
  have hoffset : DbnFsm.stypeOffset 1 = 50 := rfl
  have hstypeOut := decodeSType_dbnBlock h varBuffer Nat.one_lt_two
  rw [DbnFsm.decodeFixedFields_eq (by omega), decodeFixedFields_eq h, hoffset,
    hdataset, decodeSchema_dbnBlock h hvalid.schema,
    decodeOptSType_dbnBlock h hvalid.stypeIn, hstypeOut, tsOut_dbnBlock h,
    uintAt_dbnBlock h (by decide), uintAt_dbnBlock h (by decide),
    uintAt_dbnBlock h (by decide), hc]
  simp only [Res.bind_assoc, Res.ok_bind]
  rfl

/-!
## The frame and the block
-/

variable {newSlice : List UInt8 ->
  Except IoErrorKind (Except IoErrorKind (List UInt8))} {m : Metadata D}

/-- The checks of the header, and the calls after them. -/
theorem decode_eq (h : fixedMetadataLen ≤ frame.length) :
    decode (D := D) newSlice frame =
      if frame.take dbzPrefix.length ≠ dbzPrefix then
        Res.err (Error.decode "Invalid version string")
      else if uintAt 1 frame 3 > schemaVersion then
        Res.err (Error.decode "Can't read newer version of DBZ")
      else (do
        let fixed ← decodeFixedFields frame versionCstrLen
        let varBuffer ← decompress newSlice (frame.drop fixedMetadataLen)
        let lists ← decodeVariable varBuffer
        Res.ok (metadataOf fixed.1 lists)) := by
  have hfixed := decodeFixedFields_eq h
  unfold fixedMetadataLen at h
  have hslice : slice (ε := Error) frame 0 3 =
      Res.ok (frame.take dbzPrefix.length) :=
    if_pos (by omega)
  have hrest : slice (ε := Error) frame fixedMetadataLen
      (frame.length - fixedMetadataLen) =
      Res.ok (frame.drop fixedMetadataLen) := by
    unfold slice fixedMetadataLen
    rw [if_pos (by omega), List.take_of_length_le (by rw [List.length_drop])]
  unfold decode
  rw [hslice, Res.ok_bind, DbnFsm.fromLeSlice_eq (by omega), Res.ok_bind,
    hfixed]
  simp only [Res.bind_assoc, Res.ok_bind, hrest]
  rfl

theorem endTs_of_decodeFixedFields (h : fixedMetadataLen ≤ frame.length)
    {fixed : FixedFields} {pos : Nat}
    (hok : decodeFixedFields frame versionCstrLen = Res.ok (fixed, pos)) :
    fixed.endTs = UInt64.ofNat (uintAt 8 frame 30) := by
  rw [decodeFixedFields_eq h] at hok
  rcases Res.bind_eq_ok.mp hok with ⟨_, _, hok⟩
  rcases Res.bind_eq_ok.mp hok with ⟨_, _, hok⟩
  rcases Res.bind_eq_ok.mp hok with ⟨_, _, hok⟩
  rcases Res.bind_eq_ok.mp hok with ⟨_, _, hok⟩
  rcases Res.bind_eq_ok.mp hok with ⟨_, _, hok⟩
  cases hok
  rfl

theorem fromLeSlice_dbnBlock (h : fixedMetadataLen ≤ frame.length) :
    fromLeSlice 4 (dbnBlock frame varBuffer) metadataFixedLen =
      fromLeSlice 4 varBuffer 0 := by
  have hlength := length_dbnBlock h varBuffer
  have hdrop := drop_dbnBlock h varBuffer 0
  rw [Nat.add_zero] at hdrop
  unfold fromLeSlice
  rw [hlength, hdrop]
  by_cases hroom : 4 ≤ varBuffer.length
  · rw [if_pos (by omega), if_pos (by omega)]
  · rw [if_neg (by omega), if_neg (by omega)]

/-- The lists of the block are those of the decompressed buffer. -/
theorem forget_decodeLists (h : fixedMetadataLen ≤ frame.length)
    (hmax : metadataFixedLen + varBuffer.length ≤ isizeMax)
    (hroom : 4 ≤ varBuffer.length) :
    (decodeLists (D := D) symbolCstrLenV1 varBuffer 4 >>= fun out =>
        Res.ok out.1).forget =
      (decodeLists symbolCstrLenV1 (dbnBlock frame varBuffer)
        (metadataFixedLen + 4) >>= fun out => Res.ok out.1).forget := by
  have hlength := length_dbnBlock h varBuffer
  have hvar : InSlice varBuffer 4 := ⟨by omega, hroom⟩
  have hblock : InSlice (dbnBlock frame varBuffer) (metadataFixedLen + 4) :=
    ⟨by omega, by omega⟩
  exact (DbnFsm.recognizes_lists hvar (by decide)).forget_eq
    (DbnFsm.recognizes_lists hblock (by decide)) (drop_dbnBlock h varBuffer 4).symm

/--
Apart from what errors say, a frame with a valid header is decoded to the
metadata of its block of version 1.
-/
theorem forget_decode (h : fixedMetadataLen ≤ frame.length)
    (hvalid : ValidHeader frame)
    (hvar : newSlice (frame.drop fixedMetadataLen) =
      Except.ok (Except.ok varBuffer))
    (hmax : metadataFixedLen + varBuffer.length ≤ isizeMax) :
    (decode (D := D) newSlice frame).forget =
      (decodeMetadataImpl 1 (dbnBlock frame varBuffer) >>= fun m =>
        Res.ok (legacy frame m)).forget := by
  have hdecompress : decompress newSlice (frame.drop fixedMetadataLen) =
      Res.ok varBuffer := by
    unfold decompress
    rw [hvar]
  rw [decode_eq h, if_neg (not_not.mpr hvalid.magic),
    if_neg (Nat.not_lt.mpr hvalid.version), hdecompress,
    DbnFsm.decodeMetadataImpl_eq, decodeFixedFields_dbnBlock h hvalid]
  cases hfixed : decodeFixedFields frame versionCstrLen with
  | err e => rfl
  | panic p => rfl
  | ok out =>
      have hend := endTs_of_decodeFixedFields h hfixed
      simp only [Res.ok_bind, Res.forget_bind, forget_decodeVariable,
        fromLeSlice_dbnBlock h]
      cases hlen : fromLeSlice 4 varBuffer 0 with
      | err e => rfl
      | panic p => rfl
      | ok n =>
          have hroom : 4 ≤ varBuffer.length := by
            unfold fromLeSlice at hlen
            split at hlen
            · next hroom => exact hroom
            · cases hlen
          simp only [Res.forget_ok, Res.ok_bind]
          by_cases hzero : n = 0
          · rw [if_neg (not_not.mpr hzero), if_neg (not_not.mpr hzero), hzero]
            have hlists := congrArg
              (fun x => x >>= fun lists => Res.ok (metadataOf out.1 lists))
              (forget_decodeLists (D := D) h hmax hroom)
            have hlegacy : forall lists : SymbolLists D,
                metadataOf out.1 lists =
                  legacy frame (DbnFsm.metadataOf 1 out.1.toDbn lists) := by
              intro lists
              unfold legacy metadataOf
              rw [hend]
              rfl
            simp only [Res.forget_bind, Res.forget_ok, Res.bind_assoc,
              Res.ok_bind, hlegacy] at hlists ⊢
            exact hlists
          · rw [if_pos hzero, if_pos hzero]
            rfl

theorem uintAt_of_decodeSchema {pos : Nat} {schema : Schema}
    (hpos : pos + 2 ≤ frame.length)
    (hok : decodeSchema frame pos = Res.ok schema) :
    uintAt 2 frame pos ≠ nullSchema := by
  intro hnull
  unfold uintAt at hnull
  unfold decodeSchema at hok
  rw [DbnFsm.fromLeSlice_eq hpos, Res.ok_bind, hnull] at hok
  cases hok

theorem isSome_of_decodeCompression {pos : Nat} {c : Cli.Compression}
    (hpos : pos + 1 ≤ frame.length)
    (hok : decodeCompression frame pos = Res.ok c) :
    (Cli.Compression.tryFrom (uintAt 1 frame pos)).isSome := by
  unfold decodeCompression at hok
  rw [DbnFsm.fromLeSlice_eq hpos, Res.ok_bind] at hok
  unfold uintAt
  cases htry : Cli.Compression.tryFrom (leNat ((frame.drop pos).take 1)) with
  | none =>
      rw [htry] at hok
      cases hok
  | some c => rfl

theorem uintAt_of_decodeSType {pos : Nat} {stype : SType}
    (hpos : pos + 1 ≤ frame.length)
    (hok : DbnFsm.decodeSType frame pos = Res.ok stype) :
    uintAt 1 frame pos ≠ nullStype := by
  intro hnull
  unfold uintAt at hnull
  unfold DbnFsm.decodeSType at hok
  rw [DbnFsm.fromLeSlice_eq hpos, Res.ok_bind, hnull] at hok
  cases hok

/-- The header of a frame whose fields are decoded. -/
theorem validHeader_of_decodeFixedFields (h : fixedMetadataLen ≤ frame.length)
    (hmagic : frame.take dbzPrefix.length = dbzPrefix)
    (hversion : uintAt 1 frame 3 ≤ schemaVersion)
    {fixed : FixedFields × Nat}
    (hok : decodeFixedFields frame versionCstrLen = Res.ok fixed) :
    ValidHeader frame := by
  rw [decodeFixedFields_eq h] at hok
  unfold fixedMetadataLen at h
  rcases Res.bind_eq_ok.mp hok with ⟨_, _, hok⟩
  rcases Res.bind_eq_ok.mp hok with ⟨_, hschema, hok⟩
  rcases Res.bind_eq_ok.mp hok with ⟨_, hcompression, hok⟩
  rcases Res.bind_eq_ok.mp hok with ⟨_, hstypeIn, _⟩
  exact
    { magic := hmagic
      version := hversion
      schema := uintAt_of_decodeSchema (by omega) hschema
      compression := isSome_of_decodeCompression (by omega) hcompression
      stypeIn := uintAt_of_decodeSType (by omega) hstypeIn }

theorem decodeFixedFields_not_isPanic (h : fixedMetadataLen ≤ frame.length) :
    ¬ (decodeFixedFields frame versionCstrLen).IsPanic := by
  have hstype : forall pos, pos + 1 ≤ frame.length ->
      ¬ (DbnFsm.decodeSType frame pos).IsPanic := by
    intro pos hpos
    unfold DbnFsm.decodeSType
    rw [DbnFsm.fromLeSlice_eq hpos, Res.ok_bind]
    split <;> simp
  rw [decodeFixedFields_eq h]
  unfold fixedMetadataLen at h
  intro hpanic
  rcases Res.bind_isPanic.mp hpanic with hpanic | ⟨_, _, hpanic⟩
  · exact DbnFsm.trimmedUtf8_not_isPanic _ (Res.mapErr_isPanic.mp hpanic)
  rcases Res.bind_isPanic.mp hpanic with hpanic | ⟨_, _, hpanic⟩
  · unfold decodeSchema at hpanic
    rw [DbnFsm.fromLeSlice_eq (by omega), Res.ok_bind] at hpanic
    split at hpanic <;> simp at hpanic
  rcases Res.bind_isPanic.mp hpanic with hpanic | ⟨_, _, hpanic⟩
  · unfold decodeCompression at hpanic
    rw [DbnFsm.fromLeSlice_eq (by omega), Res.ok_bind] at hpanic
    split at hpanic <;> simp at hpanic
  rcases Res.bind_isPanic.mp hpanic with hpanic | ⟨_, _, hpanic⟩
  · exact hstype _ (by omega) hpanic
  rcases Res.bind_isPanic.mp hpanic with hpanic | ⟨_, _, hpanic⟩
  · exact hstype _ (by omega) hpanic
  · exact Res.ok_not_isPanic _ hpanic

/-- An error comes from a call after a header that is valid. -/
theorem validHeader_of_decode (h : fixedMetadataLen ≤ frame.length)
    (hnoErr : ¬ (decode (D := D) newSlice frame).IsErr) :
    ValidHeader frame := by
  rw [decode_eq h] at hnoErr
  split_ifs at hnoErr with hmagic hversion
  · exact absurd (Res.err_isErr _) hnoErr
  · exact absurd (Res.err_isErr _) hnoErr
  rcases Res.cases_outcome (decodeFixedFields frame versionCstrLen) with
    ⟨fixed, hfixed⟩ | ⟨e, he⟩ | hpanic
  · exact validHeader_of_decodeFixedFields h (not_not.mp hmagic)
      (Nat.not_lt.mp hversion) hfixed
  · rw [he] at hnoErr
    exact absurd (Res.err_isErr _) hnoErr
  · exact absurd hpanic (decodeFixedFields_not_isPanic h)

/-!
## What is decoded
-/

/-- The values that are decoded from a frame. -/
theorem decode_eq_ok_iff (h : fixedMetadataLen ≤ frame.length)
    (hvar : newSlice (frame.drop fixedMetadataLen) =
      Except.ok (Except.ok varBuffer))
    (hmax : metadataFixedLen + varBuffer.length ≤ isizeMax) :
    decode newSlice frame = Res.ok m <->
      ValidHeader frame ∧ exists m1 : Metadata D,
        decodeMetadataImpl 1 (dbnBlock frame varBuffer) = Res.ok m1 ∧
        m = legacy frame m1 := by
  constructor
  · intro hok
    have hvalid : ValidHeader frame := by
      apply @validHeader_of_decode D _ _ newSlice h
      rw [hok]
      exact Res.ok_not_isErr m
    have hforget := forget_decode (D := D) h hvalid hvar hmax
    rw [hok, Res.forget_ok] at hforget
    rcases Res.bind_eq_ok.mp (Res.forget_eq_ok.mp hforget.symm) with
      ⟨m1, hm1, heq⟩
    cases heq
    exact ⟨hvalid, m1, hm1, rfl⟩
  · rintro ⟨hvalid, m1, hm1, rfl⟩
    have hforget := forget_decode (D := D) h hvalid hvar hmax
    rw [hm1, Res.ok_bind, Res.forget_ok] at hforget
    exact Res.forget_eq_ok.mp hforget

theorem tsOut_of_decode (h : fixedMetadataLen ≤ frame.length)
    (hok : decode newSlice frame = Res.ok m) : m.tsOut = false := by
  rw [decode_eq h] at hok
  split_ifs at hok
  rcases Res.bind_eq_ok.mp hok with ⟨_, _, hok⟩
  rcases Res.bind_eq_ok.mp hok with ⟨_, _, hok⟩
  rcases Res.bind_eq_ok.mp hok with ⟨_, _, hok⟩
  cases hok
  rfl

/-- DBN has a value for no end, which is an end in DBZ. -/
theorem endTs_of_dbnBlock (h : fixedMetadataLen ≤ frame.length)
    (hvalid : ValidHeader frame)
    (hok : decodeMetadataImpl 1 (dbnBlock frame varBuffer) = Res.ok m)
    (hend : uintAt 8 frame 30 ≠ undefTimestamp) :
    m.endTs = NonZeroU64.new (UInt64.ofNat (uintAt 8 frame 30)) := by
  rw [DbnFsm.decodeMetadataImpl_eq, decodeFixedFields_dbnBlock h hvalid]
    at hok
  rcases Res.bind_eq_ok.mp hok with ⟨fixed, hfixed, hok⟩
  rcases Res.bind_eq_ok.mp hfixed with ⟨out, hout, hfixed⟩
  cases hfixed
  rcases Res.bind_eq_ok.mp hok with ⟨n, _, hok⟩
  dsimp only at hok
  split_ifs at hok
  rcases Res.bind_eq_ok.mp hok with ⟨lists, _, hok⟩
  cases hok
  have hendTs := endTs_of_decodeFixedFields h hout
  have hlt : uintAt 8 frame 30 < 2 ^ 64 := DbnFsm.leNat_take_lt 8 _
  have hvalue : out.1.endTs.toNat ≠ undefTimestamp := by
    rw [hendTs, UInt64.toNat_ofNat', Nat.mod_eq_of_lt hlt]
    exact hend
  rw [← hendTs]
  exact if_neg hvalue

/-- The decoder panics only for want of the length of a schema definition. -/
theorem decode_isPanic_iff (h : fixedMetadataLen ≤ frame.length)
    (hvar : newSlice (frame.drop fixedMetadataLen) =
      Except.ok (Except.ok varBuffer))
    (hmax : metadataFixedLen + varBuffer.length ≤ isizeMax) :
    (decode (D := D) newSlice frame).IsPanic <->
      ValidHeader frame ∧
        DbnFsm.ValidFixedFields 1 (dbnBlock frame varBuffer) ∧
        varBuffer.length < 4 := by
  have hlength := length_dbnBlock h varBuffer
  have hblock : (decodeMetadataImpl (D := D) 1
      (dbnBlock frame varBuffer)).IsPanic <-> _ :=
    DbnFsm.decodeMetadataImpl_isPanic_iff (by omega) (by omega)
  rw [hlength, DbnFsm.listsOffset, Nat.add_lt_add_iff_left] at hblock
  have hpanics : ValidHeader frame ->
      ((decode (D := D) newSlice frame).IsPanic <->
        (decodeMetadataImpl (D := D) 1
          (dbnBlock frame varBuffer)).IsPanic) := by
    intro hvalid
    have hforget := forget_decode (D := D) h hvalid hvar hmax
    rw [← Res.forget_isPanic, hforget, Res.forget_isPanic, Res.bind_isPanic]
    simp
  constructor
  · intro hpanic
    have hvalid : ValidHeader frame := by
      apply @validHeader_of_decode D _ _ newSlice h
      rcases hpanic with ⟨p, hp⟩
      rw [hp]
      exact Res.panic_not_isErr p
    exact ⟨hvalid, hblock.mp ((hpanics hvalid).mp hpanic)⟩
  · rintro ⟨hvalid, hshort⟩
    exact (hpanics hvalid).mpr (hblock.mpr hshort)

/--
A frame is decoded exactly when its header is valid and its block of version 1
is decoded, to the metadata of the block; the decoder panics only for want of
the length of a schema definition.
-/
theorem decode_iff_dbnBlock (h : fixedMetadataLen ≤ frame.length)
    (hvar : newSlice (frame.drop fixedMetadataLen) =
      Except.ok (Except.ok varBuffer))
    (hmax : metadataFixedLen + varBuffer.length ≤ isizeMax) :
    (forall m : Metadata D, decode newSlice frame = Res.ok m <->
      ValidHeader frame ∧ exists m1 : Metadata D,
        decodeMetadataImpl 1 (dbnBlock frame varBuffer) = Res.ok m1 ∧
        m = legacy frame m1) ∧
    ((decode (D := D) newSlice frame).IsPanic <->
      ValidHeader frame ∧
        DbnFsm.ValidFixedFields 1 (dbnBlock frame varBuffer) ∧
        varBuffer.length < 4) := by
  constructor
  · intro m
    exact decode_eq_ok_iff h hvar hmax
  · exact decode_isPanic_iff h hvar hmax

end Frame

section Sample

/-- Metadata of version 1 with an end. -/
def sampleFields : Metadata GregorianDate :=
  { DbnFsm.sampleMetadata 1 22 with
    endTs := NonZeroU64.new 1672617600000000000 }

def sampleVariable : List UInt8 :=
  leBytes 4 0 ++ MetadataEncoder.listsBytes sampleFields

/-- A frame with the content of the metadata. -/
def sampleFrame : List UInt8 :=
  let fields := MetadataEncoder.fixedBytes sampleFields
  dbzPrefix ++ ([1] ++ (fields.take 50 ++ ([1] ++ ((fields.drop 50).take 2 ++
    (List.replicate reservedLen 0 ++ Zstd.storedFrame sampleVariable)))))

/-- A frame with a stored variable part. -/
theorem decode_iff_dbnBlock_stored :
    decode Zstd.newStored sampleFrame =
        Res.ok (legacy sampleFrame sampleFields) ∧
      ¬ (decode (D := GregorianDate) Zstd.newStored sampleFrame).IsPanic := by
  have hvar : Zstd.newStored (sampleFrame.drop fixedMetadataLen) =
      Except.ok (Except.ok sampleVariable) := by
    decide +kernel
  have hiff := decode_iff_dbnBlock (D := GregorianDate) (by decide +kernel)
    hvar (by decide +kernel)
  constructor
  · apply (hiff.1 _).mpr
    refine ⟨⟨by decide +kernel, by decide +kernel, by decide +kernel,
      by decide +kernel, by decide +kernel⟩, sampleFields, ?_, rfl⟩
    decide +kernel
  · intro hpanic
    exact absurd (hiff.2.mp hpanic).2.2 (by decide +kernel)

end Sample

end MetadataDecoder
end Dbz
end Dbn
