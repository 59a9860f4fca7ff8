import Dbn.Decode.MetadataRuns
import Dbn.Encode.EncodedMetadata
import Mathlib.Algebra.BigOperators.Group.List.Basic

/-!
# Decoding encoded metadata

The bytes of encodable metadata are a prelude that is accepted and a block of
the grammar, whose padding is part of the declared length.  So the machine
returns the metadata and leaves what follows the block.
-/

namespace Dbn
namespace DbnFsm

open Lib
open Lib.Grammar (value seq uint many counted)
open MetadataEncoder

variable {B D : Type} [CalendarDate D]

/-!
## The lists
-/

section Lists

variable {len : Nat}

theorem symbolGrammar_cstrBytes {s : Str} (h : FitsCstr len s) :
    symbolGrammar len (cstrBytes len s) s := by
  have hascii : forall b, b ∈ cstrBytes len s -> b < 0x80 := by
    intro b hb
    rcases List.mem_append.mp hb with hs | hpad
    · have hall := h.ascii
      unfold Str.isAscii at hall
      rw [List.all_eq_true] at hall
      exact of_decide_eq_true (hall b hs)
    · rw [List.eq_of_mem_replicate hpad]
      decide
  refine ⟨length_cstrBytes h.short, ?_⟩
  unfold trimmedUtf8
  rw [Str.fromUtf8_of_valid (isUtf8_of_ascii hascii)]
  exact congrArg Res.ok (Str.trimEndNul_padded h.last rfl)

variable [LawfulCalendarDate D]

theorem dateGrammar_dateBytes {date : D} (h : EncodableDate date) :
    dateGrammar (dateBytes date) date := by
  have hmonth := LawfulCalendarDate.month_le date
  have hmonthPos := LawfulCalendarDate.month_pos date
  have hday := LawfulCalendarDate.day_le date
  have hrebuild := LawfulCalendarDate.fromCalendarDate_parts date
  obtain ⟨hyearPos, hyear⟩ := h
  obtain ⟨year, hyearEq⟩ := Int.eq_ofNat_of_zero_le hyearPos
  have hint : dateInt date = year * 10000 + CalendarDate.month date * 100 +
      CalendarDate.day date := by
    unfold dateInt
    rw [hyearEq, Int.emod_eq_of_lt (by omega) (by omega), Int.toNat_natCast,
      Nat.mod_eq_of_lt (by omega)]
  refine ⟨length_leBytes _ _, ?_⟩
  unfold dateBytes
  rw [leNat_leBytes_of_lt (by rw [hint]; omega), hint]
  unfold decodeIso8601
  have hyears : (year * 10000 + CalendarDate.month date * 100 +
      CalendarDate.day date) / 10000 = year := by omega
  have hmonths : (year * 10000 + CalendarDate.month date * 100 +
      CalendarDate.day date) % 10000 / 100 = CalendarDate.month date := by
    omega
  have hdays : (year * 10000 + CalendarDate.month date * 100 +
      CalendarDate.day date) % 10000 % 100 = CalendarDate.day date := by
    omega
  simp only [hyears, hmonths, hdays, if_pos (And.intro hmonthPos hmonth)]
  rw [hyearEq] at hrebuild
  rw [hrebuild]

theorem length_le_countedBytes {α : Type} (encode : α -> List UInt8)
    {as : List α} (h : forall a, a ∈ as -> 1 ≤ (encode a).length) :
    as.length ≤ (countedBytes encode as).length := by
  have hsum := List.length_le_sum_of_one_le (as.map (fun a => (encode a).length))
    (by simpa using h)
  unfold countedBytes
  rw [List.length_append, List.length_flatMap]
  rw [List.length_map] at hsum
  omega

theorem length_le_of_mem_countedBytes {α : Type} (encode : α -> List UInt8)
    {as : List α} {a : α} (h : a ∈ as) :
    (encode a).length ≤ (countedBytes encode as).length := by
  have hsub := List.sublist_flatten_of_mem (List.mem_map_of_mem (f := encode) h)
  have hle := hsub.length_le
  unfold countedBytes
  rw [List.length_append, List.flatMap_def]
  omega

/-- The lists of the metadata. -/
def listsOf (m : Metadata D) : SymbolLists D where
  symbols := m.symbols
  partialSymbols := m.partialSymbols
  notFound := m.notFound
  mappings := m.mappings

/-- Symbols that fill their fields, as many as can be counted. -/
def RereadSymbols (len : Nat) (symbols : List Str) : Prop :=
  symbols.length < 2 ^ 32 ∧ forall s, s ∈ symbols -> FitsCstr len s

/-- The symbols and the dates of a mapping are read back. -/
structure RereadMapping (len : Nat) (mapping : SymbolMapping D) : Prop where
  rawSymbol : FitsCstr len mapping.rawSymbol
  count : mapping.intervals.length < 2 ^ 32
  intervals : forall interval, interval ∈ mapping.intervals ->
    dateGrammar (dateBytes interval.startDate) interval.startDate ∧
      dateGrammar (dateBytes interval.endDate) interval.endDate ∧
      FitsCstr len interval.symbol

/-- Metadata whose block is decoded to itself, however long it is. -/
structure Rereads (m : Metadata D) : Prop where
  fixed : EncodableFixed m
  symbols : RereadSymbols m.symbolCstrLen m.symbols
  partialSymbols : RereadSymbols m.symbolCstrLen m.partialSymbols
  notFound : RereadSymbols m.symbolCstrLen m.notFound
  count : m.mappings.length < 2 ^ 32
  mappings : forall mapping, mapping ∈ m.mappings ->
    RereadMapping m.symbolCstrLen mapping

omit [LawfulCalendarDate D] in
theorem mappingGrammar_mappingBytes {mapping : SymbolMapping D}
    (h : RereadMapping len mapping) :
    mappingGrammar len (mappingBytes len mapping) mapping := by
  have hinterval : forall interval, interval ∈ mapping.intervals ->
      intervalGrammar len (intervalBytes len interval) interval := by
    intro interval hin
    rcases h.intervals interval hin with ⟨hstart, hend, hsymbol⟩
    exact ⟨_, _, _, rfl, hstart, _, _, _, rfl, hend, _, _, _,
      (List.append_nil _).symm, symbolGrammar_cstrBytes hsymbol, rfl, rfl⟩
  exact ⟨_, _, _, rfl, symbolGrammar_cstrBytes h.rawSymbol, _, _, _,
    (List.append_nil _).symm, Grammar.counted_flatMap h.count hinterval, rfl,
    rfl⟩

omit [LawfulCalendarDate D] in
theorem listsGrammar_listsBytes {m : Metadata D} (h : Rereads m) :
    listsGrammar m.symbolCstrLen (listsBytes m) (listsOf m) := by
  have hsymbols {symbols : List Str}
      (hsymbols : RereadSymbols m.symbolCstrLen symbols) :
      counted (symbolGrammar m.symbolCstrLen)
        (countedBytes (cstrBytes m.symbolCstrLen) symbols) symbols :=
    Grammar.counted_flatMap hsymbols.1
      (fun s hs => symbolGrammar_cstrBytes (hsymbols.2 s hs))
  have hmappings : counted (mappingGrammar m.symbolCstrLen)
      (countedBytes (mappingBytes m.symbolCstrLen) m.mappings) m.mappings :=
    Grammar.counted_flatMap h.count (fun mapping hin =>
      mappingGrammar_mappingBytes (h.mappings mapping hin))
  exact ⟨_, _, _, rfl, hsymbols h.symbols, _, _, _, rfl,
    hsymbols h.partialSymbols, _, _, _, rfl, hsymbols h.notFound, _, _, _,
    (List.append_nil _).symm, hmappings, rfl, rfl⟩

/-- Lists of fewer than four gigabytes have fewer elements than that. -/
theorem rereads_of_encodable {m : Metadata D} (h : Encodable m) :
    Rereads m := by
  have hpos := h.cstrLen_pos
  have hlt := h.length_lt
  have hblock := length_blockBytes h
  rw [length_encodedBytes, hblock, neededLen] at hlt
  have hlists : (listsBytes m).length < 2 ^ 32 := by omega
  unfold listsBytes at hlists
  simp only [List.length_append] at hlists
  have hsymbols {symbols : List Str}
      (hfits : forall s, s ∈ symbols -> FitsCstr m.symbolCstrLen s)
      (hlen : (countedBytes (cstrBytes m.symbolCstrLen) symbols).length <
        2 ^ 32) : RereadSymbols m.symbolCstrLen symbols := by
    have hcount := length_le_countedBytes (cstrBytes m.symbolCstrLen)
      (fun s hs => by rw [length_cstrBytes (hfits s hs).short]; exact hpos)
    exact ⟨by omega, hfits⟩
  have hsize : forall mapping, mapping ∈ m.mappings ->
      (mappingBytes m.symbolCstrLen mapping).length =
        m.symbolCstrLen + 4 + mapping.intervals.length *
          (4 * 2 + m.symbolCstrLen) :=
    fun mapping hin => length_mappingBytes (h.mappings mapping hin).accepts
  have hcount := length_le_countedBytes (mappingBytes m.symbolCstrLen)
    (fun mapping hin => by rw [hsize mapping hin]; omega)
  refine ⟨h.fixed, hsymbols h.symbols (by omega),
    hsymbols h.partialSymbols (by omega), hsymbols h.notFound (by omega),
    by omega, ?_⟩
  intro mapping hin
  have hle := length_le_of_mem_countedBytes (mappingBytes m.symbolCstrLen) hin
  rw [hsize mapping hin] at hle
  have hintervals := Nat.le_mul_of_pos_right mapping.intervals.length
    (show 0 < 4 * 2 + m.symbolCstrLen by omega)
  refine ⟨(h.mappings mapping hin).rawSymbol, by omega, ?_⟩
  intro interval hinterval
  have hinterval := (h.mappings mapping hin).intervals interval hinterval
  exact ⟨dateGrammar_dateBytes hinterval.startDate,
    dateGrammar_dateBytes hinterval.endDate, hinterval.symbol⟩

end Lists

/-!
## The fixed fields
-/

section Fixed

theorem uintAt_skip {width pos k : Nat} {a rest : List UInt8}
    (h : a.length = k) :
    uintAt width (a ++ rest) (k + pos) = uintAt width rest pos := by
  unfold uintAt
  rw [← h, List.drop_append, List.drop_eq_nil_of_le (by omega),
    List.nil_append, Nat.add_sub_cancel_left]

theorem uintAt_leBytes {width n : Nat} (h : n < 256 ^ width)
    (rest : List UInt8) : uintAt width (leBytes width n ++ rest) 0 = n := by
  have htake : (leBytes width n ++ rest).take width = leBytes width n := by
    rw [List.take_append_of_le_length (by rw [length_leBytes]),
      List.take_of_length_le (by rw [length_leBytes])]
  unfold uintAt
  rw [List.drop_zero, htake, leNat_leBytes_of_lt h]

theorem uintAt_cons_succ (width pos : Nat) (b : UInt8) (rest : List UInt8) :
    uintAt width (b :: rest) (pos + 1) = uintAt width rest pos := rfl

theorem uintAt_cons (b : UInt8) (rest : List UInt8) :
    uintAt 1 (b :: rest) 0 = b.toNat := by
  simp [uintAt, leNat]

variable {block : List UInt8} {pos : Nat}

theorem decodeSchema_of_uintAt (h : pos + 2 ≤ block.length)
    {schema : Option Schema}
    (hvalue : uintAt 2 block pos =
      (schema.map Schema.toNat).getD nullSchema) :
    decodeSchema block pos = Res.ok schema := by
  unfold uintAt at hvalue
  unfold decodeSchema
  rw [fromLeSlice_eq h, Res.ok_bind, hvalue]
  cases schema with
  | none => rfl
  | some schema =>
      have hne : schema.toNat ≠ nullSchema :=
        Nat.ne_of_lt (Nat.lt_trans schema.toNat_lt (by decide))
      simp only [Option.map_some, Option.getD_some, if_neg hne,
        Schema.tryFrom_toNat]

theorem decodeSType_of_uintAt (h : pos + 1 ≤ block.length) {stype : SType}
    (hvalue : uintAt 1 block pos = stype.toNat) :
    decodeSType block pos = Res.ok stype := by
  unfold uintAt at hvalue
  unfold decodeSType
  rw [fromLeSlice_eq h, Res.ok_bind, hvalue, SType.tryFrom_toNat]

theorem decodeOptSType_of_uintAt (h : pos + 1 ≤ block.length)
    {stype : Option SType}
    (hvalue : uintAt 1 block pos =
      (stype.map SType.toNat).getD nullStype) :
    decodeOptSType block pos = Res.ok stype := by
  have hraw := hvalue
  unfold uintAt at hraw
  unfold decodeOptSType
  rw [fromLeSlice_eq h, Res.ok_bind, hraw]
  cases stype with
  | none => rfl
  | some stype =>
      have hne : stype.toNat ≠ nullStype :=
        Nat.ne_of_lt (Nat.lt_trans stype.toNat_lt (by decide))
      simp only [Option.map_some, Option.getD_some, if_neg hne,
        decodeSType_of_uintAt h hvalue, Res.ok_bind]

/-- The fixed fields of the metadata, with the sentinels of the format. -/
def fixedOf (m : Metadata D) : FixedFields where
  dataset := m.dataset
  schema := m.schema
  start := m.start
  endTs := (m.endTs.map Subtype.val).getD (UInt64.ofNat undefTimestamp)
  limit := m.limit
  stypeIn := m.stypeIn
  stypeOut := m.stypeOut
  tsOut := m.tsOut
  symbolCstrLen := m.symbolCstrLen

omit [CalendarDate D] in
theorem uint64_ofNat_getD {n : Option NonZeroU64} {d : Nat} :
    UInt64.ofNat ((n.map (fun e => e.val.toNat)).getD d) =
      (n.map Subtype.val).getD (UInt64.ofNat d) := by
  cases n with
  | none => rfl
  | some e => simp

omit [CalendarDate D] in
theorem metadataOf_fixedOf {m : Metadata D} (h : EncodableFixed m) :
    metadataOf m.version (fixedOf m) (listsOf m) = m := by
  have hend : (if (fixedOf m).endTs.toNat = undefTimestamp then none
      else NonZeroU64.new (fixedOf m).endTs) = m.endTs := by
    unfold fixedOf
    dsimp only
    cases he : m.endTs with
    | none => rfl
    | some e =>
        have hne := h.endTs e he
        simp only [Option.map_some, Option.getD_some, if_neg hne,
          NonZeroU64.new_val]
  unfold metadataOf
  rw [hend]
  rfl

/-- The integers in the fixed fields of an encoded block. -/
structure EncodedFields (m : Metadata D) (block : List UInt8) : Prop where
  dataset : block.take metadataDatasetCstrLen =
    cstrBytes metadataDatasetCstrLen m.dataset
  schema : uintAt 2 block 16 = (m.schema.map Schema.toNat).getD nullSchema
  start : uintAt 8 block 18 = m.start.toNat
  endTs : uintAt 8 block 26 =
    (m.endTs.map (fun e => e.val.toNat)).getD undefTimestamp
  limit : uintAt 8 block 34 =
    (m.limit.map (fun l => l.val.toNat)).getD nullLimit
  stypeIn : uintAt 1 block (stypeOffset m.version) =
    (m.stypeIn.map SType.toNat).getD nullStype
  stypeOut : uintAt 1 block (stypeOffset m.version + 1) = m.stypeOut.toNat
  tsOut : uintAt 1 block (stypeOffset m.version + 2) =
    if m.tsOut then 1 else 0
  cstrLen : declaredCstrLen m.version block = m.symbolCstrLen

theorem getD_toNat_lt {n : Option NonZeroU64} {d : Nat} (h : d < 2 ^ 64) :
    (n.map (fun e => e.val.toNat)).getD d < 256 ^ 8 := by
  cases n with
  | none => exact h
  | some e => exact e.val.toNat_lt

omit [CalendarDate D] in
theorem encodedFields_fixedBytes {m : Metadata D} (h : EncodableFixed m)
    (rest : List UInt8) : EncodedFields m (fixedBytes m ++ rest) := by
  have hversion := h.version_pos
  have hdataset : (cstrBytes metadataDatasetCstrLen m.dataset).length = 16 :=
    length_cstrBytes h.dataset.short
  have hcount : (if m.version = 1 then leBytes 8 nullRecordCount
      else []).length = stypeOffset m.version - 42 := by
    unfold stypeOffset
    split <;> rfl
  have hoffset : stypeOffset m.version =
      16 + (2 + (8 + (8 + (8 + ((stypeOffset m.version - 42) + 0))))) := by
    unfold stypeOffset
    split <;> rfl
  have hschema : (m.schema.map Schema.toNat).getD nullSchema < 256 ^ 2 := by
    cases m.schema with
    | none => decide
    | some schema => exact Nat.lt_trans schema.toNat_lt (by decide)
  have hstypeIn : (m.stypeIn.map SType.toNat).getD nullStype < 256 := by
    cases m.stypeIn with
    | none => decide
    | some stype => exact Nat.lt_trans stype.toNat_lt (by decide)
  have hstypeOut := m.stypeOut.toNat_lt
  have hlayout : fixedBytes m ++ rest =
      cstrBytes metadataDatasetCstrLen m.dataset ++
        (leBytes 2 ((m.schema.map Schema.toNat).getD nullSchema) ++
          (leBytes 8 m.start.toNat ++ (leBytes 8
            ((m.endTs.map (fun e => e.val.toNat)).getD undefTimestamp) ++
            (leBytes 8 ((m.limit.map (fun l => l.val.toNat)).getD nullLimit) ++
              ((if m.version = 1 then leBytes 8 nullRecordCount else []) ++
                (stypeBytes m ++ (reservedBytes m ++ rest))))))) := by
    unfold fixedBytes rangeBytes
    simp only [List.append_assoc]
  have hstypes : forall width i, uintAt width (fixedBytes m ++ rest)
      (stypeOffset m.version + i) =
        uintAt width (stypeBytes m ++ (reservedBytes m ++ rest)) i := by
    intro width i
    rw [hlayout, hoffset]
    simp only [Nat.add_assoc, Nat.zero_add, uintAt_skip hdataset,
      uintAt_skip (length_leBytes _ _), uintAt_skip hcount]
  refine ⟨?_, ?_, ?_, ?_, ?_, ?_, ?_, ?_, ?_⟩
  · rw [hlayout]
    exact List.take_left' hdataset
  · rw [hlayout, show 16 = 16 + 0 from rfl, uintAt_skip hdataset,
      uintAt_leBytes hschema]
  · rw [hlayout, show 18 = 16 + (2 + 0) from rfl, uintAt_skip hdataset,
      uintAt_skip (length_leBytes _ _), uintAt_leBytes m.start.toNat_lt]
  · rw [hlayout, show 26 = 16 + (2 + (8 + 0)) from rfl, uintAt_skip hdataset,
      uintAt_skip (length_leBytes _ _), uintAt_skip (length_leBytes _ _),
      uintAt_leBytes (getD_toNat_lt (by decide))]
  · rw [hlayout, show 34 = 16 + (2 + (8 + (8 + 0))) from rfl,
      uintAt_skip hdataset, uintAt_skip (length_leBytes _ _),
      uintAt_skip (length_leBytes _ _), uintAt_skip (length_leBytes _ _),
      uintAt_leBytes (getD_toNat_lt (by decide))]
  · rw [← Nat.add_zero (stypeOffset m.version), hstypes]
    unfold stypeBytes
    rw [List.cons_append, uintAt_cons, UInt8.toNat_ofNat',
      Nat.mod_eq_of_lt hstypeIn]
  · rw [hstypes]
    unfold stypeBytes
    rw [List.cons_append, uintAt_cons_succ, List.cons_append, uintAt_cons,
      UInt8.toNat_ofNat', Nat.mod_eq_of_lt (by omega)]
  · rw [hstypes]
    unfold stypeBytes
    rw [List.cons_append, uintAt_cons_succ, List.cons_append,
      uintAt_cons_succ, List.cons_append, uintAt_cons]
    split <;> rfl
  · unfold declaredCstrLen
    split
    · next hone => exact (h.cstrLenV1 hone).symm
    · next hone =>
        have hoffset' : stypeOffset m.version = 42 := if_neg hone
        have hgt : m.version > 1 := by omega
        have hfield := hstypes 2 3
        rw [hoffset'] at hfield
        rw [hfield]
        unfold stypeBytes reservedBytes
        rw [if_pos hgt, List.cons_append, uintAt_cons_succ, List.cons_append,
          uintAt_cons_succ, List.cons_append, uintAt_cons_succ,
          List.nil_append, List.append_assoc,
          uintAt_leBytes (Nat.lt_succ_of_le h.cstrLen_le)]

omit [CalendarDate D] in
theorem decodeFixedFields_fixedBytes {m : Metadata D} (h : EncodableFixed m)
    (rest : List UInt8) :
    decodeFixedFields m.version (fixedBytes m ++ rest) =
      Res.ok (fixedOf m, metadataFixedLen) := by
  have hfields := encodedFields_fixedBytes h rest
  have hoffset := stypeOffset_le m.version
  have hlen : metadataFixedLen ≤ (fixedBytes m ++ rest).length := by
    rw [List.length_append, length_fixedBytes h]
    omega
  have hdataset : trimmedUtf8 ((fixedBytes m ++ rest).take
      metadataDatasetCstrLen) = Res.ok m.dataset := by
    rw [hfields.dataset]
    exact (symbolGrammar_cstrBytes h.dataset).2
  have hbound : 100 ≤ (fixedBytes m ++ rest).length := hlen
  rw [decodeFixedFields_eq hlen, hdataset,
    decodeSchema_of_uintAt (by omega) hfields.schema,
    decodeOptSType_of_uintAt (by omega) hfields.stypeIn,
    decodeSType_of_uintAt (by omega) hfields.stypeOut, hfields.start,
    hfields.endTs, hfields.limit, hfields.tsOut, hfields.cstrLen,
    uint64_ofNat_getD, uint64_ofNat_getD]
  have hlimit : NonZeroU64.new
      ((m.limit.map Subtype.val).getD (UInt64.ofNat nullLimit)) = m.limit := by
    cases m.limit with
    | none => rfl
    | some l => exact NonZeroU64.new_val l
  have htsOut : ((if m.tsOut then 1 else 0) != 0) = m.tsOut := by
    cases m.tsOut <;> rfl
  rw [hlimit, htsOut, UInt64.ofNat_toNat]
  rfl

end Fixed

/-!
## The block
-/

section Block

variable {m : Metadata D} {policy : VersionUpgradePolicy}

theorem drop_encodedBytes (m : Metadata D) (rest : List UInt8) :
    (encodedBytes m ++ rest).drop metadataPreludeLen = blockBytes m ++ rest := by
  unfold encodedBytes
  rw [List.append_assoc]
  exact List.drop_left' (by simp [preludeBytes, dbnPrefix, asciiBytes])

/-- The prelude is accepted if the declared length has not wrapped around. -/
theorem acceptsPrelude_of_calcLength (h : EncodableFixed m)
    (hcompat : policy.Compatible m.version)
    (hlen : (calcLength m).1 = (blockBytes m).length) (rest : List UInt8) :
    AcceptsPrelude policy (encodedBytes m ++ rest) m.version
      (blockBytes m).length := by
  have hversion := h.version_le
  have hpos := h.version_pos
  have hlt := calcLength_lt m
  have hlayout : encodedBytes m ++ rest = dbnPrefix ++
      (UInt8.ofNat m.version :: (leBytes 4 (blockBytes m).length ++
        (blockBytes m ++ rest))) := by
    unfold encodedBytes preludeBytes
    rw [hlen, Nat.max_eq_left hpos]
    simp
  refine ⟨?_, ?_, ?_, hversion, hcompat, ?_, ?_⟩
  · rw [List.length_append, length_encodedBytes, metadataPreludeLen_eq]
    omega
  · rw [hlayout]
    exact List.take_left' rfl
  · rw [hlayout, ← Nat.add_zero dbnPrefix.length, uintAt_skip rfl, uintAt_cons,
      UInt8.toNat_ofNat', Nat.mod_eq_of_lt]
    unfold dbnVersion at hversion
    omega
  · have hfield : uintAt 4 (encodedBytes m ++ rest)
        (dbnPrefix.length + (0 + 1)) = (blockBytes m).length := by
      rw [hlayout, uintAt_skip rfl, uintAt_cons_succ,
        uintAt_leBytes (by omega)]
    exact hfield.symm
  · unfold blockBytes
    rw [List.length_append, length_fixedBytes h]
    omega

/-- The prelude of encoded metadata is accepted. -/
theorem acceptsPrelude_encodedBytes (h : Encodable m)
    (hcompat : policy.Compatible m.version) (rest : List UInt8) :
    AcceptsPrelude policy (encodedBytes m ++ rest) m.version
      (blockBytes m).length :=
  acceptsPrelude_of_calcLength h.fixed hcompat (calcLength_eq h) rest

/-- The block is decoded, whatever follows it. -/
theorem Rereads.decodes (h : Rereads m) {rest : List UInt8}
    (hmax : (blockBytes m ++ rest).length ≤ isizeMax) :
    decodeMetadataImpl m.version (blockBytes m ++ rest) = Res.ok m := by
  have hfixed := length_fixedBytes h.fixed
  have hlayout : blockBytes m ++ rest = fixedBytes m ++ (leBytes 4 0 ++
      (listsBytes m ++ (List.replicate (calcLength m).2 0 ++ rest))) := by
    unfold blockBytes
    simp only [List.append_assoc]
  have hlen : listsOffset ≤ (blockBytes m ++ rest).length := by
    rw [hlayout, List.length_append, List.length_append, hfixed,
      length_leBytes, listsOffset]
    omega
  rw [decodeMetadataImpl_eq_ok_iff hlen hmax]
  refine ⟨fixedOf m, listsBytes m, listsOf m, ?_, ?_, ?_, ?_,
    (metadataOf_fixedOf h.fixed).symm⟩
  · rw [hlayout]
    exact decodeFixedFields_fixedBytes h.fixed _
  · rw [hlayout, ← Nat.add_zero metadataFixedLen, uintAt_skip hfixed,
      uintAt_leBytes (by decide)]
  · have hdrop : (blockBytes m ++ rest).drop listsOffset =
        listsBytes m ++ (List.replicate (calcLength m).2 0 ++ rest) := by
      rw [hlayout, ← List.append_assoc]
      exact List.drop_left' (by rw [List.length_append, hfixed]; rfl)
    rw [hdrop]
    exact List.prefix_append _ _
  · have hcstrLen : declaredCstrLen m.version (blockBytes m ++ rest) =
        m.symbolCstrLen := by
      rw [hlayout]
      exact (encodedFields_fixedBytes h.fixed _).cstrLen
    rw [hcstrLen]
    exact listsGrammar_listsBytes h

end Block

/-!
## The machine
-/

section Machine

variable [Buffer B] [LawfulBuffer B] {policy : VersionUpgradePolicy}
  {fsm : DbnFsm B} {fed : List UInt8}

/-- The machine has decoded the metadata and is about to decode records. -/
structure StartsRecords (policy : VersionUpgradePolicy) (m : Metadata D)
    (rest : List UInt8) (fsm : DbnFsm B) : Prop where
  state : fsm.state = .record
  inputDbnVersion : fsm.inputDbnVersion = some m.version
  upgradePolicy : fsm.upgradePolicy = policy
  tsOut : fsm.tsOut = m.tsOut
  data : fsm.data = rest
  inv : fsm.Inv

/-- A machine that holds encoded metadata returns it. -/
theorem Holds.process_encodedBytes [LawfulCalendarDate D] {m : Metadata D}
    {rest : List UInt8} (hm : Encodable m)
    (hcompat : policy.Compatible m.version)
    (h : Holds policy fsm (encodedBytes m ++ rest))
    (hmax : (encodedBytes m ++ rest).length ≤ isizeMax) :
    exists fsm',
      fsm.process = .ret (.metadata (m.upgrade policy), fsm') ∧
      StartsRecords policy m rest fsm' := by
  have hlen : (blockBytes m ++ rest).length ≤ isizeMax := by
    rw [List.length_append, length_encodedBytes] at hmax
    rw [List.length_append]
    omega
  obtain ⟨fsm', hholds, hstate, hversion, hdata, hprocess⟩ :=
    h.process_block (acceptsPrelude_encodedBytes hm hcompat rest)
      (by rw [drop_encodedBytes, List.length_append]; omega)
      (by rw [drop_encodedBytes]; exact (rereads_of_encodable hm).decodes hlen)
  rw [drop_encodedBytes] at hdata
  have hinv := hholds.inv
  unfold Inv at hinv
  rw [hstate] at hinv
  refine ⟨fsm'.metadataDone (blockBytes m).length m.tsOut, hprocess, rfl,
    hversion, hholds.upgradePolicy, rfl, ?_, ?_⟩
  · unfold data metadataDone
    simp [hdata]
  · exact ⟨hinv.1, hinv.2.1⟩

end Machine

omit [CalendarDate D] in
theorem upgrade_asIs {m : Metadata D}
    (h : m.version = 1 -> m.symbolCstrLen = symbolCstrLenV1)
    (hpos : 1 ≤ m.version) : m.upgrade .asIs = m := by
  unfold Metadata.upgrade
  split
  · rw [← h (by omega)]
  · rw [if_neg (by simp)]

/-- A machine that was built to expect metadata. -/
theorem holds_build [Buffer B] [LawfulBuffer B] {b : DbnFsmBuilder}
    {start : DbnFsm B} (hbuild : b.build = Res.ok start)
    (hskip : b.skipMetadata = false) : Holds b.upgradePolicy start [] := by
  have hstart := DbnFsmBuilder.build_eq_ok hbuild
  refine ⟨inv_build hbuild, by rw [hstart], Or.inl ⟨?_, ?_⟩⟩
  · rw [hstart]
    simp [hskip]
  · rw [hstart]
    simp

/--
Decoding undoes encoding.  The encoder succeeds on encodable metadata, and a
machine that is given its output and keeps the version returns the metadata
and leaves no byte of it.
-/
theorem decode_encode_metadata (B : Type) {D : Type} [Buffer B]
    [LawfulBuffer B] [CalendarDate D] [LawfulCalendarDate D]
    {b : DbnFsmBuilder} {start : DbnFsm B} (hbuild : b.build = Res.ok start)
    (hskip : b.skipMetadata = false) (hpolicy : b.upgradePolicy = .asIs)
    {m : Metadata D} (hm : Encodable m) :
    exists bytes fsm, encode m [] = (Res.ok (), bytes) ∧
      (start.writeAll bytes).process = .ret (.metadata m, fsm) ∧
      fsm.RecordPhase ∧ fsm.data = [] := by
  have hholds := (holds_build hbuild hskip).writeAll (encodedBytes m ++ [])
  have hlt := hm.length_lt
  have hcompat : VersionUpgradePolicy.Compatible .asIs m.version := by
    simp [VersionUpgradePolicy.Compatible]
  rw [List.nil_append, hpolicy] at hholds
  obtain ⟨fsm, hprocess, hdone⟩ := hholds.process_encodedBytes hm hcompat
    (by rw [List.append_nil]; unfold isizeMax; omega)
  refine ⟨encodedBytes m, fsm, writes_encode hm.accepts [], ?_,
    recordPhase_iff.mpr (Or.inl hdone.state), hdone.data⟩
  rw [List.append_nil, upgrade_asIs hm.cstrLenV1 hm.version_pos] at hprocess
  exact hprocess

/-- Metadata of a version, with a mapping of a symbol. -/
def sampleMetadata (version symbolCstrLen : Nat) : Metadata GregorianDate where
  version := version
  dataset := ⟨asciiBytes "GLBX.MDP3", by decide⟩
  schema := some .mbo
  start := 1672531200000000000
  endTs := none
  limit := none
  stypeIn := some .rawSymbol
  stypeOut := .instrumentId
  tsOut := false
  symbolCstrLen := symbolCstrLen
  symbols := [⟨asciiBytes "ESH3", by decide⟩]
  partialSymbols := []
  notFound := [⟨asciiBytes "ESX", by decide⟩]
  mappings :=
    [{ rawSymbol := ⟨asciiBytes "ESH3", by decide⟩
       intervals :=
        [{ startDate := ⟨2023, 1, 1, by decide⟩
           endDate := ⟨2023, 3, 18, by decide⟩
           symbol := ⟨asciiBytes "3403", by decide⟩ }] }]

theorem encodable_sampleMetadata : Encodable (sampleMetadata 3 71) := by
  decide +kernel

theorem decode_encode_metadata_sample :
    exists bytes fsm, encode (sampleMetadata 3 71) [] = (Res.ok (), bytes) ∧
      (({ (DbnFsm.new 16 0 : DbnFsm VecBuffer) with
          upgradePolicy := .asIs }).writeAll bytes).process =
        .ret (.metadata (sampleMetadata 3 71), fsm) ∧
      fsm.RecordPhase ∧ fsm.data = [] :=
  decode_encode_metadata VecBuffer
    (b := { (default : DbnFsmBuilder) with upgradePolicy := .asIs, bufferSize := 16 })
    rfl rfl rfl encodable_sampleMetadata

end DbnFsm
end Dbn
