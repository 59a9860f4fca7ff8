import Dbn.Encode.MetadataEncoder

/-!
# What the metadata encoder writes

The bytes of encodable metadata, piece by piece: every function of the encoder
succeeds on them and appends its piece, and the declared length is the number
of bytes after the prelude.
-/

namespace Dbn
namespace MetadataEncoder

open Lib
open Lib.WriteM (Writes writes_writeAll writes_forEach writes_pure)

variable {D : Type} [CalendarDate D]

/-!
## Encodable metadata
-/

/-- ASCII text that leaves room for a NUL and does not end in one. -/
structure FitsCstr (len : Nat) (s : Str) : Prop where
  ascii : s.isAscii = true
  short : s.len < len
  last : s.bytes.getLast? ≠ some 0

instance (len : Nat) (s : Str) : Decidable (FitsCstr len s) :=
  decidable_of_iff
    (s.isAscii = true ∧ s.len < len ∧ s.bytes.getLast? ≠ some 0)
    ⟨fun h => ⟨h.1, h.2.1, h.2.2⟩, fun h => ⟨h.ascii, h.short, h.last⟩⟩

/-- A date with a year of at most four digits. -/
def EncodableDate (date : D) : Prop :=
  0 ≤ CalendarDate.year date ∧ CalendarDate.year date ≤ 9999

instance (date : D) : Decidable (EncodableDate date) :=
  inferInstanceAs (Decidable (_ ∧ _))

structure EncodableInterval (len : Nat) (interval : MappingInterval D) :
    Prop where
  startDate : EncodableDate interval.startDate
  endDate : EncodableDate interval.endDate
  symbol : FitsCstr len interval.symbol

instance (len : Nat) (interval : MappingInterval D) :
    Decidable (EncodableInterval len interval) :=
  decidable_of_iff
    (EncodableDate interval.startDate ∧ EncodableDate interval.endDate ∧
      FitsCstr len interval.symbol)
    ⟨fun h => ⟨h.1, h.2.1, h.2.2⟩,
      fun h => ⟨h.startDate, h.endDate, h.symbol⟩⟩

structure EncodableMapping (len : Nat) (mapping : SymbolMapping D) :
    Prop where
  rawSymbol : FitsCstr len mapping.rawSymbol
  intervals : forall interval, interval ∈ mapping.intervals ->
    EncodableInterval len interval

instance (len : Nat) (mapping : SymbolMapping D) :
    Decidable (EncodableMapping len mapping) :=
  decidable_of_iff
    (FitsCstr len mapping.rawSymbol ∧
      forall interval, interval ∈ mapping.intervals ->
        EncodableInterval len interval)
    ⟨fun h => ⟨h.1, h.2⟩, fun h => ⟨h.rawSymbol, h.intervals⟩⟩

/-- Text in a field of `len` bytes. -/
def cstrBytes (len : Nat) (s : Str) : List UInt8 :=
  s.bytes ++ List.replicate (len - s.len) 0

def dateBytes (date : D) : List UInt8 :=
  leBytes 4 (dateInt date)

def intervalBytes (len : Nat) (interval : MappingInterval D) : List UInt8 :=
  dateBytes interval.startDate ++
    (dateBytes interval.endDate ++ cstrBytes len interval.symbol)

/-- A list after its number of elements. -/
def countedBytes {α : Type} (encode : α -> List UInt8) (as : List α) :
    List UInt8 :=
  leBytes 4 as.length ++ as.flatMap encode

def mappingBytes (len : Nat) (mapping : SymbolMapping D) : List UInt8 :=
  cstrBytes len mapping.rawSymbol ++
    countedBytes (intervalBytes len) mapping.intervals

/-- The lists of symbols and of mappings. -/
def listsBytes (m : Metadata D) : List UInt8 :=
  countedBytes (cstrBytes m.symbolCstrLen) m.symbols ++
    (countedBytes (cstrBytes m.symbolCstrLen) m.partialSymbols ++
      (countedBytes (cstrBytes m.symbolCstrLen) m.notFound ++
        countedBytes (mappingBytes m.symbolCstrLen) m.mappings))

omit [CalendarDate D] in
/-- The range, the limit and, in version 1, the record count. -/
def rangeBytes (m : Metadata D) : List UInt8 :=
  leBytes 8 m.start.toNat ++
    (leBytes 8 ((m.endTs.map (fun e => e.val.toNat)).getD undefTimestamp) ++
      (leBytes 8 ((m.limit.map (fun l => l.val.toNat)).getD nullLimit) ++
        if m.version = 1 then leBytes 8 nullRecordCount else []))

/-- The length of symbols, from version 2 on, and the reserved bytes. -/
def reservedBytes (m : Metadata D) : List UInt8 :=
  (if m.version > 1 then leBytes 2 m.symbolCstrLen else []) ++
    List.replicate
      (if m.version = 1 then metadataReservedLenV1 else metadataReservedLen) 0

/-- The fields of fixed length. -/
def fixedBytes (m : Metadata D) : List UInt8 :=
  cstrBytes metadataDatasetCstrLen m.dataset ++
    (leBytes 2 ((m.schema.map Schema.toNat).getD nullSchema) ++
      (rangeBytes m ++ (stypeBytes m ++ reservedBytes m)))

/-- What follows the prelude. -/
def blockBytes (m : Metadata D) : List UInt8 :=
  fixedBytes m ++
    (leBytes 4 0 ++
      (listsBytes m ++ List.replicate (calcLength m).2 0))

def preludeBytes (m : Metadata D) : List UInt8 :=
  dbnPrefix ++ ([UInt8.ofNat (max m.version 1)] ++ leBytes 4 (calcLength m).1)

/-- The encoded metadata. -/
def encodedBytes (m : Metadata D) : List UInt8 :=
  preludeBytes m ++ blockBytes m

/-- Metadata that can be encoded without loss. -/
structure Encodable (m : Metadata D) : Prop where
  version_pos : 1 ≤ m.version
  version_le : m.version ≤ dbnVersion
  cstrLenV1 : m.version = 1 -> m.symbolCstrLen = symbolCstrLenV1
  cstrLen_pos : 1 ≤ m.symbolCstrLen
  cstrLen_le : m.symbolCstrLen ≤ 65535
  dataset : FitsCstr metadataDatasetCstrLen m.dataset
  symbols : forall s, s ∈ m.symbols -> FitsCstr m.symbolCstrLen s
  partialSymbols : forall s, s ∈ m.partialSymbols -> FitsCstr m.symbolCstrLen s
  notFound : forall s, s ∈ m.notFound -> FitsCstr m.symbolCstrLen s
  mappings : forall mapping, mapping ∈ m.mappings ->
    EncodableMapping m.symbolCstrLen mapping
  endTs : forall e, e ∈ m.endTs -> e.val.toNat ≠ undefTimestamp
  length_lt : (encodedBytes m).length < 2 ^ 32

instance (m : Metadata D) : Decidable (Encodable m) :=
  decidable_of_iff
    ((1 ≤ m.version ∧ m.version ≤ dbnVersion) ∧
      (m.version = 1 -> m.symbolCstrLen = symbolCstrLenV1) ∧
      (1 ≤ m.symbolCstrLen ∧ m.symbolCstrLen ≤ 65535) ∧
      FitsCstr metadataDatasetCstrLen m.dataset ∧
      (forall s, s ∈ m.symbols -> FitsCstr m.symbolCstrLen s) ∧
      (forall s, s ∈ m.partialSymbols -> FitsCstr m.symbolCstrLen s) ∧
      (forall s, s ∈ m.notFound -> FitsCstr m.symbolCstrLen s) ∧
      (forall mapping, mapping ∈ m.mappings ->
        EncodableMapping m.symbolCstrLen mapping) ∧
      (m.endTs.all fun e => e.val.toNat ≠ undefTimestamp) = true ∧
      (encodedBytes m).length < 2 ^ 32)
    ⟨fun ⟨⟨h1, h2⟩, h3, ⟨h4, h5⟩, h6, h7, h8, h9, h10, h11, h12⟩ =>
      ⟨h1, h2, h3, h4, h5, h6, h7, h8, h9, h10,
        fun e he => of_decide_eq_true ((Option.all_eq_true _ _).mp h11 e he), h12⟩,
      fun ⟨h1, h2, h3, h4, h5, h6, h7, h8, h9, h10, h11, h12⟩ =>
        ⟨⟨h1, h2⟩, h3, ⟨h4, h5⟩, h6, h7, h8, h9, h10,
          (Option.all_eq_true _ _).mpr fun e he => decide_eq_true (h11 e he), h12⟩⟩

/-!
## Metadata that the encoder accepts
-/

/-- The check of `encode_fixed_len_cstr`. -/
def AcceptsCstr (len : Nat) (s : Str) : Prop :=
  s.isAscii = true ∧ s.len < len

def AcceptsMapping (len : Nat) (mapping : SymbolMapping D) : Prop :=
  AcceptsCstr len mapping.rawSymbol ∧
    forall interval, interval ∈ mapping.intervals ->
      AcceptsCstr len interval.symbol

/-- All checks of the encoder. -/
structure Accepts (m : Metadata D) : Prop where
  version_le : m.version ≤ dbnVersion
  dataset : AcceptsCstr metadataDatasetCstrLen m.dataset
  symbols : forall s, s ∈ m.symbols -> AcceptsCstr m.symbolCstrLen s
  partialSymbols : forall s, s ∈ m.partialSymbols ->
    AcceptsCstr m.symbolCstrLen s
  notFound : forall s, s ∈ m.notFound -> AcceptsCstr m.symbolCstrLen s
  mappings : forall mapping, mapping ∈ m.mappings ->
    AcceptsMapping m.symbolCstrLen mapping

theorem FitsCstr.accepts {len : Nat} {s : Str} (h : FitsCstr len s) :
    AcceptsCstr len s :=
  ⟨h.ascii, h.short⟩

theorem EncodableMapping.accepts {len : Nat} {mapping : SymbolMapping D}
    (h : EncodableMapping len mapping) : AcceptsMapping len mapping :=
  ⟨h.rawSymbol.accepts,
    fun interval hin => (h.intervals interval hin).symbol.accepts⟩

/-- The fields of fixed length can be encoded without loss. -/
structure EncodableFixed (m : Metadata D) : Prop where
  version_pos : 1 ≤ m.version
  version_le : m.version ≤ dbnVersion
  cstrLenV1 : m.version = 1 -> m.symbolCstrLen = symbolCstrLenV1
  cstrLen_le : m.symbolCstrLen ≤ 65535
  dataset : FitsCstr metadataDatasetCstrLen m.dataset
  endTs : forall e, e ∈ m.endTs -> e.val.toNat ≠ undefTimestamp

theorem Encodable.fixed {m : Metadata D} (h : Encodable m) :
    EncodableFixed m where
  version_pos := h.version_pos
  version_le := h.version_le
  cstrLenV1 := h.cstrLenV1
  cstrLen_le := h.cstrLen_le
  dataset := h.dataset
  endTs := h.endTs

theorem Encodable.accepts {m : Metadata D} (h : Encodable m) : Accepts m where
  version_le := h.version_le
  dataset := h.dataset.accepts
  symbols := fun s hs => (h.symbols s hs).accepts
  partialSymbols := fun s hs => (h.partialSymbols s hs).accepts
  notFound := fun s hs => (h.notFound s hs).accepts
  mappings := fun mapping hin => (h.mappings mapping hin).accepts

/-!
## The encoder succeeds
-/

section Writes

variable {len : Nat}

theorem flatMap_replicate_nul (n : Nat) :
    (List.range n).flatMap (fun _ => [(0 : UInt8)]) = List.replicate n 0 := by
  rw [← List.map_eq_flatMap, List.map_const', List.length_range]

theorem writes_encodeFixedLenCstr {s : Str} (h : AcceptsCstr len s) :
    Writes (encodeFixedLenCstr len s) (cstrBytes len s) := by
  unfold encodeFixedLenCstr cstrBytes
  rw [if_neg (by simp [h.1]), if_neg (Nat.not_le.mpr h.2),
    ← flatMap_replicate_nul]
  exact (writes_writeAll _ _).bind
    (writes_forEach (fun _ _ => writes_writeAll _ _))

theorem writes_encodeRepeatedSymbolCstr {symbols : List Str}
    (h : forall s, s ∈ symbols -> AcceptsCstr len s) :
    Writes (encodeRepeatedSymbolCstr len symbols)
      (countedBytes (cstrBytes len) symbols) :=
  (writes_writeAll _ _).bind
    (writes_forEach (fun s hs => writes_encodeFixedLenCstr (h s hs)))

theorem writes_encodeMappingInterval {interval : MappingInterval D}
    (h : AcceptsCstr len interval.symbol) :
    Writes (encodeMappingInterval len interval)
      (intervalBytes len interval) :=
  (writes_writeAll _ _).bind
    ((writes_writeAll _ _).bind (writes_encodeFixedLenCstr h))

theorem writes_encodeSymbolMapping {mapping : SymbolMapping D}
    (h : AcceptsMapping len mapping) :
    Writes (encodeSymbolMapping len mapping) (mappingBytes len mapping) :=
  (writes_encodeFixedLenCstr h.1).bind
    ((writes_writeAll _ _).bind (writes_forEach
      (fun interval hin => writes_encodeMappingInterval
        (h.2 interval hin))))

theorem writes_encodeSymbolMappings {mappings : List (SymbolMapping D)}
    (h : forall mapping, mapping ∈ mappings -> AcceptsMapping len mapping) :
    Writes (encodeSymbolMappings len mappings)
      (countedBytes (mappingBytes len) mappings) :=
  (writes_writeAll _ _).bind
    (writes_forEach (fun mapping hin => writes_encodeSymbolMapping
      (h mapping hin)))

omit [CalendarDate D] in
theorem writes_encodeRangeAndCounts (m : Metadata D) :
    Writes (encodeRangeAndCounts m.version m.start m.endTs m.limit)
      (rangeBytes m) := by
  unfold encodeRangeAndCounts rangeBytes
  refine (writes_writeAll _ _).bind ((writes_writeAll _ _).bind
    ((writes_writeAll _ _).bind ?_))
  split
  · exact writes_writeAll _ _
  · exact writes_pure

omit [CalendarDate D] in
theorem writes_padding (n : Nat) :
    Writes (if n > 0 then WriteM.writeAll metadataErr (List.replicate n 0)
      else pure ()) (List.replicate n 0) := by
  split
  · exact writes_writeAll _ _
  · next hzero =>
      rw [Nat.eq_zero_of_not_pos hzero]
      exact writes_pure

/-- The encoder succeeds on what it accepts and writes its bytes. -/
theorem writes_encode {m : Metadata D} (h : Accepts m) :
    Writes (encode m) (encodedBytes m) := by
  unfold encode encodedBytes preludeBytes blockBytes fixedBytes reservedBytes
    listsBytes
  rw [if_neg (Nat.not_lt.mpr h.version_le)]
  simp only [List.append_assoc]
  refine (writes_writeAll _ _).bind ((writes_writeAll _ _).bind
    ((writes_writeAll _ _).bind ?_))
  refine (writes_encodeFixedLenCstr h.dataset).bind
    ((writes_writeAll _ _).bind ((writes_encodeRangeAndCounts m).bind
      ((writes_writeAll _ _).bind ((writes_writeAll _ _).optional
        ((writes_writeAll _ _).bind ((writes_writeAll _ _).bind ?_))))))
  exact (writes_encodeRepeatedSymbolCstr h.symbols).bind
    ((writes_encodeRepeatedSymbolCstr h.partialSymbols).bind
      ((writes_encodeRepeatedSymbolCstr h.notFound).bind
        ((writes_encodeSymbolMappings h.mappings).bind (writes_padding _))))

end Writes

/-!
## The declared length
-/

section Length

theorem length_cstrBytes {len : Nat} {s : Str} (h : s.len < len) :
    (cstrBytes len s).length = len := by
  unfold cstrBytes Str.len at *
  rw [List.length_append, List.length_replicate]
  omega

theorem length_countedBytes {α : Type} {encode : α -> List UInt8}
    (size : α -> Nat) {as : List α}
    (h : forall a, a ∈ as -> (encode a).length = size a) :
    (countedBytes encode as).length = 4 + (as.map size).sum := by
  unfold countedBytes
  rw [List.length_append, length_leBytes, List.length_flatMap]
  congr 1
  exact congrArg List.sum (List.map_congr_left h)

theorem length_symbols {len : Nat} {symbols : List Str}
    (h : forall s, s ∈ symbols -> AcceptsCstr len s) :
    (countedBytes (cstrBytes len) symbols).length =
      4 + symbols.length * len := by
  rw [length_countedBytes (fun _ => len)
    (fun s hs => length_cstrBytes (h s hs).2)]
  simp

theorem length_intervalBytes {len : Nat} {interval : MappingInterval D}
    (h : AcceptsCstr len interval.symbol) :
    (intervalBytes len interval).length = 4 * 2 + len := by
  unfold intervalBytes dateBytes
  simp only [List.length_append, length_leBytes, length_cstrBytes h.2]
  omega

theorem length_mappingBytes {len : Nat} {mapping : SymbolMapping D}
    (h : AcceptsMapping len mapping) :
    (mappingBytes len mapping).length =
      len + 4 + mapping.intervals.length * (4 * 2 + len) := by
  unfold mappingBytes
  rw [List.length_append, length_cstrBytes h.1.2,
    length_countedBytes (fun _ => 4 * 2 + len)
      (fun interval hin => length_intervalBytes (h.2 interval hin))]
  simp
  omega

omit [CalendarDate D] in
/-- In version 0 neither the record count nor the symbol length is written. -/
theorem length_fixedBytes_eq {m : Metadata D}
    (h : AcceptsCstr metadataDatasetCstrLen m.dataset) :
    (fixedBytes m).length + (if m.version = 0 then 2 else 0) =
      metadataFixedLen := by
  have hdataset := length_cstrBytes h.2
  unfold fixedBytes rangeBytes reservedBytes stypeBytes
  simp only [List.length_append, length_leBytes, hdataset]
  by_cases hzero : m.version = 0
  · simp [hzero, metadataDatasetCstrLen, metadataReservedLen,
      metadataFixedLen]
  by_cases hversion : m.version = 1
  · simp [hversion, metadataDatasetCstrLen, metadataReservedLenV1,
      metadataFixedLen]
  · have hgt : m.version > 1 := by omega
    simp [hversion, hzero, hgt, metadataDatasetCstrLen, metadataReservedLen,
      metadataFixedLen]

omit [CalendarDate D] in
theorem length_fixedBytes {m : Metadata D} (h : EncodableFixed m) :
    (fixedBytes m).length = metadataFixedLen := by
  have hfixed := length_fixedBytes_eq h.dataset.accepts
  rw [if_neg (Nat.ne_of_gt h.version_pos)] at hfixed
  exact hfixed

/-- The number of bytes before the padding. -/
def neededLen (m : Metadata D) : Nat :=
  metadataFixedLen + 4 + (listsBytes m).length

theorem length_listsBytes {m : Metadata D} (h : Accepts m) :
    (listsBytes m).length = 4 * 4 +
      (m.symbols.length + m.partialSymbols.length + m.notFound.length) *
        m.symbolCstrLen +
      (m.mappings.map (fun mapping => m.symbolCstrLen + 4 +
        mapping.intervals.length * (4 * 2 + m.symbolCstrLen))).sum := by
  unfold listsBytes
  rw [List.length_append, List.length_append, List.length_append,
    length_symbols h.symbols, length_symbols h.partialSymbols,
    length_symbols h.notFound,
    length_countedBytes _ (fun mapping hin => length_mappingBytes
      (h.mappings mapping hin))]
  ring

theorem length_encodedBytes (m : Metadata D) :
    (encodedBytes m).length = 8 + (blockBytes m).length := by
  unfold encodedBytes preludeBytes
  simp [dbnPrefix, asciiBytes]
  omega

theorem length_blockBytes_eq {m : Metadata D} (h : Accepts m) :
    (blockBytes m).length + (if m.version = 0 then 2 else 0) =
      neededLen m + (calcLength m).2 := by
  have hfixed := length_fixedBytes_eq h.dataset
  unfold blockBytes neededLen
  simp only [List.length_append, length_leBytes, List.length_replicate]
  omega

theorem length_blockBytes {m : Metadata D} (h : Encodable m) :
    (blockBytes m).length = neededLen m + (calcLength m).2 := by
  have hblock := length_blockBytes_eq h.accepts
  rw [if_neg (Nat.ne_of_gt h.version_pos)] at hblock
  exact hblock

omit [CalendarDate D] in
theorem calcLength_lt (m : Metadata D) : (calcLength m).1 < 2 ^ 32 := by
  unfold calcLength
  dsimp only
  split
  · exact Nat.mod_lt _ (by decide)
  · exact Nat.mod_lt _ (by decide)

/-- The formula for the length in terms of the bytes. -/
theorem calcLength_neededLen {m : Metadata D} (h : Accepts m) :
    calcLength m =
      if m.version < 3 ∨ neededLen m % 2 ^ 32 % 8 = 0 then
        (neededLen m % 2 ^ 32, 0)
      else
        ((neededLen m % 2 ^ 32 + (8 - neededLen m % 2 ^ 32 % 8)) % 2 ^ 32,
          8 - neededLen m % 2 ^ 32 % 8) := by
  have hneeded : metadataFixedLen + 4 * 5 +
      (m.symbols.length + m.partialSymbols.length + m.notFound.length) *
        m.symbolCstrLen +
      (m.mappings.map (fun mapping => m.symbolCstrLen + 4 +
        mapping.intervals.length * (4 * 2 + m.symbolCstrLen))).sum =
      neededLen m := by
    unfold neededLen
    rw [length_listsBytes h]
    omega
  unfold calcLength
  dsimp only
  rw [hneeded]

/-- The declared length is the formula for the needed length, rounded up. -/
theorem calcLength_eq_neededLen {m : Metadata D} (h : Accepts m)
    (hlt : neededLen m + (calcLength m).2 < 2 ^ 32) :
    (calcLength m).1 = neededLen m + (calcLength m).2 := by
  rw [calcLength_neededLen h] at hlt ⊢
  rw [Nat.mod_eq_of_lt (show neededLen m < 2 ^ 32 by omega)] at hlt ⊢
  split at hlt <;> rename_i hround
  · rw [if_pos hround]
    rfl
  · rw [if_neg hround]
    exact Nat.mod_eq_of_lt hlt

/-- The encoder declares the number of bytes that follow the prelude. -/
theorem calcLength_eq {m : Metadata D} (h : Encodable m) :
    (calcLength m).1 = (blockBytes m).length := by
  have hlt := h.length_lt
  rw [length_encodedBytes, length_blockBytes h] at hlt
  rw [length_blockBytes h]
  exact calcLength_eq_neededLen h.accepts (by omega)

end Length

end MetadataEncoder
end Dbn
