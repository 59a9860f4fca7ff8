import Dbn.Decode.UpdatedStream

/-!
# Reading metadata again

Metadata that the encoder and the decoder return as it was consists of texts
and dates that are read from their own bytes.  So its block is decoded whatever
follows it, and so is the block of the upgraded metadata, in which the symbols
have more room.
-/

namespace Dbn
namespace DbnFsm

open Lib
open Lib.Grammar (counted of_counted_flatMap)
open MetadataEncoder

variable {B D : Type} [CalendarDate D]

/-!
## What was read
-/

section Grammar

variable {len : Nat}

theorem last_of_trimmedUtf8 {bytes : List UInt8} {s : Str}
    (h : trimmedUtf8 bytes = Res.ok s) : s.bytes.getLast? ≠ some 0 := by
  unfold trimmedUtf8 at h
  split at h
  · cases h
    exact Str.getLast?_trimEndNul _
  · cases h

theorem fitsCstr_of_symbolGrammar {bytes : List UInt8} {s : Str}
    (haccepts : AcceptsCstr len s) (h : symbolGrammar len bytes s) :
    FitsCstr len s :=
  ⟨haccepts.1, haccepts.2, last_of_trimmedUtf8 h.2⟩

theorem rereadSymbols_of_counted {symbols : List Str}
    (haccepts : forall s, s ∈ symbols -> AcceptsCstr len s)
    (h : counted (symbolGrammar len) (countedBytes (cstrBytes len) symbols)
      symbols) : RereadSymbols len symbols := by
  have hsize : forall s, s ∈ symbols -> (cstrBytes len s).length = len :=
    fun s hs => length_cstrBytes (haccepts s hs).2
  rcases of_counted_flatMap (fun _ _ hread => hread.1) hsize h with
    ⟨hcount, hread⟩
  constructor
  · exact hcount
  · intro s hs
    exact fitsCstr_of_symbolGrammar (haccepts s hs) (hread s hs)

/-- The dates and the symbol are where the encoder has put them. -/
theorem reread_of_intervalGrammar {interval : MappingInterval D}
    (haccepts : AcceptsCstr len interval.symbol)
    (h : intervalGrammar len (intervalBytes len interval) interval) :
    dateGrammar (dateBytes interval.startDate) interval.startDate ∧
      dateGrammar (dateBytes interval.endDate) interval.endDate ∧
      FitsCstr len interval.symbol := by
  rcases h with ⟨first, _, _, hbytes, hstart, second, _, _, rfl, hend, third,
    _, _, rfl, hsymbol, rfl, rfl⟩
  have hlen (date : D) : (dateBytes date).length = 4 := length_leBytes 4 _
  rcases List.append_inj hbytes ((hlen _).trans hstart.1.symm) with
    ⟨hfirst, hrest⟩
  rcases List.append_inj hrest ((hlen _).trans hend.1.symm) with
    ⟨hsecond, _⟩
  rw [hfirst, hsecond]
  exact ⟨hstart, hend, fitsCstr_of_symbolGrammar haccepts hsymbol⟩

theorem rereadMapping_of_mappingGrammar {mapping : SymbolMapping D}
    (haccepts : AcceptsMapping len mapping)
    (h : mappingGrammar len (mappingBytes len mapping) mapping) :
    RereadMapping len mapping := by
  rcases h with ⟨front, _, rawSymbol, hbytes, hraw, back, _, intervals, rfl,
    hintervals, rfl, rfl⟩
  have hsize : forall interval, interval ∈ intervals ->
      (intervalBytes len interval).length = 4 * 2 + len :=
    fun interval hin => length_intervalBytes (haccepts.2 interval hin)
  rcases List.append_inj hbytes
    ((length_cstrBytes haccepts.1.2).trans hraw.1.symm) with ⟨_, hback⟩
  rw [List.append_nil] at hback
  rw [← hback] at hintervals
  rcases of_counted_flatMap length_intervalGrammar hsize hintervals with
    ⟨hcount, hread⟩
  constructor
  · exact fitsCstr_of_symbolGrammar haccepts.1 hraw
  · exact hcount
  · intro interval hin
    exact reread_of_intervalGrammar (haccepts.2 interval hin)
      (hread interval hin)

/-- What the encoder has written for a list is the list's part. -/
theorem split_symbols {symbols : List Str} {part rest rest' : List UInt8}
    (haccepts : forall s, s ∈ symbols -> AcceptsCstr len s)
    (hpart : counted (symbolGrammar len) part symbols)
    (hbytes : countedBytes (cstrBytes len) symbols ++ rest = part ++ rest') :
    RereadSymbols len symbols ∧ rest = rest' := by
  have hlen : (countedBytes (cstrBytes len) symbols).length = part.length := by
    rw [length_symbols haccepts, length_symbolsGrammar hpart]
  rcases List.append_inj hbytes hlen with ⟨hsame, hrest⟩
  rw [← hsame] at hpart
  exact ⟨rereadSymbols_of_counted haccepts hpart, hrest⟩

/-- Metadata whose lists are read from what the encoder writes for them. -/
theorem rereads_of_listsGrammar {m : Metadata D} (haccepts : Accepts m)
    (hfixed : EncodableFixed m)
    (h : listsGrammar m.symbolCstrLen (listsBytes m) (listsOf m)) :
    Rereads m := by
  rcases h with ⟨first, _, symbols, hbytes, hsymbols, second, _,
    partialSymbols, rfl, hpartials, third, _, notFound, rfl, hnotFound, fourth,
    _, mappings, rfl, hmappings, rfl, hlists⟩
  rcases SymbolLists.mk.inj hlists with ⟨rfl, rfl, rfl, rfl⟩
  rcases split_symbols haccepts.symbols hsymbols hbytes with
    ⟨hsymbols, hbytes⟩
  rcases split_symbols haccepts.partialSymbols hpartials hbytes with
    ⟨hpartials, hbytes⟩
  rcases split_symbols haccepts.notFound hnotFound hbytes with
    ⟨hnotFound, hbytes⟩
  have hsize : forall mapping, mapping ∈ m.mappings ->
      (mappingBytes m.symbolCstrLen mapping).length = m.symbolCstrLen + 4 +
        mapping.intervals.length * (4 * 2 + m.symbolCstrLen) :=
    fun mapping hin => length_mappingBytes (haccepts.mappings mapping hin)
  rw [List.append_nil] at hbytes
  rw [← hbytes] at hmappings
  rcases of_counted_flatMap length_mappingGrammar hsize hmappings with
    ⟨hcount, hread⟩
  refine ⟨hfixed, hsymbols, hpartials, hnotFound, hcount, ?_⟩
  intro mapping hin
  exact rereadMapping_of_mappingGrammar (haccepts.mappings mapping hin)
    (hread mapping hin)

end Grammar

/-!
## Metadata that round-trips
-/

section Rereads

variable {m : Metadata D} {version : Nat} {buffer : List UInt8}

/-- The fields of fixed length have come from a block. -/
theorem encodableFixed_of_decode (haccepts : Accepts m)
    (hpos : 1 ≤ m.version) (hmax : buffer.length ≤ isizeMax)
    (hcstr : m.version = 1 -> m.symbolCstrLen = symbolCstrLenV1)
    (hok : decodeMetadataImpl version buffer = Res.ok m) :
    EncodableFixed m := by
  have hroom := listsOffset_le_of_ok hok
  have hdeclared := symbolCstrLen_of_decodeMetadataImpl hmax hok
  rcases (decodeMetadataImpl_eq_ok_iff hroom hmax).mp hok with
    ⟨fixed, _, _, hfixed, _, _, _, rfl⟩
  rw [decodeFixedFields_eq
    (Nat.le_trans (Nat.le_add_right _ _) hroom)] at hfixed
  rcases Res.bind_eq_ok.mp hfixed with ⟨dataset, hdataset, hfixed⟩
  rcases Res.bind_eq_ok.mp hfixed with ⟨_, _, hfixed⟩
  rcases Res.bind_eq_ok.mp hfixed with ⟨_, _, hfixed⟩
  rcases Res.bind_eq_ok.mp hfixed with ⟨_, _, hfixed⟩
  cases hfixed
  constructor
  · exact hpos
  · exact haccepts.version_le
  · exact hcstr
  · rw [hdeclared]
    exact Nat.le_of_lt_succ (declaredCstrLen_lt version buffer)
  · exact ⟨haccepts.dataset.1, haccepts.dataset.2,
      last_of_trimmedUtf8 (Res.mapErr_eq_ok.mp hdataset)⟩
  · intro e he
    -- the undefined timestamp is read as `None`
    unfold metadataOf at he
    dsimp only at he
    split at he
    · cases he
    · next hdefined =>
        unfold NonZeroU64.new at he
        split at he
        · cases he
          exact hdefined
        · cases he

/-- Of its own block the decoder has read just the lists. -/
theorem listsGrammar_of_decode {j : Nat} (haccepts : Accepts m)
    (hpos : 1 ≤ m.version)
    (hmax : ((blockBytes m).take j).length ≤ isizeMax)
    (hok : decodeMetadataImpl version ((blockBytes m).take j) = Res.ok m) :
    listsGrammar m.symbolCstrLen (listsBytes m) (listsOf m) := by
  have hroom := listsOffset_le_of_ok hok
  have hdeclared := symbolCstrLen_of_decodeMetadataImpl hmax hok
  rcases (decodeMetadataImpl_eq_ok_iff hroom hmax).mp hok with
    ⟨fixed, piece, lists, _, _, hpiece, hlists, hm⟩
  rw [← hdeclared] at hlists
  have hsame : lists = listsOf m := by
    rw [hm]
    rfl
  rw [hsame] at hlists
  have hfixed := length_fixedBytes_eq haccepts.dataset
  rw [if_neg (Nat.ne_of_gt hpos), Nat.add_zero] at hfixed
  have hdrop : (blockBytes m).drop listsOffset =
      listsBytes m ++ List.replicate (calcLength m).2 0 := by
    unfold blockBytes
    rw [← List.append_assoc]
    exact List.drop_left' (by
      rw [List.length_append, hfixed, length_leBytes]
      rfl)
  have hinside : piece <+:
      listsBytes m ++ List.replicate (calcLength m).2 0 := by
    rw [← hdrop]
    rw [List.drop_take] at hpiece
    exact hpiece.trans (List.take_prefix _ _)
  have hlen : piece.length = (listsBytes m).length := by
    rw [length_listsGrammar hlists, length_listsBytes haccepts]
    rfl
  rcases hinside with ⟨rest, hrest⟩
  rw [(List.append_inj hrest hlen).1] at hlists
  exact hlists

theorem RoundTrips.rereads [Buffer B] [LawfulBuffer B] {bytes : List UInt8}
    (h : RoundTrips B m bytes) : Rereads m := by
  rcases h.accepts with ⟨haccepts, _⟩
  rcases h.block with ⟨_, hpos, hcstr, _, j, hmax, hok⟩
  exact rereads_of_listsGrammar haccepts
    (encodableFixed_of_decode haccepts hpos hmax hcstr hok)
    (listsGrammar_of_decode haccepts hpos hmax hok)

/-- The block at the start of a stream, unless its length has wrapped. -/
theorem Rereads.blockAt {policy : VersionUpgradePolicy} (h : Rereads m)
    (hcompat : policy.Compatible m.version)
    (hlen : (calcLength m).1 = (blockBytes m).length) (rest : List UInt8) :
    BlockAt policy (encodedBytes m ++ rest) m.version (blockBytes m).length
      m where
  accepts := acceptsPrelude_of_calcLength h.fixed hcompat hlen rest
  complete := by
    rw [List.length_append, length_encodedBytes, metadataPreludeLen_eq]
    exact Nat.le_add_right _ _
  decodes := by
    intro k hk hmax
    rw [drop_encodedBytes, List.take_append, List.take_of_length_le hk] at *
    exact h.decodes hmax

end Rereads

/-!
## Upgraded metadata
-/

section Upgrade

variable {m : Metadata D} {len len' : Nat}

/-- The number of bytes after the prelude, with symbols of `len` bytes. -/
def metadataLen (len : Nat) (m : Metadata D) : Nat :=
  metadataFixedLen + 4 * 5 +
    (m.symbols.length + m.partialSymbols.length + m.notFound.length) * len +
    (m.mappings.map (fun mapping =>
      len + 4 + mapping.intervals.length * (4 * 2 + len))).sum

theorem neededLen_eq_metadataLen (h : Accepts m) :
    neededLen m = metadataLen m.symbolCstrLen m := by
  unfold neededLen metadataLen
  rw [length_listsBytes h]
  omega

theorem fitsCstr_mono {s : Str} (h : FitsCstr len s) (hle : len ≤ len') :
    FitsCstr len' s :=
  ⟨h.ascii, Nat.lt_of_lt_of_le h.short hle, h.last⟩

theorem RereadSymbols.mono {symbols : List Str}
    (h : RereadSymbols len symbols) (hle : len ≤ len') :
    RereadSymbols len' symbols :=
  ⟨h.1, fun s hs => fitsCstr_mono (h.2 s hs) hle⟩

theorem RereadMapping.mono {mapping : SymbolMapping D}
    (h : RereadMapping len mapping) (hle : len ≤ len') :
    RereadMapping len' mapping where
  rawSymbol := fitsCstr_mono h.rawSymbol hle
  count := h.count
  intervals := by
    intro interval hin
    rcases h.intervals interval hin with ⟨hstart, hend, hsymbol⟩
    exact ⟨hstart, hend, fitsCstr_mono hsymbol hle⟩

/-- All that is read again is accepted by the encoder. -/
theorem Rereads.accepts (h : Rereads m) : Accepts m where
  version_le := h.fixed.version_le
  dataset := h.fixed.dataset.accepts
  symbols := fun s hs => (h.symbols.2 s hs).accepts
  partialSymbols := fun s hs => (h.partialSymbols.2 s hs).accepts
  notFound := fun s hs => (h.notFound.2 s hs).accepts
  mappings := by
    intro mapping hin
    have hmapping := h.mappings mapping hin
    constructor
    · exact hmapping.rawSymbol.accepts
    · intro interval hinterval
      exact (hmapping.intervals interval hinterval).2.2.accepts

omit [CalendarDate D] in
theorem upgrade_toV2 (hversion : m.version = 1) :
    m.upgrade .upgradeToV2 =
      { m with version := 2, symbolCstrLen := symbolCstrLenV2 } := by
  unfold Metadata.upgrade
  rw [if_pos (by omega)]

/-- There is more room for the symbols of version 2. -/
theorem Rereads.upgrade (h : Rereads m) (hversion : m.version = 1) :
    Rereads (m.upgrade .upgradeToV2) := by
  have hle : m.symbolCstrLen ≤ symbolCstrLenV2 := by
    rw [h.fixed.cstrLenV1 hversion]
    decide
  rw [upgrade_toV2 hversion]
  constructor
  · exact
      { version_pos := Nat.le_succ 1
        version_le := Nat.le_succ 2
        cstrLenV1 := fun hone => absurd hone (Nat.succ_succ_ne_one 0)
        cstrLen_le := (by decide : symbolCstrLenV2 ≤ 65535)
        dataset := h.fixed.dataset
        endTs := h.fixed.endTs }
  · exact h.symbols.mono hle
  · exact h.partialSymbols.mono hle
  · exact h.notFound.mono hle
  · exact h.count
  · intro mapping hin
    exact (h.mappings mapping hin).mono hle

end Upgrade

end DbnFsm
end Dbn
