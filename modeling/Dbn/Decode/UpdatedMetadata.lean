import Dbn.Decode.RecordReaders
import Dbn.Decode.MetadataRoundTrip
import Dbn.Encode.UpdateEncoded

/-!
# Decoding updated metadata

A block of metadata with other bytes in the place of the range is decoded to
the metadata with another range.  So is a stream that starts with updated
metadata, whatever follows the block.
-/

namespace Dbn
namespace DbnFsm

open Lib
open Lib.Grammar (value seq uint many counted)
open MetadataEncoder

/-!
## The length of the lists
-/

section Lists

variable {D : Type} [CalendarDate D] {len : Nat} {bytes : List UInt8}

theorem length_symbolsGrammar {symbols : List Str}
    (h : counted (symbolGrammar len) bytes symbols) :
    bytes.length = 4 + symbols.length * len := by
  rcases h with ⟨front, back, count, rfl, ⟨hfront, _⟩, hmany⟩
  rw [List.length_append, hfront, Grammar.length_eq_of_many hmany,
    Grammar.length_many (fun _ _ h => h.1) hmany]

theorem length_mappingGrammar (bytes : List UInt8) (mapping : SymbolMapping D)
    (h : mappingGrammar len bytes mapping) :
    bytes.length = len + 4 + mapping.intervals.length * (4 * 2 + len) := by
  rcases h with ⟨front, _, rawSymbol, rfl, ⟨hfront, _⟩, mid, _, intervals, rfl,
    ⟨width, body, count, rfl, ⟨hwidth, _⟩, hmany⟩, rfl, rfl⟩
  have hbody := Grammar.length_many
    (fun bytes iv => length_intervalGrammar bytes iv) hmany
  simp only [List.length_append, List.length_nil]
  rw [hfront, hwidth, hbody, Grammar.length_eq_of_many hmany]
  omega

/-- The lists have as many bytes as the encoder writes for them. -/
theorem length_listsGrammar {lists : SymbolLists D}
    (h : listsGrammar len bytes lists) :
    bytes.length = 4 * 4 +
      (lists.symbols.length + lists.partialSymbols.length +
        lists.notFound.length) * len +
      (lists.mappings.map (fun mapping => len + 4 +
        mapping.intervals.length * (4 * 2 + len))).sum := by
  rcases h with ⟨first, _, symbols, rfl, hsymbols, second, _, partialSymbols,
    rfl, hpartial, third, _, notFound, rfl, hnotFound, fourth, _, mappings,
    rfl, ⟨width, body, count, rfl, ⟨hwidth, _⟩, hmany⟩, rfl, rfl⟩
  have hbody := Grammar.length_many_sum length_mappingGrammar hmany
  simp only [List.length_append, List.length_nil]
  rw [length_symbolsGrammar hsymbols, length_symbolsGrammar hpartial,
    length_symbolsGrammar hnotFound, hwidth, hbody]
  ring

end Lists

/-!
## Fields before and after the range
-/

section Fields

variable {a b front range range' tail : List UInt8} {version width pos : Nat}

theorem fromLeSlice_congr (ha : pos + width ≤ a.length)
    (hb : pos + width ≤ b.length)
    (h : (a.drop pos).take width = (b.drop pos).take width) :
    fromLeSlice width a pos = fromLeSlice width b pos := by
  rw [fromLeSlice_eq ha, fromLeSlice_eq hb, h]

theorem decodeSchema_congr (ha : pos + 2 ≤ a.length) (hb : pos + 2 ≤ b.length)
    (h : (a.drop pos).take 2 = (b.drop pos).take 2) :
    decodeSchema a pos = decodeSchema b pos := by
  unfold decodeSchema
  rw [fromLeSlice_congr ha hb h, h]

theorem decodeSType_congr (ha : pos + 1 ≤ a.length) (hb : pos + 1 ≤ b.length)
    (h : (a.drop pos).take 1 = (b.drop pos).take 1) :
    decodeSType a pos = decodeSType b pos := by
  unfold decodeSType
  rw [fromLeSlice_congr ha hb h]

theorem decodeOptSType_congr (ha : pos + 1 ≤ a.length)
    (hb : pos + 1 ≤ b.length)
    (h : (a.drop pos).take 1 = (b.drop pos).take 1) :
    decodeOptSType a pos = decodeOptSType b pos := by
  unfold decodeOptSType
  rw [fromLeSlice_congr ha hb h, decodeSType_congr ha hb h]

/-- The range is between the schema and the symbology types. -/
structure AroundRange (version : Nat) (front range : List UInt8) : Prop where
  front : front.length = 18
  range : 18 + range.length = stypeOffset version

theorem AroundRange.take_front (h : AroundRange version front range)
    (hpos : pos + width ≤ 18) :
    ((front ++ (range ++ tail)).drop pos).take width =
      (front.drop pos).take width := by
  have hlen := h.front
  rw [List.drop_append_of_le_length (by omega),
    List.take_append_of_le_length (by rw [List.length_drop]; omega)]

theorem AroundRange.drop_tail (h : AroundRange version front range)
    (hpos : stypeOffset version ≤ pos) :
    (front ++ (range ++ tail)).drop pos =
      tail.drop (pos - stypeOffset version) := by
  have hfront := h.front
  have hrange := h.range
  rw [List.drop_append, List.drop_of_length_le (by omega), List.nil_append,
    List.drop_append, List.drop_of_length_le (by omega), List.nil_append]
  congr 1
  omega

/-- Fields outside of the range do not depend on it. -/
theorem AroundRange.field (h : AroundRange version front range)
    (h' : AroundRange version front range')
    (hpos : pos + width ≤ 18 ∨ stypeOffset version ≤ pos) :
    ((front ++ (range' ++ tail)).drop pos).take width =
      ((front ++ (range ++ tail)).drop pos).take width := by
  rcases hpos with hpos | hpos
  · rw [h.take_front hpos, h'.take_front hpos]
  · rw [h.drop_tail hpos, h'.drop_tail hpos]

theorem AroundRange.uintAt (h : AroundRange version front range)
    (h' : AroundRange version front range')
    (hpos : pos + width ≤ 18 ∨ stypeOffset version ≤ pos) :
    uintAt width (front ++ (range' ++ tail)) pos =
      uintAt width (front ++ (range ++ tail)) pos := by
  unfold DbnFsm.uintAt
  rw [h.field h' hpos]

theorem AroundRange.declaredCstrLen (h : AroundRange version front range)
    (h' : AroundRange version front range') :
    declaredCstrLen version (front ++ (range' ++ tail)) =
      declaredCstrLen version (front ++ (range ++ tail)) := by
  unfold DbnFsm.declaredCstrLen
  split
  · rfl
  · next hversion =>
      apply h.uintAt h'
      right
      unfold stypeOffset
      rw [if_neg hversion]
      decide

/-- The fixed fields with another range are those of the changed block. -/
theorem AroundRange.decodeFixedFields {fixed : FixedFields}
    (h : AroundRange version front range)
    (h' : AroundRange version front range')
    (hlen : metadataFixedLen ≤ (front ++ (range ++ tail)).length)
    (hok : decodeFixedFields version (front ++ (range ++ tail)) =
      Res.ok (fixed, metadataFixedLen)) :
    decodeFixedFields version (front ++ (range' ++ tail)) =
      Res.ok ({ fixed with
        start := UInt64.ofNat (DbnFsm.uintAt 8 (range' ++ tail) 0)
        endTs := UInt64.ofNat (DbnFsm.uintAt 8 (range' ++ tail) 8)
        limit := NonZeroU64.new
          (UInt64.ofNat (DbnFsm.uintAt 8 (range' ++ tail) 16)) },
        metadataFixedLen) := by
  have hoffset := stypeOffset_le version
  have hsame : (front ++ (range' ++ tail)).length =
      (front ++ (range ++ tail)).length := by
    have hrange := h.range
    have hrange' := h'.range
    simp only [List.length_append]
    omega
  have hlen' : metadataFixedLen ≤ (front ++ (range' ++ tail)).length := by
    rw [hsame]
    exact hlen
  have hroom : 100 ≤ (front ++ (range ++ tail)).length := hlen
  have hroom' : 100 ≤ (front ++ (range' ++ tail)).length := hlen'
  have hdataset : (front ++ (range' ++ tail)).take metadataDatasetCstrLen =
      (front ++ (range ++ tail)).take metadataDatasetCstrLen :=
    h.field h' (Or.inl (by decide : 0 + metadataDatasetCstrLen ≤ 18))
  have hschema : decodeSchema (front ++ (range' ++ tail)) 16 =
      decodeSchema (front ++ (range ++ tail)) 16 :=
    decodeSchema_congr (by omega) (by omega) (h.field h' (Or.inl (by decide)))
  have hin : decodeOptSType (front ++ (range' ++ tail)) (stypeOffset version) =
      decodeOptSType (front ++ (range ++ tail)) (stypeOffset version) :=
    decodeOptSType_congr (by omega) (by omega)
      (h.field h' (Or.inr (Nat.le_refl _)))
  have hout : decodeSType (front ++ (range' ++ tail))
      (stypeOffset version + 1) =
      decodeSType (front ++ (range ++ tail)) (stypeOffset version + 1) :=
    decodeSType_congr (by omega) (by omega)
      (h.field h' (Or.inr (Nat.le_add_right _ _)))
  have htsOut : DbnFsm.uintAt 1 (front ++ (range' ++ tail))
      (stypeOffset version + 2) =
      DbnFsm.uintAt 1 (front ++ (range ++ tail)) (stypeOffset version + 2) :=
    h.uintAt h' (Or.inr (Nat.le_add_right _ _))
  rw [decodeFixedFields_eq hlen] at hok
  rw [decodeFixedFields_eq hlen', hdataset, hschema, hin, hout, htsOut,
    h.declaredCstrLen h']
  rcases Res.bind_eq_ok.mp hok with ⟨_, hok1, hok⟩
  rcases Res.bind_eq_ok.mp hok with ⟨_, hok2, hok⟩
  rcases Res.bind_eq_ok.mp hok with ⟨_, hok3, hok⟩
  rcases Res.bind_eq_ok.mp hok with ⟨_, hok4, hok⟩
  rw [hok1, Res.ok_bind, hok2, Res.ok_bind, hok3, Res.ok_bind, hok4,
    Res.ok_bind]
  cases hok
  have hstart : DbnFsm.uintAt 8 (front ++ (range' ++ tail)) 18 =
      DbnFsm.uintAt 8 (range' ++ tail) 0 :=
    @uintAt_skip 8 0 18 front _ h'.front
  have hend : DbnFsm.uintAt 8 (front ++ (range' ++ tail)) 26 =
      DbnFsm.uintAt 8 (range' ++ tail) 8 :=
    @uintAt_skip 8 8 18 front _ h'.front
  have hlimit : DbnFsm.uintAt 8 (front ++ (range' ++ tail)) 34 =
      DbnFsm.uintAt 8 (range' ++ tail) 16 :=
    @uintAt_skip 8 16 18 front _ h'.front
  rw [hstart, hend, hlimit]

end Fields

/-!
## Changed blocks
-/

section Blocks

variable {D : Type} [CalendarDate D] {m : Metadata D} {start : UInt64}
  {endTs limit : Option NonZeroU64} {version : Nat}
  {front range tail buffer : List UInt8}

omit [CalendarDate D] in
theorem uintAt_rangeBytes (m : Metadata D) (rest : List UInt8) :
    uintAt 8 (rangeBytes m ++ rest) 0 = m.start.toNat ∧
      uintAt 8 (rangeBytes m ++ rest) 8 =
        (m.endTs.map (fun e => e.val.toNat)).getD undefTimestamp ∧
      uintAt 8 (rangeBytes m ++ rest) 16 =
        (m.limit.map (fun l => l.val.toNat)).getD nullLimit := by
  have hfirst (n : Nat) : (leBytes 8 n).length = 8 := length_leBytes 8 n
  have hskip (n : Nat) (rest : List UInt8) (pos : Nat) :
      uintAt 8 (leBytes 8 n ++ rest) (8 + pos) = uintAt 8 rest pos :=
    uintAt_skip (hfirst n)
  unfold rangeBytes
  simp only [List.append_assoc]
  refine ⟨uintAt_leBytes m.start.toNat_lt _, ?_, ?_⟩
  · exact (hskip _ _ 0).trans (uintAt_leBytes (getD_toNat_lt (by decide)) _)
  · exact (hskip _ _ 8).trans ((hskip _ _ 0).trans
      (uintAt_leBytes (getD_toNat_lt (by decide)) _))

theorem newU64_getD (n : Option NonZeroU64) :
    NonZeroU64.new (UInt64.ofNat
      ((n.map (fun e => e.val.toNat)).getD nullLimit)) = n := by
  cases n with
  | none => rfl
  | some e => simp [NonZeroU64.new_val]

theorem newU64_getD_of_ne {n : Option NonZeroU64}
    (h : forall e, e ∈ n -> e.val.toNat ≠ undefTimestamp) :
    (if (UInt64.ofNat ((n.map (fun e => e.val.toNat)).getD
        undefTimestamp)).toNat = undefTimestamp then none
      else NonZeroU64.new (UInt64.ofNat
        ((n.map (fun e => e.val.toNat)).getD undefTimestamp))) = n := by
  cases n with
  | none => rfl
  | some e =>
      have hne := h e rfl
      simp [NonZeroU64.new_val, hne]

omit [CalendarDate D] in
/-- The new range is read back from its bytes. -/
theorem metadataOf_withRange {fixed : FixedFields} {lists : SymbolLists D}
    (hend : forall e, e ∈ endTs -> e.val.toNat ≠ undefTimestamp)
    (rest : List UInt8) :
    metadataOf version
      { fixed with
        start := UInt64.ofNat
          (uintAt 8 (rangeBytes (m.withRange start endTs limit) ++ rest) 0)
        endTs := UInt64.ofNat
          (uintAt 8 (rangeBytes (m.withRange start endTs limit) ++ rest) 8)
        limit := NonZeroU64.new (UInt64.ofNat
          (uintAt 8 (rangeBytes (m.withRange start endTs limit) ++ rest) 16)) }
      lists =
      (metadataOf version fixed lists).withRange start endTs limit := by
  rcases uintAt_rangeBytes (m.withRange start endTs limit) rest with
    ⟨hstart, hend', hlimit⟩
  rw [hstart, hend', hlimit]
  unfold metadataOf Metadata.withRange
  dsimp only
  rw [newU64_getD, newU64_getD_of_ne hend, UInt64.ofNat_toNat]

/-- The length of symbols is the declared one. -/
theorem symbolCstrLen_of_decodeMetadataImpl
    (hmax : buffer.length ≤ isizeMax)
    (hok : decodeMetadataImpl version buffer = Res.ok m) :
    m.symbolCstrLen = declaredCstrLen version buffer := by
  have hroom := listsOffset_le_of_ok hok
  rcases (decodeMetadataImpl_eq_ok_iff hroom hmax).mp hok with
    ⟨fixed, _, lists, hfixed, _, _, _, hm⟩
  rcases (decodeMetadataImpl_ok_iff_wellFormedBlock hroom hmax).mp ⟨m, hok⟩
    with ⟨_, hwell⟩
  rcases decodeFixedFields_ok
    (Nat.le_trans (Nat.le_add_right _ _) hroom) hwell.fixed with
    ⟨fixed', hfixed', hlen⟩
  rw [hfixed] at hfixed'
  cases hfixed'
  rw [hm]
  exact hlen

/-- The lists end where the formula for the needed length says. -/
theorem decodeMetadataImpl_stop (haccepts : Accepts m)
    (hmax : buffer.length ≤ isizeMax)
    (hok : decodeMetadataImpl version buffer = Res.ok m) :
    neededLen m ≤ buffer.length ∧
      decodeMetadataImpl version (buffer.take (neededLen m)) = Res.ok m := by
  have hroom := listsOffset_le_of_ok hok
  have hcstr := symbolCstrLen_of_decodeMetadataImpl hmax hok
  rcases (decodeMetadataImpl_eq_ok_iff hroom hmax).mp hok with
    ⟨fixed, piece, lists, hfixed, hzero, hpiece, hlists, hm⟩
  have hlen : listsOffset + piece.length = neededLen m := by
    have hbytes := length_listsBytes haccepts
    have hpieceLen := length_listsGrammar hlists
    rw [← hcstr] at hpieceLen
    unfold neededLen
    rw [hbytes, hpieceLen, hm]
    rfl
  have hinside := Recognizes.inside hpiece hroom
  rw [hlen] at hinside
  refine ⟨hinside, ?_⟩
  apply (decodeMetadataImpl_take _ hinside hmax).mpr
  · exact ⟨fixed, piece, lists, hfixed, hzero, hpiece, Nat.le_of_eq hlen,
      hlists, hm⟩
  · rw [← hlen]
    exact Nat.le_add_right _ _

theorem decodeMetadataImpl_changed {range' : List UInt8}
    (h : AroundRange version front range)
    (hrange : range' = rangeBytes (m.withRange start endTs limit))
    (h' : AroundRange version front range')
    (hend : forall e, e ∈ endTs -> e.val.toNat ≠ undefTimestamp)
    (hmax : (front ++ (range ++ tail)).length ≤ isizeMax)
    (hok : decodeMetadataImpl version (front ++ (range ++ tail)) =
      Res.ok m) :
    decodeMetadataImpl version (front ++ (range' ++ tail)) =
      Res.ok (m.withRange start endTs limit) := by
  have hroom := listsOffset_le_of_ok hok
  have hoffset := stypeOffset_le version
  have hsame : (front ++ (range' ++ tail)).length =
      (front ++ (range ++ tail)).length := by
    have hlen := h.range
    have hlen' := h'.range
    simp only [List.length_append]
    omega
  have hafter : stypeOffset version ≤ listsOffset :=
    Nat.le_trans hoffset (by decide)
  rcases (decodeMetadataImpl_eq_ok_iff hroom hmax).mp hok with
    ⟨fixed, piece, lists, hfixed, hzero, hpiece, hlists, hm⟩
  have hfixed' := h.decodeFixedFields h'
    (Nat.le_trans (Nat.le_add_right _ _) hroom) hfixed
  apply (decodeMetadataImpl_eq_ok_iff (hsame ▸ hroom) (hsame ▸ hmax)).mpr
  refine ⟨_, piece, lists, hfixed', ?_, ?_, ?_, ?_⟩
  · rw [h.uintAt h' (Or.inr (Nat.le_trans hoffset (by decide)))]
    exact hzero
  · rw [h.drop_tail hafter] at hpiece
    rw [h'.drop_tail hafter]
    exact hpiece
  · rw [h.declaredCstrLen h']
    exact hlists
  · rw [hrange, metadataOf_withRange hend, hm]

omit [CalendarDate D] in
theorem aroundRange (m : Metadata D)
    (hdataset : AcceptsCstr metadataDatasetCstrLen m.dataset) :
    AroundRange m.version (frontBytes m) (rangeBytes m) where
  front := length_frontBytes hdataset
  range := by
    rw [length_rangeBytes]
    unfold stypeOffset
    split
    · rfl
    · rfl

theorem take_blockBytes {n : Nat} (h : AroundRange version front range)
    (hn : stypeOffset version ≤ n) :
    (front ++ (range ++ tail)).take n =
      front ++ (range ++ tail.take (n - stypeOffset version)) := by
  have hfront := h.front
  have hrange := h.range
  rw [List.take_append, List.take_of_length_le (by omega), List.take_append,
    List.take_of_length_le (by omega)]
  congr 3
  omega

/-- A block with another range, whatever follows it. -/
theorem decodeMetadataImpl_withRange {j j' : Nat} (haccepts : Accepts m)
    (hend : forall e, e ∈ endTs -> e.val.toNat ≠ undefTimestamp)
    (hmax : ((blockBytes m).take j).length ≤ isizeMax)
    (hok : decodeMetadataImpl m.version ((blockBytes m).take j) = Res.ok m)
    (rest : List UInt8) (hj' : neededLen m ≤ j')
    (hmax' : ((blockBytes (m.withRange start endTs limit) ++ rest).take
      j').length ≤ isizeMax) :
    decodeMetadataImpl m.version
        ((blockBytes (m.withRange start endTs limit) ++ rest).take j') =
      Res.ok (m.withRange start endTs limit) := by
  have haround := aroundRange m haccepts.dataset
  have haround' : AroundRange m.version (frontBytes m)
      (rangeBytes (m.withRange start endTs limit)) :=
    aroundRange (m.withRange start endTs limit) haccepts.dataset
  have hlists : listsOffset ≤ neededLen m := Nat.le_add_right _ _
  have hoffset : stypeOffset m.version ≤ neededLen m :=
    Nat.le_trans (Nat.le_trans (stypeOffset_le _) (by decide)) hlists
  rcases decodeMetadataImpl_stop haccepts hmax hok with ⟨hlen, hstop⟩
  have hle : neededLen m ≤ j ∧ neededLen m ≤ (blockBytes m).length := by
    rw [List.length_take] at hlen
    exact ⟨Nat.le_trans hlen (Nat.min_le_left _ _),
      Nat.le_trans hlen (Nat.min_le_right _ _)⟩
  rw [List.take_take, Nat.min_eq_left hle.1, blockBytes_eq,
    take_blockBytes haround hoffset] at hstop
  have hcut : (frontBytes m ++ (rangeBytes m ++ (backBytes m).take
      (neededLen m - stypeOffset m.version))).length = neededLen m := by
    rw [← take_blockBytes haround hoffset, ← blockBytes_eq, List.length_take,
      Nat.min_eq_left hle.2]
  have hchanged := decodeMetadataImpl_changed haround rfl haround' hend
    (by rw [hcut]; omega) hstop
  have hsame : (blockBytes (m.withRange start endTs limit)).length =
      (blockBytes m).length := by
    have hencoded : (encodedBytes (m.withRange start endTs limit)).length =
        (encodedBytes m).length := length_encodedBytes_withRange
    rw [length_encodedBytes, length_encodedBytes] at hencoded
    omega
  rw [← take_blockBytes haround' hoffset, ← blockBytes_withRange] at hchanged
  have htake : ((blockBytes (m.withRange start endTs limit) ++ rest).take
      j').take (neededLen m) =
      (blockBytes (m.withRange start endTs limit)).take (neededLen m) := by
    rw [List.take_take, Nat.min_eq_left hj', List.take_append_of_le_length]
    rw [hsame]
    exact hle.2
  apply decodeMetadataImpl_of_take hlists _ hmax'
  · rw [htake]
    exact hchanged
  · rw [List.length_take, List.length_append, hsame]
    omega

end Blocks

end DbnFsm
end Dbn
