import Dbn.Decode.MetadataBlock
import Dbn.Lib.Sizing
import Mathlib.Algebra.BigOperators.Group.List.Basic

/-!
# The lists of decoded metadata

The metadata decoder with the capacities of the lists that it asks for.  A
count of symbols or intervals is checked against the bytes that are left, which
bounds it unless a symbol has no bytes; the count of mappings is not checked.
-/

namespace Dbn
namespace DbnFsm

open Lib
open Lib.Sizing (plain withCapacity plain_ok_bind Sizes)
open Lib.Grammar (value seq uint many counted)

/-!
## The decoder with its capacities
-/

section Decoder

variable {D : Type} [CalendarDate D]

def sizeRepeatedSymbolCstr (symbolCstrLen : Nat) (buffer : List UInt8)
    (pos : Nat) : Sizing Error (List Str × Nat) := do
  let afterCount ← plain (addUsize pos 4)
  if afterCount > buffer.length then
    WriteM.fail
      (Error.decode "unexpected end of metadata buffer in symbol cstr")
  else do
    let count ← plain (fromLeSlice 4 buffer pos)
    let readSize ← plain (mulUsize count symbolCstrLen)
    let stop ← plain (addUsize afterCount readSize)
    if stop > buffer.length then
      WriteM.fail
        (Error.decode "unexpected end of metadata buffer in symbol cstr")
    else do
      withCapacity count (buffer.length - afterCount)
      plain (decodeSymbolLoop symbolCstrLen buffer count 0 afterCount)

def sizeSymbolMapping (symbolCstrLen idx : Nat) (buffer : List UInt8)
    (pos : Nat) : Sizing Error (SymbolMapping D × Nat) := do
  let minSymbolMappingEncodedLen := symbolCstrLen + 4
  let mappingIntervalEncodedLen := 4 * 2 + symbolCstrLen
  let minStop ← plain (addUsize pos minSymbolMappingEncodedLen)
  if minStop > buffer.length then
    WriteM.fail
      (Error.decode ("unexpected end of metadata buffer while parsing " ++
        "symbol mapping at index " ++ toString idx))
  else do
    let (rawSymbol, pos) ←
      plain ((decodeMetadataSymbol symbolCstrLen buffer pos).mapErr
        (fun e => Error.utf8 e "parsing raw symbol"))
    let intervalCount ← plain (fromLeSlice 4 buffer pos)
    let pos ← plain (addUsize pos 4)
    let readSize ← plain (mulUsize intervalCount mappingIntervalEncodedLen)
    let stop ← plain (addUsize pos readSize)
    if stop > buffer.length then
      WriteM.fail (Error.decode ("symbol mapping at index " ++ toString idx ++
        " with `interval_count` " ++ toString intervalCount ++
        " doesn't match size of buffer which only contains space for " ++
        toString ((buffer.length - pos) / mappingIntervalEncodedLen) ++
        " intervals"))
    else do
      withCapacity intervalCount (buffer.length - pos)
      let (intervals, pos) ←
        plain (decodeIntervalLoop symbolCstrLen idx buffer intervalCount 0 pos)
      return (⟨rawSymbol, intervals⟩, pos)

/-- The loop over the symbol mappings. -/
def sizeMappingLoop (symbolCstrLen : Nat) (buffer : List UInt8) :
    Nat -> Nat -> Nat -> Sizing Error (List (SymbolMapping D) × Nat)
  | 0, _, pos => return ([], pos)
  | count + 1, i, pos => do
      let (mapping, pos) ← sizeSymbolMapping symbolCstrLen i buffer pos
      let (rest, pos) ← sizeMappingLoop symbolCstrLen buffer count (i + 1) pos
      return (mapping :: rest, pos)

def sizeSymbolMappings (symbolCstrLen : Nat) (buffer : List UInt8)
    (pos : Nat) : Sizing Error (List (SymbolMapping D) × Nat) := do
  let afterCount ← plain (addUsize pos 4)
  if afterCount > buffer.length then
    WriteM.fail
      (Error.decode "unexpected end of metadata buffer in symbol mapping")
  else do
    let count ← plain (fromLeSlice 4 buffer pos)
    withCapacity count (buffer.length - afterCount)
    sizeMappingLoop symbolCstrLen buffer count 0 afterCount

/-- `decode_metadata_impl`. -/
def sizeMetadataImpl (inputVersion : Nat) (buffer : List UInt8) :
    Sizing Error (Metadata D) := do
  let (fixed, pos) ← plain (decodeFixedFields inputVersion buffer)
  let schemaDefinitionLength ← plain (fromLeSlice 4 buffer pos)
  if schemaDefinitionLength ≠ 0 then
    WriteM.fail
      (Error.decode "this version of dbn can't parse schema definitions")
  else do
    let pos := pos + 4 + schemaDefinitionLength
    let (symbols, pos) ←
      sizeRepeatedSymbolCstr fixed.symbolCstrLen buffer pos
    let (partialSymbols, pos) ←
      sizeRepeatedSymbolCstr fixed.symbolCstrLen buffer pos
    let (notFound, pos) ←
      sizeRepeatedSymbolCstr fixed.symbolCstrLen buffer pos
    let (mappings, _) ← sizeSymbolMappings fixed.symbolCstrLen buffer pos
    return metadataOf inputVersion fixed
      ⟨symbols, partialSymbols, notFound, mappings⟩

/-- The capacities that decoding a block asks for, in order. -/
def capacities (D : Type) [CalendarDate D] (version : Nat)
    (block : List UInt8) : List Capacity :=
  (sizeMetadataImpl (D := D) version block []).2

end Decoder

/-!
## Counts
-/

/-- The count at a position, if there is one, is at most the bytes after it. -/
def CountFits (block : List UInt8) (pos : Nat) : Prop :=
  pos + 4 ≤ block.length -> uintAt 4 block pos ≤ block.length - (pos + 4)

instance (block : List UInt8) (pos : Nat) : Decidable (CountFits block pos) :=
  inferInstanceAs (Decidable (_ -> _))

section Sizes

variable {D : Type} [CalendarDate D] {buffer : List UInt8} {pos len : Nat}

/-- A count of elements that have bytes is bounded by the check of the size. -/
theorem count_le_of_mul_le {count size room : Nat} (hsize : size ≠ 0)
    (h : count * size ≤ room) : count ≤ room :=
  Nat.le_trans (Nat.le_mul_of_pos_right count (Nat.pos_of_ne_zero hsize)) h

theorem sizes_repeatedSymbolCstr (hin : InSlice buffer pos)
    (hlen : len < 2 ^ 16) :
    Sizes (sizeRepeatedSymbolCstr len buffer pos)
      (decodeMetadataRepeatedSymbolCstr len buffer pos)
      (len = 0 -> CountFits buffer pos) := by
  unfold sizeRepeatedSymbolCstr decodeMetadataRepeatedSymbolCstr
  rw [hin.addUsize (by decide), Res.ok_bind, plain_ok_bind]
  by_cases hguard : pos + 4 > buffer.length
  · rw [if_pos hguard, if_pos hguard]
    apply (Sizes.fail _).congr
    constructor
    · intro _ _ hroom
      exact absurd hroom (Nat.not_le.mpr hguard)
    · intro _
      exact True.intro
  rw [if_neg hguard, if_neg hguard]
  have hroom := Nat.not_lt.mp hguard
  have hcount := leNat_take_lt 4 (buffer.drop pos)
  have hin' : InSlice buffer (pos + 4) := ⟨hin.length_le, hroom⟩
  have hsize : len < 2 ^ 17 := Nat.lt_trans hlen (by decide)
  rw [fromLeSlice_eq hroom, Res.ok_bind, plain_ok_bind,
    mulUsize_of_count hcount hsize, Res.ok_bind, plain_ok_bind,
    hin'.addUsize (count_mul_lt hcount hsize), Res.ok_bind, plain_ok_bind]
  split
  · next hlong =>
      -- without bytes in a symbol the check never fails
      apply (Sizes.fail _).congr
      constructor
      · intro _ hzero
        rw [hzero, Nat.mul_zero] at hlong
        exact absurd hlong hguard
      · intro _
        exact True.intro
  · next hshort =>
      apply (Sizes.withCapacity_bind (Sizes.plain _)).congr
      constructor
      · intro hfits _ _
        exact hfits
      · intro hfits
        by_cases hzero : len = 0
        · exact hfits hzero hroom
        · apply count_le_of_mul_le hzero
          omega

/-- The counts of intervals are bounded by the checks of their sizes. -/
theorem sizes_symbolMapping (idx : Nat) (hin : InSlice buffer pos)
    (hlen : len < 2 ^ 16) :
    Sizes (sizeSymbolMapping (D := D) len idx buffer pos)
      (decodeMetadataSymbolMapping len idx buffer pos) True := by
  unfold sizeSymbolMapping decodeMetadataSymbolMapping
  dsimp only
  rw [hin.addUsize (by omega), Res.ok_bind, plain_ok_bind]
  apply Sizes.ite
  · intro _
    exact Sizes.fail _
  intro hguard
  have hsymbol : Recognizes buffer pos (decodeMetadataSymbol len buffer pos)
      (symbolGrammar len) := recognizes_symbol hin (by omega) (by omega)
  apply Sizes.bind_fits (Sizes.plain _)
  rintro ⟨rawSymbol, stop⟩ hok
  rw [Res.mapErr_eq_ok] at hok
  rcases (hsymbol.accepts _ _).mp hok with ⟨piece, _, ⟨hpiece, _⟩, rfl⟩
  have hin1 : InSlice buffer (pos + piece.length) :=
    ⟨hin.length_le, by omega⟩
  have hin2 : InSlice buffer (pos + piece.length + 4) :=
    ⟨hin.length_le, by omega⟩
  have hcount := leNat_take_lt 4 (buffer.drop (pos + piece.length))
  dsimp only
  rw [fromLeSlice_eq (by omega), Res.ok_bind, plain_ok_bind,
    hin1.addUsize (by decide), Res.ok_bind, plain_ok_bind,
    mulUsize_of_count hcount (by omega), Res.ok_bind, plain_ok_bind,
    hin2.addUsize (count_mul_lt hcount (by omega)), Res.ok_bind,
    plain_ok_bind]
  apply Sizes.ite
  · intro _
    exact Sizes.fail _
  intro hshort
  apply (Sizes.withCapacity_bind (Sizes.bind_fits (Sizes.plain _)
    (fun _ _ => Sizes.plain _))).congr
  constructor
  · intro _
    exact True.intro
  · intro _
    apply count_le_of_mul_le (by omega : 4 * 2 + len ≠ 0)
    omega

theorem sizes_mappingLoop (hlen : len < 2 ^ 16) (count i : Nat)
    (hin : InSlice buffer pos) :
    Sizes (sizeMappingLoop (D := D) len buffer count i pos)
      (decodeMappingLoop len buffer count i pos) True := by
  induction count generalizing i pos with
  | zero => exact Sizes.plain _
  | succ count ih =>
      unfold sizeMappingLoop decodeMappingLoop
      apply Sizes.bind_fits (sizes_symbolMapping i hin hlen)
      rintro ⟨mapping, stop⟩ hok
      have hstop := (recognizes_symbolMapping (D := D) i hin hlen).stop_le
        hin.pos_le hok
      apply Sizes.bind_fits (ih (i + 1) ⟨hin.length_le, hstop.2⟩)
      rintro ⟨rest, stop'⟩ _
      exact Sizes.plain _

/-- Nothing bounds the count of mappings. -/
theorem sizes_symbolMappings (hin : InSlice buffer pos)
    (hlen : len < 2 ^ 16) :
    Sizes (sizeSymbolMappings (D := D) len buffer pos)
      (decodeMetadataSymbolMappings len buffer pos) (CountFits buffer pos) := by
  unfold sizeSymbolMappings decodeMetadataSymbolMappings
  rw [hin.addUsize (by decide), Res.ok_bind, plain_ok_bind]
  by_cases hguard : pos + 4 > buffer.length
  · rw [if_pos hguard, if_pos hguard]
    apply (Sizes.fail _).congr
    constructor
    · intro _ hroom
      exact absurd hroom (Nat.not_le.mpr hguard)
    · intro _
      exact True.intro
  rw [if_neg hguard, if_neg hguard]
  have hroom := Nat.not_lt.mp hguard
  rw [fromLeSlice_eq hroom, Res.ok_bind, plain_ok_bind]
  apply (Sizes.withCapacity_bind
    (sizes_mappingLoop hlen _ 0 ⟨hin.length_le, hroom⟩)).congr
  constructor
  · intro hfits _
    exact hfits
  · intro hfits
    exact hfits hroom

end Sizes

/-!
## Lists of symbols in a block
-/

/-- The end of the list of symbols at a position. -/
def listEnd (len : Nat) (block : List UInt8) (pos : Nat) : Nat :=
  pos + 4 + uintAt 4 block pos * len

/-- A complete list of valid symbols is at a position. -/
structure ListAt (len : Nat) (block : List UInt8) (pos : Nat) : Prop where
  room : pos + 4 ≤ block.length
  complete : listEnd len block pos ≤ block.length
  valid : forall i, i < uintAt 4 block pos ->
    IsUtf8 ((block.drop (pos + 4 + i * len)).take len)

section Lists

variable {buffer : List UInt8} {pos len : Nat}

theorem listEnd_of_empty (hcount : uintAt 4 buffer pos = 0) :
    listEnd len buffer pos = pos + 4 := by
  unfold listEnd
  rw [hcount, Nat.zero_mul]

theorem listAt_of_empty (hroom : pos + 4 ≤ buffer.length)
    (hcount : uintAt 4 buffer pos = 0) : ListAt len buffer pos where
  room := hroom
  complete := by
    rw [listEnd_of_empty hcount]
    exact hroom
  valid := by
    rw [hcount]
    intro i hi
    cases hi

theorem trimmedUtf8_ok_iff {bytes : List UInt8} :
    (exists s, trimmedUtf8 bytes = Res.ok s) <-> IsUtf8 bytes := by
  unfold trimmedUtf8
  by_cases h : IsUtf8 bytes
  · rw [Str.fromUtf8_of_valid h]
    constructor
    · intro _
      exact h
    · intro _
      exact ⟨_, rfl⟩
  · rcases Str.fromUtf8_of_not_valid h with ⟨e, he⟩
    rw [he]
    constructor
    · intro hok
      rcases hok with ⟨s, hok⟩
      cases hok
    · intro hvalid
      exact absurd hvalid h

theorem decodeMetadataSymbol_ok_iff (hin : InSlice buffer pos)
    (hlen : len < 2 ^ 17) (hfits : pos + len ≤ buffer.length) :
    (exists s, decodeMetadataSymbol len buffer pos =
      Res.ok (s, pos + len)) <-> IsUtf8 ((buffer.drop pos).take len) := by
  have hslice : slice (ε := Utf8Error) buffer pos len =
      Res.ok ((buffer.drop pos).take len) := if_pos hfits
  unfold decodeMetadataSymbol
  rw [hin.addUsize (by omega), Res.ok_bind, hslice, Res.ok_bind,
    ← trimmedUtf8_ok_iff]
  constructor
  · intro h
    rcases h with ⟨s, h⟩
    rcases Res.bind_eq_ok.mp h with ⟨s', hok, _⟩
    exact ⟨s', hok⟩
  · intro h
    rcases h with ⟨s, h⟩
    rw [h]
    exact ⟨s, rfl⟩

/-- The loop succeeds when all symbols are valid. -/
theorem decodeSymbolLoop_ok_iff (hlen : len < 2 ^ 17) (count i : Nat)
    (hin : InSlice buffer pos) (hfits : pos + count * len ≤ buffer.length) :
    (exists symbols, decodeSymbolLoop len buffer count i pos =
      Res.ok (symbols, pos + count * len)) <->
      forall j, j < count ->
        IsUtf8 ((buffer.drop (pos + j * len)).take len) := by
  induction count generalizing i pos with
  | zero =>
      constructor
      · intro _ j hj
        cases hj
      · intro _
        rw [Nat.zero_mul]
        exact ⟨[], rfl⟩
  | succ count ih =>
      rw [Nat.succ_mul] at hfits
      have hfirst := decodeMetadataSymbol_ok_iff hin hlen
        (by omega : pos + len ≤ buffer.length)
      have hin' : InSlice buffer (pos + len) := ⟨hin.length_le, by omega⟩
      have hrest := ih (i + 1) hin' (by omega)
      have hstop : pos + len + count * len = pos + (count + 1) * len := by
        rw [Nat.succ_mul]
        omega
      have hvalid : (forall j, j < count + 1 ->
          IsUtf8 ((buffer.drop (pos + j * len)).take len)) <->
          IsUtf8 ((buffer.drop pos).take len) ∧ forall j, j < count ->
            IsUtf8 ((buffer.drop (pos + len + j * len)).take len) := by
        rw [Nat.forall_lt_succ_left, Nat.zero_mul, Nat.add_zero]
        simp only [Nat.succ_mul, Nat.add_assoc, Nat.add_comm len]
      rw [hstop] at hrest
      rw [hvalid, ← hfirst]
      unfold decodeSymbolLoop
      constructor
      · intro h
        rcases h with ⟨symbols, h⟩
        rcases Res.bind_eq_ok.mp h with ⟨⟨s, stop⟩, hok, h⟩
        rw [Res.mapErr_eq_ok] at hok
        have hlocal := (recognizes_symbol hin hlen (by omega)).accepts s stop
        rcases hlocal.mp hok with ⟨piece, _, ⟨hpiece, _⟩, hend⟩
        rw [hpiece] at hend
        rw [hend] at hok h
        rcases Res.bind_eq_ok.mp h with ⟨⟨rest, stop'⟩, hok', h⟩
        cases h
        exact ⟨⟨s, hok⟩, hrest.mp ⟨rest, hok'⟩⟩
      · intro h
        rcases h with ⟨⟨s, hok⟩, hmore⟩
        rcases hrest.mpr hmore with ⟨rest, hok'⟩
        refine ⟨s :: rest, ?_⟩
        rw [hok, Res.mapErr_ok, Res.ok_bind]
        dsimp only
        rw [hok']
        rfl

/-- The decoder of a list succeeds when the list is there. -/
theorem decodeRepeatedSymbolCstr_ok_iff (hin : InSlice buffer pos)
    (hlen : len < 2 ^ 16) {stop : Nat} :
    (exists symbols, decodeMetadataRepeatedSymbolCstr len buffer pos =
      Res.ok (symbols, stop)) <->
      ListAt len buffer pos ∧ stop = listEnd len buffer pos := by
  have hsize : len < 2 ^ 17 := Nat.lt_trans hlen (by decide)
  unfold decodeMetadataRepeatedSymbolCstr
  rw [hin.addUsize (by decide), Res.ok_bind]
  by_cases hguard : pos + 4 > buffer.length
  · rw [if_pos hguard]
    constructor
    · intro h
      rcases h with ⟨symbols, h⟩
      cases h
    · intro h
      exact absurd h.1.room (Nat.not_le.mpr hguard)
  rw [if_neg hguard]
  have hroom := Nat.not_lt.mp hguard
  have hcount := leNat_take_lt 4 (buffer.drop pos)
  have hin' : InSlice buffer (pos + 4) := ⟨hin.length_le, hroom⟩
  rw [fromLeSlice_eq hroom, Res.ok_bind, mulUsize_of_count hcount hsize,
    Res.ok_bind, hin'.addUsize (count_mul_lt hcount hsize), Res.ok_bind]
  change (exists symbols, (if listEnd len buffer pos > buffer.length then _
    else _) = _) <-> _
  by_cases hlong : listEnd len buffer pos > buffer.length
  · rw [if_pos hlong]
    constructor
    · intro h
      rcases h with ⟨symbols, h⟩
      cases h
    · intro h
      exact absurd h.1.complete (Nat.not_le.mpr hlong)
  rw [if_neg hlong]
  have hfits := Nat.not_lt.mp hlong
  have hloop := decodeSymbolLoop_ok_iff hsize (uintAt 4 buffer pos) 0 hin'
    hfits
  constructor
  · intro h
    rcases h with ⟨symbols, h⟩
    have hstop : stop = listEnd len buffer pos := by
      have haccepts := (recognizes_symbolLoop hsize (uintAt 4 buffer pos) 0
        hin' hfits).accepts symbols stop
      rcases haccepts.mp h with ⟨piece, _, hmany, rfl⟩
      rw [Grammar.length_many (fun bytes symbol h => h.1) hmany]
      rfl
    rw [hstop] at h
    exact ⟨⟨hroom, hfits, hloop.mp ⟨symbols, h⟩⟩, hstop⟩
  · intro h
    rw [h.2]
    exact hloop.mpr h.1.valid

end Lists

/-!
## The condition on the counts
-/

/--
The counts from a position on that are not bounded by a check are at most the
bytes after them: that of the mappings, and all if a symbol has no bytes.
-/
structure CountsFit (len : Nat) (block : List UInt8) (pos : Nat) : Prop where
  symbols : len = 0 -> CountFits block pos
  partialSymbols : ListAt len block pos ->
    len = 0 -> CountFits block (listEnd len block pos)
  notFound : ListAt len block pos ->
    ListAt len block (listEnd len block pos) ->
    len = 0 -> CountFits block (listEnd len block (listEnd len block pos))
  mappings : ListAt len block pos ->
    ListAt len block (listEnd len block pos) ->
    ListAt len block (listEnd len block (listEnd len block pos)) ->
    CountFits block
      (listEnd len block (listEnd len block (listEnd len block pos)))

section Capacities

variable {D : Type} [CalendarDate D] {version : Nat} {buffer : List UInt8}
  {pos len : Nat}

theorem ListAt.decoded (h : ListAt len buffer pos)
    (hin : InSlice buffer pos) (hlen : len < 2 ^ 16) :
    exists symbols, decodeMetadataRepeatedSymbolCstr len buffer pos =
      Res.ok (symbols, listEnd len buffer pos) :=
  (decodeRepeatedSymbolCstr_ok_iff hin hlen).mpr ⟨h, rfl⟩

theorem listAt_of_decoded (hin : InSlice buffer pos) (hlen : len < 2 ^ 16)
    {a : List Str × Nat}
    (h : decodeMetadataRepeatedSymbolCstr len buffer pos = Res.ok a) :
    ListAt len buffer pos ∧ a.2 = listEnd len buffer pos :=
  (decodeRepeatedSymbolCstr_ok_iff hin hlen).mp ⟨a.1, h⟩

theorem inSlice_of_decoded (hin : InSlice buffer pos) (hlen : len < 2 ^ 16)
    {a : List Str × Nat}
    (h : decodeMetadataRepeatedSymbolCstr len buffer pos = Res.ok a) :
    InSlice buffer a.2 := by
  have hlist := recognizes_repeatedSymbolCstr hin
    (Nat.lt_trans hlen (by decide))
  exact ⟨hin.length_le, (hlist.stop_le hin.pos_le h).2⟩

theorem ListAt.inSlice (h : ListAt len buffer pos)
    (hmax : buffer.length ≤ isizeMax) :
    InSlice buffer (listEnd len buffer pos) :=
  ⟨hmax, h.complete⟩

theorem sizes_lists (hin : InSlice buffer pos) (hlen : len < 2 ^ 16)
    (fixed : FixedFields) :
    Sizes
      (do
        let (symbols, pos) ← sizeRepeatedSymbolCstr len buffer pos
        let (partialSymbols, pos) ← sizeRepeatedSymbolCstr len buffer pos
        let (notFound, pos) ← sizeRepeatedSymbolCstr len buffer pos
        let (mappings, _) ← sizeSymbolMappings len buffer pos
        return metadataOf (D := D) version fixed
          ⟨symbols, partialSymbols, notFound, mappings⟩)
      (do
        let (symbols, pos) ← decodeMetadataRepeatedSymbolCstr len buffer pos
        let (partialSymbols, pos) ←
          decodeMetadataRepeatedSymbolCstr len buffer pos
        let (notFound, pos) ← decodeMetadataRepeatedSymbolCstr len buffer pos
        let (mappings, _) ← decodeMetadataSymbolMappings len buffer pos
        Res.ok (metadataOf version fixed
          ⟨symbols, partialSymbols, notFound, mappings⟩))
      (CountsFit len buffer pos) := by
  have hmax := hin.length_le
  have hnested := (sizes_repeatedSymbolCstr hin hlen).bind
    (fun a ha => (sizes_repeatedSymbolCstr (inSlice_of_decoded hin hlen ha)
      hlen).bind
      (fun b hb => (sizes_repeatedSymbolCstr (inSlice_of_decoded
        (inSlice_of_decoded hin hlen ha) hlen hb) hlen).bind
        (fun c hc => (sizes_symbolMappings (D := D) (inSlice_of_decoded
          (inSlice_of_decoded (inSlice_of_decoded hin hlen ha) hlen hb) hlen
          hc) hlen).bind (fun d hd =>
            Sizes.plain (Res.ok (metadataOf version fixed
              ⟨a.1, b.1, c.1, d.1⟩))))))
  apply hnested.congr
  constructor
  · intro h
    rcases h with ⟨hfirst, hafter⟩
    refine ⟨hfirst, ?_, ?_, ?_⟩
    · intro hlist
      rcases hlist.decoded hin hlen with ⟨_, ha⟩
      exact (hafter _ ha).1
    · intro hlist hlist'
      rcases hlist.decoded hin hlen with ⟨_, ha⟩
      rcases hlist'.decoded (hlist.inSlice hmax) hlen with ⟨_, hb⟩
      exact ((hafter _ ha).2 _ hb).1
    · intro hlist hlist' hlist''
      rcases hlist.decoded hin hlen with ⟨_, ha⟩
      rcases hlist'.decoded (hlist.inSlice hmax) hlen with ⟨_, hb⟩
      rcases hlist''.decoded (hlist'.inSlice hmax) hlen with ⟨_, hc⟩
      exact (((hafter _ ha).2 _ hb).2 _ hc).1
  · intro h
    refine ⟨h.symbols, ?_⟩
    rintro ⟨symbols, stop⟩ ha
    rcases listAt_of_decoded hin hlen ha with ⟨hlist, rfl⟩
    refine ⟨h.partialSymbols hlist, ?_⟩
    rintro ⟨partialSymbols, stop⟩ hb
    rcases listAt_of_decoded (hlist.inSlice hmax) hlen hb with ⟨hlist', rfl⟩
    refine ⟨h.notFound hlist hlist', ?_⟩
    rintro ⟨notFound, stop⟩ hc
    rcases listAt_of_decoded (hlist'.inSlice hmax) hlen hc with
      ⟨hlist'', rfl⟩
    exact ⟨h.mappings hlist hlist' hlist'', fun _ _ => True.intro⟩

/-- The fixed fields and the lists are there. -/
structure ListsAt (version : Nat) (block : List UInt8) : Prop where
  fixed : ValidFixedFields version block
  room : listsOffset ≤ block.length
  schemaDefinition : uintAt 4 block metadataFixedLen = 0

theorem sizes_metadataImpl (hmax : buffer.length ≤ isizeMax) :
    Sizes (sizeMetadataImpl (D := D) version buffer)
      (decodeMetadataImpl version buffer)
      (ListsAt version buffer ->
        CountsFit (declaredCstrLen version buffer) buffer listsOffset) := by
  unfold sizeMetadataImpl decodeMetadataImpl
  by_cases hroom : listsOffset ≤ buffer.length
  swap
  · -- `schema_definition_length` is cut off
    have hnone : Sizes (sizeMetadataImpl (D := D) version buffer)
        (decodeMetadataImpl version buffer) True := by
      apply Sizes.bind_fits (Sizes.plain _)
      rintro ⟨fixed, pos⟩ hfixed
      have hslice : fromLeSlice 4 buffer pos = Res.panic Panic.outOfBounds := by
        rw [pos_of_decodeFixedFields hfixed]
        exact if_neg hroom
      dsimp only
      rw [hslice]
      exact Sizes.plain (Res.panic Panic.outOfBounds)
    apply hnone.congr
    constructor
    · intro _ hlists
      exact absurd hlists.room hroom
    · intro _
      exact True.intro
  have hfixedLen : metadataFixedLen ≤ buffer.length :=
    Nat.le_trans (Nat.le_add_right _ _) hroom
  by_cases hvalid : ValidFixedFields version buffer
  swap
  · rcases decodeFixedFields_isErr hfixedLen hvalid with ⟨e, he⟩
    rw [he]
    apply (Sizes.plain (Res.err e)).congr
    constructor
    · intro _ hlists
      exact absurd hlists.fixed hvalid
    · intro _
      exact True.intro
  rcases decodeFixedFields_ok hfixedLen hvalid with ⟨fixed, hfixed, hlen⟩
  rw [hfixed, Res.ok_bind, plain_ok_bind]
  dsimp only
  rw [fromLeSlice_eq hroom, Res.ok_bind, plain_ok_bind]
  by_cases hzero : uintAt 4 buffer metadataFixedLen = 0
  · have hread : leNat ((buffer.drop metadataFixedLen).take 4) = 0 := hzero
    have hbound : fixed.symbolCstrLen < 2 ^ 16 := by
      rw [hlen]
      exact declaredCstrLen_lt version buffer
    rw [if_neg (not_not.mpr hread), if_neg (not_not.mpr hread), hread, ← hlen]
    have hlists := @sizes_lists D _ version buffer listsOffset _
      ⟨hmax, hroom⟩ hbound fixed
    apply Sizes.congr hlists
    constructor
    · intro hfits _
      exact hfits
    · intro hfits
      exact hfits ⟨hvalid, hroom, hzero⟩
  · have hread : leNat ((buffer.drop metadataFixedLen).take 4) ≠ 0 := hzero
    rw [if_pos hread, if_pos hread]
    apply (Sizes.fail _).congr
    constructor
    · intro _ hlists
      exact absurd hlists.schemaDefinition hzero
    · intro _
      exact True.intro

theorem sizeMetadataImpl_result (hmax : buffer.length ≤ isizeMax) :
    (sizeMetadataImpl (D := D) version buffer []).1 =
      decodeMetadataImpl version buffer :=
  (sizes_metadataImpl hmax []).1

theorem capacities_fit_iff (hmax : buffer.length ≤ isizeMax) :
    (forall c, c ∈ capacities D version buffer -> Capacity.Fits c) <->
      (ListsAt version buffer ->
        CountsFit (declaredCstrLen version buffer) buffer listsOffset) := by
  rcases (@sizes_metadataImpl D _ version buffer hmax []).2 with
    ⟨asked, hasked, hfits⟩
  unfold capacities
  rw [hasked, List.nil_append]
  exact hfits

end Capacities

/-!
## Entries
-/

def SymbolLists.entries {D : Type} (lists : SymbolLists D) : Nat :=
  lists.symbols.length + lists.partialSymbols.length +
    lists.notFound.length + lists.mappings.length +
    (lists.mappings.map (fun mapping => mapping.intervals.length)).sum

/-- The decoded entries, those of the mappings included. -/
def entries {D : Type} (m : Metadata D) : Nat :=
  m.symbols.length + m.partialSymbols.length + m.notFound.length +
    m.mappings.length +
    (m.mappings.map (fun mapping => mapping.intervals.length)).sum

/-- The counts of the intervals of mappings whose symbols have no bytes. -/
def intervalCounts (block : List UInt8) : Nat -> Nat -> Nat
  | 0, _ => 0
  | count + 1, pos =>
      uintAt 4 block pos +
        intervalCounts block count (pos + 4 + uintAt 4 block pos * 8)

/-- The sum of the counts in a block whose symbols have no bytes. -/
def zeroLenEntries (block : List UInt8) (pos : Nat) : Nat :=
  uintAt 4 block pos + uintAt 4 block (pos + 4) + uintAt 4 block (pos + 8) +
    uintAt 4 block (pos + 12) +
    intervalCounts block (uintAt 4 block (pos + 12)) (pos + 16)

section Entries

variable {D : Type} [CalendarDate D] {version : Nat}
  {block bytes : List UInt8} {pos len : Nat}

theorem length_of_symbolGrammar (bytes : List UInt8) (symbol : Str)
    (h : symbolGrammar len bytes symbol) : bytes.length = len := h.1

/-- A list of symbols that have bytes is not longer than its bytes. -/
theorem length_le_of_symbols (hlen : len ≠ 0) {symbols : List Str}
    (h : counted (symbolGrammar len) bytes symbols) :
    symbols.length ≤ bytes.length := by
  rcases h with ⟨front, back, count, rfl, _, hmany⟩
  have hback := Grammar.length_many length_of_symbolGrammar hmany
  have hcount := Grammar.length_eq_of_many hmany
  have hle := Nat.le_mul_of_pos_right count (Nat.pos_of_ne_zero hlen)
  rw [List.length_append]
  omega

/-- A mapping has bytes for itself and for each of its intervals. -/
theorem length_le_of_mapping (bytes : List UInt8) (mapping : SymbolMapping D)
    (h : mappingGrammar len bytes mapping) :
    1 + mapping.intervals.length ≤ bytes.length := by
  rcases h with ⟨front, _, rawSymbol, rfl, _, mid, _, intervals, rfl,
    ⟨width, body, count, rfl, hwidth, hmany⟩, rfl, rfl⟩
  have hbody := Grammar.length_many
    (fun bytes iv => length_intervalGrammar bytes iv) hmany
  have hcount := Grammar.length_eq_of_many hmany
  have hle := Nat.le_mul_of_pos_right count (by omega : 0 < 4 * 2 + len)
  have hfour := hwidth.1
  simp only [List.length_append, List.length_nil]
  omega

theorem entries_le_of_listsGrammar (hlen : len ≠ 0) {lists : SymbolLists D}
    (h : listsGrammar len bytes lists) : lists.entries ≤ bytes.length := by
  rcases h with ⟨first, _, symbols, rfl, hsymbols, second, _, partialSymbols,
    rfl, hpartial, third, _, notFound, rfl, hnotFound, fourth, _, mappings,
    rfl, ⟨width, body, count, rfl, _, hmany⟩, rfl, rfl⟩
  have h1 := length_le_of_symbols hlen hsymbols
  have h2 := length_le_of_symbols hlen hpartial
  have h3 := length_le_of_symbols hlen hnotFound
  have h4 := Grammar.sum_le_of_many length_le_of_mapping hmany
  rw [List.sum_map_add, List.map_const', List.sum_replicate_nat, Nat.mul_one] at h4
  simp only [List.length_append, List.length_nil]
  unfold SymbolLists.entries
  dsimp only
  omega

/-- The count of a list at a position, and its elements behind it. -/
theorem counted_at {α : Type} {R : Grammar α} {piece : List UInt8}
    {as : List α} (h : counted R piece as) (hat : piece <+: block.drop pos) :
    exists body, piece.length = 4 + body.length ∧
      many R (uintAt 4 block pos) body as ∧ body <+: block.drop (pos + 4) := by
  rcases h with ⟨front, body, count, rfl, ⟨hfront, rfl⟩, hmany⟩
  rcases prefix_drop_append.mp hat with ⟨hat, hbody⟩
  rw [hfront] at hbody
  have hread : uintAt 4 block pos = leNat front := by
    unfold uintAt
    rw [← hfront, ← List.prefix_iff_eq_take.mp hat]
  rw [hread]
  refine ⟨body, ?_, hmany, hbody⟩
  rw [List.length_append, hfront]

theorem zeroLen_symbols {piece : List UInt8} {symbols : List Str}
    (h : counted (symbolGrammar 0) piece symbols)
    (hat : piece <+: block.drop pos) :
    piece.length = 4 ∧ symbols.length = uintAt 4 block pos := by
  rcases counted_at h hat with ⟨body, hlen, hmany, _⟩
  have hbody := Grammar.length_many length_of_symbolGrammar hmany
  rw [hbody, Nat.mul_zero] at hlen
  exact ⟨hlen, Grammar.length_eq_of_many hmany⟩

theorem zeroLen_mapping {piece : List UInt8} {mapping : SymbolMapping D}
    (h : mappingGrammar 0 piece mapping) (hat : piece <+: block.drop pos) :
    piece.length = 4 + uintAt 4 block pos * 8 ∧
      mapping.intervals.length = uintAt 4 block pos := by
  rcases h with ⟨front, _, rawSymbol, rfl, ⟨hfront, _⟩, mid, _, intervals,
    rfl, hmid, rfl, rfl⟩
  have hnil := List.eq_nil_of_length_eq_zero hfront
  rw [hnil, List.nil_append, List.append_nil] at hat
  rcases counted_at hmid hat with ⟨body, hlen, hmany, _⟩
  have hbody := Grammar.length_many
    (fun bytes iv => length_intervalGrammar bytes iv) hmany
  rw [hnil, List.nil_append, List.append_nil, hlen, hbody]
  exact ⟨rfl, Grammar.length_eq_of_many hmany⟩

theorem zeroLen_mappings (count : Nat) {piece : List UInt8}
    {mappings : List (SymbolMapping D)}
    (h : many (mappingGrammar 0) count piece mappings)
    (hat : piece <+: block.drop pos) :
    (mappings.map (fun mapping => mapping.intervals.length)).sum =
      intervalCounts block count pos := by
  induction count generalizing pos piece mappings with
  | zero =>
      rw [h.2]
      rfl
  | succ count ih =>
      rcases h with ⟨front, _, mapping, rfl, hfront, mid, _, rest, rfl,
        hrest, rfl, rfl⟩
      rcases prefix_drop_append.mp hat with ⟨hfirst, hmid⟩
      rcases zeroLen_mapping hfront hfirst with ⟨hlen, hcount⟩
      rw [List.append_nil, hlen, ← Nat.add_assoc] at hmid
      rw [List.map_cons, List.sum_cons, hcount, ih hrest hmid]
      rfl

theorem entries_eq_of_listsGrammar {piece : List UInt8}
    {lists : SymbolLists D} (h : listsGrammar 0 piece lists)
    (hat : piece <+: block.drop pos) :
    lists.entries = zeroLenEntries block pos := by
  rcases h with ⟨first, _, symbols, rfl, hsymbols, second, _, partialSymbols,
    rfl, hpartial, third, _, notFound, rfl, hnotFound, fourth, _, mappings,
    rfl, hmappings, rfl, rfl⟩
  rcases prefix_drop_append.mp hat with ⟨hat1, hat⟩
  rcases zeroLen_symbols hsymbols hat1 with ⟨hlen1, h1⟩
  rw [hlen1] at hat
  rcases prefix_drop_append.mp hat with ⟨hat2, hat⟩
  rcases zeroLen_symbols hpartial hat2 with ⟨hlen2, h2⟩
  rw [hlen2] at hat
  rcases prefix_drop_append.mp hat with ⟨hat3, hat⟩
  rcases zeroLen_symbols hnotFound hat3 with ⟨hlen3, h3⟩
  rw [hlen3, List.append_nil] at hat
  rcases counted_at hmappings hat with ⟨body, _, hmany, hbody⟩
  have h4 := Grammar.length_eq_of_many hmany
  have h5 := zeroLen_mappings _ hmany hbody
  unfold SymbolLists.entries zeroLenEntries
  dsimp only
  rw [h1, h2, h3, h4, h5]

end Entries

/-!
## The bound
-/

section Bound

variable {D : Type} [CalendarDate D]

/--
Decoding a block returns at most as many entries as the block has bytes, and
asks for no capacity above the number of bytes that are left.
-/
def Bounded (D : Type) [CalendarDate D] (version : Nat)
    (block : List UInt8) : Prop :=
  (forall m : Metadata D, decodeMetadataImpl version block = Res.ok m ->
      entries m ≤ block.length) ∧
    forall c, c ∈ capacities D version block -> Capacity.Fits c

variable {version : Nat} {block : List UInt8}

theorem entries_le_iff (hmax : block.length ≤ isizeMax) :
    (forall m : Metadata D, decodeMetadataImpl version block = Res.ok m ->
      entries m ≤ block.length) <->
      (declaredCstrLen version block = 0 ->
        (exists stop, WellFormedBlock D version block stop) ->
        zeroLenEntries block listsOffset ≤ block.length) := by
  constructor
  · intro h hzero hwell
    rcases hwell with ⟨stop, hwell⟩
    rcases (decodeMetadataImpl_ok_iff_wellFormedBlock hwell.room hmax).mpr
      ⟨stop, hwell⟩ with ⟨m, hok⟩
    rcases (decodeMetadataImpl_eq_ok_iff hwell.room hmax).mp hok with
      ⟨fixed, piece, lists, _, _, hat, hlists, rfl⟩
    rw [hzero] at hlists
    rw [← entries_eq_of_listsGrammar hlists hat]
    exact h _ hok
  · intro h m hok
    have hroom := listsOffset_le_of_ok hok
    rcases (decodeMetadataImpl_eq_ok_iff hroom hmax).mp hok with
      ⟨fixed, piece, lists, _, _, hat, hlists, rfl⟩
    change lists.entries ≤ block.length
    by_cases hzero : declaredCstrLen version block = 0
    · rw [hzero] at hlists
      rw [entries_eq_of_listsGrammar hlists hat]
      exact h hzero
        ((decodeMetadataImpl_ok_iff_wellFormedBlock hroom hmax).mp ⟨_, hok⟩)
    · have hpiece := hat.length_le
      rw [List.length_drop] at hpiece
      have hentries := entries_le_of_listsGrammar hzero hlists
      omega

/--
The bound holds exactly for the blocks whose unchecked counts fit and, if
their symbols have no bytes, have a sum of at most the length.
-/
theorem bounded_iff (version : Nat) (block : List UInt8)
    (hmax : block.length ≤ isizeMax) :
    Bounded D version block <->
      (ListsAt version block ->
        CountsFit (declaredCstrLen version block) block listsOffset) ∧
      (declaredCstrLen version block = 0 ->
        (exists stop, WellFormedBlock D version block stop) ->
        zeroLenEntries block listsOffset ≤ block.length) := by
  unfold Bounded
  rw [capacities_fit_iff hmax, entries_le_iff hmax]
  exact and_comm

end Bound

section Example

/-- A block of version 3 with given counts of symbols and of mappings. -/
def countBlock (cstrLen : UInt8) (symbols mappings : List UInt8) :
    List UInt8 :=
  List.replicate 45 0 ++ [cstrLen, 0] ++ List.replicate 57 0 ++ symbols ++
    List.replicate 8 0 ++ mappings

/-- Two symbols and a mapping with an interval, of three bytes each. -/
def mappedBlock : List UInt8 :=
  countBlock 3 ([2, 0, 0, 0] ++ asciiBytes "ESH" ++ asciiBytes "ESM")
    ([1, 0, 0, 0] ++ asciiBytes "ESH" ++ [1, 0, 0, 0] ++
      leBytes 4 20240101 ++ leBytes 4 20240102 ++ asciiBytes "123")

/-- Two symbols and a mapping without bytes. -/
def zeroLenBlock : List UInt8 :=
  countBlock 0 [2, 0, 0, 0] [1, 0, 0, 0, 0, 0, 0, 0]

set_option maxRecDepth 2000 in
/-- Blocks whose counts fit, where symbols have bytes and where they have none. -/
theorem bounded_iff_mapped :
    Bounded GregorianDate 3 mappedBlock ∧
      Bounded GregorianDate 3 zeroLenBlock := by
  constructor
  · have hlen : declaredCstrLen 3 mappedBlock ≠ 0 := by decide
    apply (bounded_iff 3 _ (by decide)).mpr
    constructor
    · intro _
      constructor
      · intro hzero
        exact absurd hzero hlen
      · intro _ hzero
        exact absurd hzero hlen
      · intro _ _ hzero
        exact absurd hzero hlen
      · intro _ _ _
        decide
    · intro hzero
      exact absurd hzero hlen
  · apply (bounded_iff 3 _ (by decide)).mpr
    constructor
    · intro _
      constructor
      · intro _
        decide
      · intro _ _
        decide
      · intro _ _ _
        decide
      · intro _ _ _
        decide
    · intro _ _
      decide

theorem listsAt_uncheckedMappings :
    ListsAt 3 (countBlock 71 [0, 0, 0, 0] [255, 255, 255, 255]) where
  fixed := by constructor <;> decide
  room := by decide
  schemaDefinition := by decide

theorem flatMap_nil {α β : Type} (as : List α) :
    as.flatMap (fun _ => ([] : List β)) = [] := by
  rw [List.flatMap_eq_nil_iff]
  intro _ _
  rfl

/-- 200 symbols without bytes. -/
theorem wellFormedBlock_zeroLen :
    WellFormedBlock GregorianDate 3
      (countBlock 0 [200, 0, 0, 0] [0, 0, 0, 0]) 120 where
  fixed := by constructor <;> decide
  room := by decide
  schemaDefinition := by decide
  lists := by
    have hempty : forall s, s ∈ List.replicate 200 (⟨[], by decide⟩ : Str) ->
        symbolGrammar 0 [] s := by
      intro s hs
      rw [List.eq_of_mem_replicate hs]
      exact ⟨rfl, rfl⟩
    have hsymbols : counted (symbolGrammar 0) [200, 0, 0, 0]
        (List.replicate 200 (⟨[], by decide⟩ : Str)) := by
      have hcounted := @Grammar.counted_flatMap _ _ (fun _ => []) _
        (by rw [List.length_replicate]; decide) hempty
      rw [List.length_replicate, flatMap_nil] at hcounted
      exact hcounted
    have hsymbol : counted (symbolGrammar 0) [0, 0, 0, 0] [] :=
      @Grammar.counted_flatMap _ _ (fun _ => []) _ (by simp)
        (fun _ hs => absurd hs List.not_mem_nil)
    have hmapping : counted (mappingGrammar (D := GregorianDate) 0)
        [0, 0, 0, 0] [] :=
      @Grammar.counted_flatMap _ _ (fun _ => []) _ (by simp)
        (fun _ hs => absurd hs List.not_mem_nil)
    exact ⟨[200, 0, 0, 0] ++ ([0, 0, 0, 0] ++ ([0, 0, 0, 0] ++
        ([0, 0, 0, 0] ++ []))), ⟨List.replicate 200 ⟨[], by decide⟩, [], [], []⟩,
      List.prefix_rfl, ⟨_, _, _, rfl, hsymbols, _, _, _, rfl, hsymbol, _, _, _,
        rfl, hsymbol, _, _, _, rfl, hmapping, rfl, rfl⟩, rfl⟩

theorem length_countBlock_le (cstrLen : UInt8) {symbols mappings : List UInt8}
    (hs : symbols.length = 4) (hm : mappings.length = 4) :
    (countBlock cstrLen symbols mappings).length ≤ isizeMax := by
  unfold countBlock
  simp only [List.length_append, List.length_replicate, List.length_cons,
    List.length_nil, hs, hm]
  decide

/--
The count of mappings asks for more capacity than there are bytes, and symbols
without bytes make more entries than there are bytes.
-/
theorem not_bounded_countBlock :
    ¬ Bounded GregorianDate 3
        (countBlock 71 [0, 0, 0, 0] [255, 255, 255, 255]) ∧
      ¬ Bounded GregorianDate 3
        (countBlock 0 [200, 0, 0, 0] [0, 0, 0, 0]) := by
  constructor
  · intro h
    have hfits : CountsFit 71
        (countBlock 71 [0, 0, 0, 0] [255, 255, 255, 255]) 104 :=
      (capacities_fit_iff (length_countBlock_le 71 rfl rfl)).mp h.2
        listsAt_uncheckedMappings
    have hmappings := hfits.mappings
    rw [listEnd_of_empty (by decide), listEnd_of_empty (by decide),
      listEnd_of_empty (by decide)] at hmappings
    have hfit := hmappings (listAt_of_empty (by decide) (by decide))
      (listAt_of_empty (by decide) (by decide))
      (listAt_of_empty (by decide) (by decide))
    have hcount : uintAt 4 (countBlock 71 [0, 0, 0, 0] [255, 255, 255, 255])
        116 = 4294967295 := by decide
    have hle := hfit (by decide)
    rw [hcount] at hle
    revert hle
    decide
  · intro h
    have hle := (entries_le_iff (length_countBlock_le 0 rfl rfl)).mp h.1
      (by decide) ⟨120, wellFormedBlock_zeroLen⟩
    revert hle
    decide

end Example
end DbnFsm
end Dbn
