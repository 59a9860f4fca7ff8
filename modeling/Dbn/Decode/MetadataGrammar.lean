import Dbn.Decode.MetadataDecode
import Dbn.Lib.Cursor

/-!
# The grammar of metadata blocks

Which bytes the metadata decoder accepts and what it reads from them, without
a cursor and without a buffer.  A block consists of the fixed fields, a zero
`schema_definition_length`, three lists of symbols and a list of mappings.
-/

namespace Dbn
namespace DbnFsm

open Lib
open Lib.Grammar (value seq uint many counted)

variable {D : Type} [CalendarDate D]

/-!
## The variable-length part
-/

/-- A NUL-padded symbol of `len` bytes. -/
def symbolGrammar (len : Nat) : Grammar Str :=
  fun bytes symbol => bytes.length = len ∧ trimmedUtf8 bytes = Res.ok symbol

/-- A date, as an integer of four bytes. -/
def dateGrammar : Grammar D :=
  fun bytes date =>
    bytes.length = 4 ∧ decodeIso8601 (leNat bytes) = Res.ok date

/-- An interval of a mapping. -/
def intervalGrammar (len : Nat) : Grammar (MappingInterval D) :=
  seq dateGrammar (fun startDate =>
    seq dateGrammar (fun endDate =>
      seq (symbolGrammar len) (fun symbol =>
        value ⟨startDate, endDate, symbol⟩)))

/-- A mapping of a symbol. -/
def mappingGrammar (len : Nat) : Grammar (SymbolMapping D) :=
  seq (symbolGrammar len) (fun rawSymbol =>
    seq (counted (intervalGrammar len)) (fun intervals =>
      value ⟨rawSymbol, intervals⟩))

/-- The three lists of symbols and the list of mappings. -/
structure SymbolLists (D : Type) where
  symbols : List Str
  partialSymbols : List Str
  notFound : List Str
  mappings : List (SymbolMapping D)

/-- The part of a block after `schema_definition_length`. -/
def listsGrammar (len : Nat) : Grammar (SymbolLists D) :=
  seq (counted (symbolGrammar len)) (fun symbols =>
    seq (counted (symbolGrammar len)) (fun partialSymbols =>
      seq (counted (symbolGrammar len)) (fun notFound =>
        seq (counted (mappingGrammar len)) (fun mappings =>
          value ⟨symbols, partialSymbols, notFound, mappings⟩))))

/-!
## Bounds

A Rust slice has at most `isize::MAX` bytes, so positions and the products of
a 32-bit count and an element size never overflow.
-/

/-- The decoder is called on a slice, with the cursor in it. -/
structure InSlice (buffer : List UInt8) (pos : Nat) : Prop where
  length_le : buffer.length ≤ isizeMax
  pos_le : pos ≤ buffer.length

section Bounds

variable {ε : Type} {buffer : List UInt8} {pos n : Nat}

theorem InSlice.addUsize (h : InSlice buffer pos) (hn : n < 2 ^ 62) :
    addUsize (ε := ε) pos n = Res.ok (pos + n) := by
  have hlen := h.length_le
  have hpos := h.pos_le
  apply addUsize_of_lt
  unfold usizeBound
  unfold isizeMax at hlen
  omega

theorem mulUsize_of_count {count size : Nat} (hcount : count < 2 ^ 32)
    (hsize : size < 2 ^ 17) :
    mulUsize (ε := ε) count size = Res.ok (count * size) := by
  apply mulUsize_of_lt
  calc count * size < 2 ^ 32 * 2 ^ 17 := Nat.mul_lt_mul'' hcount hsize
    _ < usizeBound := by decide

theorem count_mul_lt {count size : Nat} (hcount : count < 2 ^ 32)
    (hsize : size < 2 ^ 17) : count * size < 2 ^ 62 := by
  calc count * size < 2 ^ 32 * 2 ^ 17 := Nat.mul_lt_mul'' hcount hsize
    _ < 2 ^ 62 := by decide

end Bounds

/-!
## The decoders recognize the grammars
-/

variable {buffer : List UInt8} {pos len : Nat}

theorem fromLeSlice_eq {width : Nat} (h : pos + width ≤ buffer.length) :
    fromLeSlice width buffer pos =
      Res.ok (leNat ((buffer.drop pos).take width)) := if_pos h

theorem leNat_take_lt (width : Nat) (bytes : List UInt8) :
    leNat (bytes.take width) < 256 ^ width := by
  have hlt := leNat_lt (bytes.take width)
  have hle : (bytes.take width).length ≤ width := by simp
  exact Nat.lt_of_lt_of_le hlt (Nat.pow_le_pow_right (by decide) hle)

/-- Reading a count and moving the cursor over it. -/
theorem recognizes_uint {ε α : Type} {width : Nat} {x : Res ε (α × Nat)}
    {S : Nat -> Grammar α} (h : pos + width ≤ buffer.length)
    (hx : Recognizes buffer (pos + width) x
      (S (leNat ((buffer.drop pos).take width)))) :
    Recognizes buffer pos x (seq (uint width) S) := by
  have hlen : ((buffer.drop pos).take width).length = width := by
    rw [List.length_take, List.length_drop]
    omega
  have hdrop : buffer.drop (pos + width) = (buffer.drop pos).drop width := by
    rw [List.drop_drop]
  refine ⟨hx.safe, fun a stop => ?_⟩
  rw [hx.accepts a stop, hdrop]
  constructor
  · rintro ⟨back, hback, hS, rfl⟩
    refine ⟨(buffer.drop pos).take width ++ back, ?_,
      ⟨_, back, _, rfl, ⟨hlen, rfl⟩, hS⟩, ?_⟩
    · conv => rhs; rw [← List.take_append_drop width (buffer.drop pos)]
      exact (List.prefix_append_right_inj _).mpr hback
    · rw [List.length_append, hlen, Nat.add_assoc]
  · rintro ⟨_, hpiece, ⟨front, back, n, rfl, ⟨hwidth, rfl⟩, hS⟩, rfl⟩
    have heq : front = (buffer.drop pos).take width := by
      obtain ⟨rest, hrest⟩ := hpiece
      rw [← hrest, ← hwidth, List.append_assoc, List.take_left]
    subst heq
    refine ⟨back, ?_, hS, ?_⟩
    · conv at hpiece =>
        rhs
        rw [← List.take_append_drop width (buffer.drop pos)]
      exact (List.prefix_append_right_inj _).mp hpiece
    · rw [List.length_append, hlen, Nat.add_assoc]

theorem trimmedUtf8_not_isPanic (bytes : List UInt8) :
    ¬ (trimmedUtf8 bytes).IsPanic := by
  unfold trimmedUtf8
  split <;> simp

theorem recognizes_symbol (hin : InSlice buffer pos) (hlen : len < 2 ^ 17)
    (hfits : pos + len ≤ buffer.length) :
    Recognizes buffer pos (decodeMetadataSymbol len buffer pos)
      (symbolGrammar len) := by
  have htake : ((buffer.drop pos).take len).length = len := by
    rw [List.length_take, List.length_drop]
    omega
  have hslice : slice (ε := Utf8Error) buffer pos len =
      Res.ok ((buffer.drop pos).take len) := if_pos hfits
  unfold decodeMetadataSymbol
  rw [hin.addUsize (by omega), Res.ok_bind, hslice, Res.ok_bind]
  refine ⟨?_, fun symbol stop => ?_⟩
  · rw [Res.bind_isPanic]
    rintro (hpanic | ⟨symbol, _, hpanic⟩)
    · exact trimmedUtf8_not_isPanic _ hpanic
    · exact Res.ok_not_isPanic _ hpanic
  · rw [Res.bind_eq_ok]
    constructor
    · rintro ⟨symbol', hok, heq⟩
      cases heq
      exact ⟨_, List.take_prefix len _, ⟨htake, hok⟩, by rw [htake]⟩
    · rintro ⟨piece, ⟨rest, hrest⟩, ⟨hpiece, hok⟩, rfl⟩
      rw [← hrest, ← hpiece, List.take_left]
      exact ⟨symbol, hok, rfl⟩

theorem recognizes_symbolLoop (hlen : len < 2 ^ 17) (count i : Nat)
    (hin : InSlice buffer pos) (hfits : pos + count * len ≤ buffer.length) :
    Recognizes buffer pos (decodeSymbolLoop len buffer count i pos)
      (many (symbolGrammar len) count) := by
  induction count generalizing i pos with
  | zero => exact Recognizes.ok buffer pos []
  | succ count ih =>
      rw [Nat.succ_mul] at hfits
      unfold decodeSymbolLoop
      have hsymbol := recognizes_symbol hin hlen (by omega)
      refine hsymbol.mapErr.bind (fun symbol stop hok => ?_)
      rw [Res.mapErr_eq_ok] at hok
      obtain ⟨piece, _, ⟨hpiece, _⟩, rfl⟩ := (hsymbol.accepts _ _).mp hok
      refine (ih (i + 1) ⟨hin.length_le, by omega⟩ (by omega)).bind ?_
      intro rest stop _
      exact Recognizes.ok buffer stop (symbol :: rest)

theorem recognizes_repeatedSymbolCstr (hin : InSlice buffer pos)
    (hlen : len < 2 ^ 17) :
    Recognizes buffer pos (decodeMetadataRepeatedSymbolCstr len buffer pos)
      (counted (symbolGrammar len)) := by
  unfold decodeMetadataRepeatedSymbolCstr
  rw [hin.addUsize (by decide), Res.ok_bind]
  apply Recognizes.guard
  · rintro _ _ hpiece ⟨front, back, n, rfl, ⟨hfront, _⟩, _⟩
    have hinside := Recognizes.inside hpiece hin.pos_le
    rw [List.length_append] at hinside
    omega
  intro hguard
  have hcount := leNat_take_lt 4 (buffer.drop pos)
  rw [fromLeSlice_eq (by omega), Res.ok_bind,
    mulUsize_of_count hcount hlen, Res.ok_bind]
  apply recognizes_uint (by omega)
  have hin' : InSlice buffer (pos + 4) := ⟨hin.length_le, by omega⟩
  rw [hin'.addUsize (count_mul_lt hcount hlen), Res.ok_bind]
  apply Recognizes.guard
  · intro piece symbols hpiece hmany
    have hinside := Recognizes.inside hpiece hin'.pos_le
    rw [Grammar.length_many (fun bytes symbol h => h.1) hmany] at hinside
    omega
  intro hguard'
  exact recognizes_symbolLoop hlen _ 0 hin' (by omega)

theorem decodeIso8601_not_isPanic (raw : Nat) :
    ¬ (decodeIso8601 raw : Res String D).IsPanic := by
  unfold decodeIso8601
  dsimp only
  split
  · split <;> simp
  · simp

theorem recognizes_intervalDate (which : String) (idx i : Nat)
    (hin : InSlice buffer pos) (hfits : pos + 4 ≤ buffer.length) :
    Recognizes buffer pos
      (decodeIntervalDate (D := D) which idx i buffer pos) dateGrammar := by
  have htake : ((buffer.drop pos).take 4).length = 4 := by
    rw [List.length_take, List.length_drop]
    omega
  unfold decodeIntervalDate
  rw [fromLeSlice_eq hfits, Res.ok_bind, hin.addUsize (by decide), Res.ok_bind]
  refine ⟨?_, fun date stop => ?_⟩
  · rw [Res.bind_isPanic, Res.mapErr_isPanic]
    rintro (hpanic | ⟨date, _, hpanic⟩)
    · exact decodeIso8601_not_isPanic _ hpanic
    · exact Res.ok_not_isPanic _ hpanic
  · rw [Res.bind_eq_ok]
    constructor
    · rintro ⟨date', hok, heq⟩
      cases heq
      rw [Res.mapErr_eq_ok] at hok
      exact ⟨_, List.take_prefix 4 _, ⟨htake, hok⟩, by rw [htake]⟩
    · rintro ⟨piece, ⟨rest, hrest⟩, ⟨hpiece, hok⟩, rfl⟩
      rw [← hrest, hpiece, ← hpiece, List.take_left]
      exact ⟨date, Res.mapErr_eq_ok.mpr hok, rfl⟩

theorem length_intervalGrammar (bytes : List UInt8) (iv : MappingInterval D)
    (h : intervalGrammar len bytes iv) : bytes.length = 4 * 2 + len := by
  rcases h with ⟨p1, _, _, rfl, ⟨h1, _⟩, p2, _, _, rfl, ⟨h2, _⟩, p3, _, _, rfl,
    ⟨h3, _⟩, rfl, _⟩
  simp only [List.length_append, List.length_nil]
  omega

theorem recognizes_intervalLoop (hlen : len < 2 ^ 16) (idx count i : Nat)
    (hin : InSlice buffer pos)
    (hfits : pos + count * (4 * 2 + len) ≤ buffer.length) :
    Recognizes buffer pos
      (decodeIntervalLoop (D := D) len idx buffer count i pos)
      (many (intervalGrammar len) count) := by
  induction count generalizing i pos with
  | zero => exact Recognizes.ok buffer pos []
  | succ count ih =>
      rw [Nat.succ_mul] at hfits
      have hlength := hin.length_le
      have hstart := recognizes_intervalDate (D := D) "start" idx i hin
        (by omega)
      unfold decodeIntervalLoop many intervalGrammar
      simp only [Grammar.seq_seq, Grammar.value_seq]
      refine hstart.bind (fun startDate stop hok => ?_)
      obtain ⟨p1, _, ⟨h1, _⟩, rfl⟩ := (hstart.accepts _ _).mp hok
      have hin1 : InSlice buffer (pos + p1.length) := ⟨hlength, by omega⟩
      have hend := recognizes_intervalDate (D := D) "end" idx i hin1
        (by omega)
      refine hend.bind (fun endDate stop hok => ?_)
      obtain ⟨p2, _, ⟨h2, _⟩, rfl⟩ := (hend.accepts _ _).mp hok
      have hin2 : InSlice buffer (pos + p1.length + p2.length) :=
        ⟨hlength, by omega⟩
      have hsymbol : Recognizes buffer (pos + p1.length + p2.length)
          (decodeMetadataSymbol len buffer (pos + p1.length + p2.length))
          (symbolGrammar len) :=
        recognizes_symbol hin2 (by omega) (by omega)
      refine hsymbol.mapErr.bind (fun symbol stop hok => ?_)
      rw [Res.mapErr_eq_ok] at hok
      obtain ⟨p3, _, ⟨h3, _⟩, rfl⟩ := (hsymbol.accepts _ _).mp hok
      refine (ih (i + 1) ⟨hlength, by omega⟩ (by omega)).bind ?_
      intro rest stop _
      exact Recognizes.ok buffer stop _

theorem recognizes_symbolMapping (idx : Nat) (hin : InSlice buffer pos)
    (hlen : len < 2 ^ 16) :
    Recognizes buffer pos
      (decodeMetadataSymbolMapping (D := D) len idx buffer pos)
      (mappingGrammar len) := by
  have hlength := hin.length_le
  unfold decodeMetadataSymbolMapping
  dsimp only
  rw [hin.addUsize (by omega), Res.ok_bind]
  apply Recognizes.guard
  · rintro _ _ hpiece ⟨p1, _, _, rfl, ⟨h1, _⟩, _, p3, _, rfl,
      ⟨p2, _, _, rfl, ⟨h2, _⟩, _⟩, _⟩
    have hinside := Recognizes.inside hpiece hin.pos_le
    simp only [List.length_append] at hinside
    omega
  intro hguard
  have hsymbol : Recognizes buffer pos (decodeMetadataSymbol len buffer pos)
      (symbolGrammar len) := recognizes_symbol hin (by omega) (by omega)
  unfold mappingGrammar counted
  simp only [Grammar.seq_seq]
  refine hsymbol.mapErr.bind (fun rawSymbol stop hok => ?_)
  rw [Res.mapErr_eq_ok] at hok
  obtain ⟨p1, _, ⟨h1, _⟩, rfl⟩ := (hsymbol.accepts _ _).mp hok
  have hin1 : InSlice buffer (pos + p1.length) := ⟨hlength, by omega⟩
  have hin2 : InSlice buffer (pos + p1.length + 4) := ⟨hlength, by omega⟩
  have hcount := leNat_take_lt 4 (buffer.drop (pos + p1.length))
  dsimp only
  rw [fromLeSlice_eq (by omega), Res.ok_bind, hin1.addUsize (by decide),
    Res.ok_bind, mulUsize_of_count hcount (by omega), Res.ok_bind,
    hin2.addUsize (count_mul_lt hcount (by omega)), Res.ok_bind]
  apply recognizes_uint (by omega)
  apply Recognizes.guard
  · rintro _ _ hpiece ⟨front, _, _, rfl, hmany, _⟩
    have hinside := Recognizes.inside hpiece hin2.pos_le
    rw [List.length_append, Grammar.length_many length_intervalGrammar hmany]
      at hinside
    omega
  intro hguard'
  refine (recognizes_intervalLoop hlen idx _ 0 hin2 (by omega)).bind ?_
  intro intervals stop _
  exact Recognizes.ok buffer stop _

theorem recognizes_mappingLoop (hlen : len < 2 ^ 16) (count i : Nat)
    (hin : InSlice buffer pos) :
    Recognizes buffer pos (decodeMappingLoop (D := D) len buffer count i pos)
      (many (mappingGrammar len) count) := by
  induction count generalizing i pos with
  | zero => exact Recognizes.ok buffer pos []
  | succ count ih =>
      unfold decodeMappingLoop
      have hmapping := recognizes_symbolMapping (D := D) i hin hlen
      refine hmapping.bind (fun mapping stop hok => ?_)
      have hstop := hmapping.stop_le hin.pos_le hok
      refine (ih (i + 1) ⟨hin.length_le, hstop.2⟩).bind ?_
      intro rest stop _
      exact Recognizes.ok buffer stop (mapping :: rest)

theorem recognizes_symbolMappings (hin : InSlice buffer pos)
    (hlen : len < 2 ^ 16) :
    Recognizes buffer pos
      (decodeMetadataSymbolMappings (D := D) len buffer pos)
      (counted (mappingGrammar len)) := by
  unfold decodeMetadataSymbolMappings
  rw [hin.addUsize (by decide), Res.ok_bind]
  apply Recognizes.guard
  · rintro _ _ hpiece ⟨front, back, n, rfl, ⟨hfront, _⟩, _⟩
    have hinside := Recognizes.inside hpiece hin.pos_le
    rw [List.length_append] at hinside
    omega
  intro hguard
  rw [fromLeSlice_eq (by omega), Res.ok_bind]
  apply recognizes_uint (by omega)
  exact recognizes_mappingLoop hlen _ 0 ⟨hin.length_le, by omega⟩

end DbnFsm
end Dbn
