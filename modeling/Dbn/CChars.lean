import Dbn.Compat

/-!
# Fixed-length text

Text in a `[c_char; N]`.  The writers copy bytes and leave room for a NUL; the
reader takes the bytes before the first NUL and validates them.
-/

namespace Dbn

open Lib

/-- `[c_char; N]`, each character as the byte that it is. -/
structure CChars (n : Nat) where
  bytes : List UInt8
  length_eq : bytes.length = n
deriving DecidableEq

namespace CChars

variable {n : Nat}

/-- `[0; N]`. -/
def zeroed (n : Nat) : CChars n :=
  ⟨List.replicate n 0, List.length_replicate⟩

/-- `chars[i] = b`. -/
def set {ε : Type} (chars : CChars n) (i : Nat) (b : UInt8) :
    Res ε (CChars n) :=
  if i < n then
    Res.ok ⟨chars.bytes.set i b, by rw [List.length_set, chars.length_eq]⟩
  else Res.panic Panic.outOfBounds

/-- The loop that assigns bytes one by one, from an index on. -/
def assign {ε : Type} : Nat -> List UInt8 -> CChars n -> Res ε (CChars n)
  | _, [], chars => Res.ok chars
  | i, b :: bytes, chars => do
      let chars ← chars.set i b
      assign (i + 1) bytes chars

/-- The `Debug` text; a `c_char` is signed. -/
def debug (chars : CChars n) : String :=
  "[" ++ ", ".intercalate
    (chars.bytes.map (fun b => toString b.toInt8.toInt)) ++ "]"

end CChars

/-!
## Conversions
-/

/-- Tries to convert a `str` to a null-terminated array. -/
def strToCChars (n : Nat) (s : Str) : Result (CChars n) :=
  if n = 0 then
    -- `N - 1` underflows
    Res.panic Panic.overflow
  else if h : s.len > n - 1 then
    Res.err (Error.encode ("string cannot be longer than " ++
      toString (n - 1) ++ "; received str of length " ++ toString s.len))
  else
    Res.ok
      { bytes := s.bytes ++ List.replicate (n - s.len) 0
        length_eq := by
          unfold Str.len at *
          rw [List.length_append, List.length_replicate]
          omega }

/-- Tries to convert an array to a UTF-8 `str`. -/
def cCharsToStr {n : Nat} (chars : CChars n) : Result Str :=
  if 0 ∈ chars.bytes then
    match Str.fromUtf8 (chars.bytes.takeWhile (· ≠ 0)) with
    | Except.ok s => Res.ok s
    | Except.error e =>
        Res.err (Error.utf8 e ("converting c_char array: " ++ chars.debug))
  else Res.err (Error.conversion chars.debug "CStr (null-terminated)")

section Conversions

variable {n k : Nat} {s : Str} {chars : CChars n} {text : List UInt8}

theorem takeWhile_padded (h : 0 ∉ text) (k : Nat) :
    (text ++ List.replicate k (0 : UInt8)).takeWhile (· ≠ 0) = text := by
  have hall : forall b, b ∈ text -> decide (b ≠ 0) = true := by
    intro b hb
    apply decide_eq_true
    intro hzero
    rw [hzero] at hb
    exact h hb
  rw [List.takeWhile_append_of_pos hall]
  cases k with
  | zero => exact List.append_nil text
  | succ k =>
      rw [List.replicate_succ, List.takeWhile_cons_of_neg (by decide),
        List.append_nil]

/-- Text without a NUL is read from its padded form if it is valid. -/
theorem cCharsToStr_padded (hbytes : chars.bytes = text ++ List.replicate k 0)
    (hnul : 0 ∉ text) (hpad : 0 < k) :
    cCharsToStr chars = Res.ok s <-> IsUtf8 text ∧ s.bytes = text := by
  have hmem : 0 ∈ chars.bytes := by
    rw [hbytes]
    apply List.mem_append_right
    exact List.mem_replicate.mpr ⟨Nat.pos_iff_ne_zero.mp hpad, rfl⟩
  have htext : chars.bytes.takeWhile (· ≠ 0) = text := by
    rw [hbytes]
    exact takeWhile_padded hnul k
  unfold cCharsToStr
  rw [if_pos hmem, htext]
  by_cases hvalid : IsUtf8 text
  · rw [Str.fromUtf8_of_valid hvalid]
    constructor
    · intro h
      cases h
      exact ⟨hvalid, rfl⟩
    · intro h
      exact congrArg Res.ok (Str.ext h.2.symm)
  · rcases Str.fromUtf8_of_not_valid hvalid with ⟨e, he⟩
    rw [he]
    constructor
    · intro h
      cases h
    · intro h
      exact absurd h.1 hvalid

theorem cCharsToStr_nul_not_mem (h : cCharsToStr chars = Res.ok s) :
    0 ∉ s.bytes := by
  unfold cCharsToStr at h
  split at h
  swap
  · cases h
  split at h
  · next hvalid =>
      cases h
      unfold Str.fromUtf8 at hvalid
      split at hvalid
      · cases hvalid
        intro hmem
        have hne : decide ((0 : UInt8) ≠ 0) = true :=
          List.mem_takeWhile_imp (p := fun b => decide (b ≠ 0)) hmem
        exact absurd rfl (of_decide_eq_true hne)
      · cases hvalid
  · cases h

theorem strToCChars_eq_ok (h : strToCChars n s = Res.ok chars) :
    0 < n - s.len ∧ chars.bytes = s.bytes ++ List.replicate (n - s.len) 0 := by
  unfold strToCChars at h
  split at h
  · cases h
  split at h
  · cases h
  · cases h
    exact ⟨by omega, rfl⟩

/--
A string that is accepted is read back in full exactly if it has no NUL; then
its end is where the reader stops.
-/
theorem cCharsToStr_strToCChars_iff (h : strToCChars n s = Res.ok chars) :
    cCharsToStr chars = Res.ok s <-> 0 ∉ s.bytes := by
  rcases strToCChars_eq_ok h with ⟨hpad, hbytes⟩
  constructor
  · exact cCharsToStr_nul_not_mem
  · intro hnul
    exact (cCharsToStr_padded hbytes hnul hpad).mpr ⟨s.valid, rfl⟩

end Conversions

/-- The text of a symbol in an array of five characters. -/
theorem cCharsToStr_strToCChars_iff_symbol :
    cCharsToStr (n := 5) ⟨asciiBytes "MSFT" ++ [0], rfl⟩ =
        Res.ok ⟨asciiBytes "MSFT", by decide⟩ <->
      0 ∉ asciiBytes "MSFT" :=
  cCharsToStr_strToCChars_iff (n := 5) (by decide +kernel)

/-- The string `"A\0B"` is accepted, and `"A"` is read. -/
theorem cCharsToStr_strToCChars_nul :
    exists (s : Str) (chars : CChars 5), s.bytes = [0x41, 0, 0x42] ∧
      strToCChars 5 s = Res.ok chars ∧ cCharsToStr chars ≠ Res.ok s :=
  ⟨⟨[0x41, 0, 0x42], by decide⟩, ⟨[0x41, 0, 0x42, 0, 0], rfl⟩, rfl,
    by decide +kernel, by decide +kernel⟩

end Dbn
