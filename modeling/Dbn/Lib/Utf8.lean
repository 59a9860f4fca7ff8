import Mathlib.Data.List.DropRight
import Mathlib.Tactic.Common

/-!
# UTF-8 text

Rust text is a byte sequence that is valid UTF-8.  The validator follows the
documented table of well-formed byte sequences and reports the position and
length of the first invalid sequence; `Str` is the type of validated bytes.
-/

namespace Dbn
namespace Lib

/-- `std::str::Utf8Error`. -/
structure Utf8Error where
  validUpTo : Nat
  errorLen : Option Nat
deriving DecidableEq, Repr

/-!
## Validation
-/

/-- A continuation byte. -/
def isContinuation (b : UInt8) : Bool :=
  0x80 ≤ b && b ≤ 0xBF

/-- The second byte allowed after the first byte of a three-byte sequence. -/
def secondOfThree (first second : UInt8) : Bool :=
  if first = 0xE0 then 0xA0 ≤ second && second ≤ 0xBF
  else if first = 0xED then 0x80 ≤ second && second ≤ 0x9F
  else isContinuation second

/-- The second byte allowed after the first byte of a four-byte sequence. -/
def secondOfFour (first second : UInt8) : Bool :=
  if first = 0xF0 then 0x90 ≤ second && second ≤ 0xBF
  else if first = 0xF4 then 0x80 ≤ second && second ≤ 0x8F
  else isContinuation second

/--
The width of the sequence that starts with `first`, or the length of the
invalid sequence; `none` when the input ends inside a sequence.
-/
def sequenceWidth (first : UInt8) (rest : List UInt8) :
    Except (Option Nat) Nat :=
  if first < 0x80 then Except.ok 1
  else if 0xC2 ≤ first && first ≤ 0xDF then
    match rest with
    | [] => Except.error none
    | b1 :: _ => if isContinuation b1 then Except.ok 2 else Except.error (some 1)
  else if 0xE0 ≤ first && first ≤ 0xEF then
    match rest with
    | [] => Except.error none
    | b1 :: tail =>
        if secondOfThree first b1 then
          match tail with
          | [] => Except.error none
          | b2 :: _ =>
              if isContinuation b2 then Except.ok 3 else Except.error (some 2)
        else Except.error (some 1)
  else if 0xF0 ≤ first && first ≤ 0xF4 then
    match rest with
    | [] => Except.error none
    | b1 :: tail =>
        if secondOfFour first b1 then
          match tail with
          | [] => Except.error none
          | b2 :: tail =>
              if isContinuation b2 then
                match tail with
                | [] => Except.error none
                | b3 :: _ =>
                    if isContinuation b3 then Except.ok 4
                    else Except.error (some 3)
              else Except.error (some 2)
        else Except.error (some 1)
  else Except.error (some 1)

/--
`core::str::run_utf8_validation` from byte position `i` on, where the first
`skip` bytes belong to a sequence that has been checked already.
-/
def runUtf8Validation : Nat -> List UInt8 -> Nat -> Except Utf8Error Unit
  | _, [], _ => Except.ok ()
  | skip + 1, _ :: rest, i => runUtf8Validation skip rest i
  | 0, first :: rest, i =>
      match sequenceWidth first rest with
      | Except.ok width => runUtf8Validation (width - 1) rest (i + width)
      | Except.error errorLen => Except.error ⟨i, errorLen⟩

/-- The bytes are valid UTF-8. -/
def IsUtf8 (bytes : List UInt8) : Prop :=
  runUtf8Validation 0 bytes 0 = Except.ok ()

instance (bytes : List UInt8) : Decidable (IsUtf8 bytes) :=
  match h : runUtf8Validation 0 bytes 0 with
  | Except.ok () => isTrue h
  | Except.error e => isFalse (by simp [IsUtf8, h])

theorem runUtf8Validation_of_ascii {bytes : List UInt8}
    (h : forall b, b ∈ bytes -> b < 0x80) (i : Nat) :
    runUtf8Validation 0 bytes i = Except.ok () := by
  induction bytes generalizing i with
  | nil => rfl
  | cons b rest ih =>
      have hb : b < 0x80 := h b List.mem_cons_self
      have hwidth : sequenceWidth b rest = Except.ok 1 := if_pos hb
      rw [runUtf8Validation, hwidth]
      exact ih (fun c hc => h c (List.mem_cons_of_mem b hc)) (i + 1)

@[simp] theorem isContinuation_nul : isContinuation 0 = false := by decide

@[simp] theorem secondOfThree_nul (first : UInt8) :
    secondOfThree first 0 = false := by
  unfold secondOfThree
  split
  · decide
  · split <;> decide

@[simp] theorem secondOfFour_nul (first : UInt8) :
    secondOfFour first 0 = false := by
  unfold secondOfFour
  split
  · decide
  · split <;> decide

/-- NUL never continues a sequence, so no sequence needs a final NUL. -/
theorem sequenceWidth_of_concat_nul {first : UInt8} {rest : List UInt8}
    {width : Nat}
    (h : sequenceWidth first (rest ++ [0]) = Except.ok width) :
    sequenceWidth first rest = Except.ok width := by
  cases rest with
  | nil =>
      simp [sequenceWidth] at h ⊢
      grind
  | cons b1 rest =>
      cases rest with
      | nil =>
          simp [sequenceWidth] at h ⊢
          grind
      | cons b2 rest =>
          cases rest with
          | nil =>
              simp [sequenceWidth] at h ⊢
              grind
          | cons b3 rest =>
              exact h

theorem runUtf8Validation_of_concat_nul {bytes : List UInt8} {skip i : Nat}
    (h : runUtf8Validation skip (bytes ++ [0]) i = Except.ok ()) :
    runUtf8Validation skip bytes i = Except.ok () := by
  induction bytes generalizing skip i with
  | nil => rfl
  | cons b rest ih =>
      cases skip with
      | succ skip => exact ih h
      | zero =>
          rw [List.cons_append, runUtf8Validation] at h
          cases hwidth : sequenceWidth b (rest ++ [0]) with
          | error e =>
              rw [hwidth] at h
              cases h
          | ok width =>
              rw [hwidth] at h
              rw [runUtf8Validation, sequenceWidth_of_concat_nul hwidth]
              exact ih h

theorem isUtf8_nil : IsUtf8 [] := rfl

theorem isUtf8_of_ascii {bytes : List UInt8}
    (h : forall b, b ∈ bytes -> b < 0x80) : IsUtf8 bytes :=
  runUtf8Validation_of_ascii h 0

theorem isUtf8_rdropWhile_nul {bytes : List UInt8} (h : IsUtf8 bytes) :
    IsUtf8 (bytes.rdropWhile (· == 0)) := by
  induction bytes using List.reverseRecOn with
  | nil => exact h
  | append_singleton front b ih =>
      rw [List.rdropWhile_concat]
      by_cases hb : b = 0
      · subst hb
        simpa using ih (runUtf8Validation_of_concat_nul h)
      · simpa [hb] using h

/-!
## Character boundaries
-/

section Boundaries

theorem isContinuation_of_secondOfThree {first second : UInt8}
    (h : secondOfThree first second = true) : isContinuation second = true := by
  unfold secondOfThree at h
  unfold isContinuation at *
  grind

theorem isContinuation_of_secondOfFour {first second : UInt8}
    (h : secondOfFour first second = true) : isContinuation second = true := by
  unfold secondOfFour at h
  unfold isContinuation at *
  grind

variable {first : UInt8} {rest bytes : List UInt8} {width : Nat}

theorem isContinuation_first (h : sequenceWidth first rest = Except.ok width) :
    isContinuation first = false := by
  have hrange : first < 0x80 ∨ 0xC2 ≤ first := by
    unfold sequenceWidth at h
    grind
  unfold isContinuation
  grind

theorem sequenceWidth_pos (h : sequenceWidth first rest = Except.ok width) :
    0 < width := by
  unfold sequenceWidth at h
  grind

theorem isContinuation_inside
    (h : sequenceWidth first rest = Except.ok width) {j : Nat}
    (hj : j + 1 < width) {b : UInt8} (hb : rest[j]? = some b) :
    isContinuation b = true := by
  unfold sequenceWidth at h
  rcases rest with _ | ⟨b1, _ | ⟨b2, _ | ⟨b3, tail⟩⟩⟩
  all_goals rcases j with _ | _ | _ | j
  all_goals
    simp only [List.getElem?_nil, List.getElem?_cons_zero,
      List.getElem?_cons_succ] at h hb
  all_goals
    grind [isContinuation_of_secondOfThree, isContinuation_of_secondOfFour]

/-- A sequence that is cut is incomplete and not invalid. -/
theorem sequenceWidth_take (h : sequenceWidth first rest = Except.ok width)
    (k : Nat) :
    sequenceWidth first (rest.take k) =
      if width ≤ k + 1 then Except.ok width else Except.error none := by
  unfold sequenceWidth at h ⊢
  rcases rest with _ | ⟨b1, _ | ⟨b2, _ | ⟨b3, tail⟩⟩⟩
  all_goals rcases k with _ | _ | _ | k
  all_goals
    simp only [List.take_nil, List.take_zero, List.take_succ_cons] at h ⊢
  all_goals grind

theorem sequenceWidth_le (h : sequenceWidth first rest = Except.ok width) :
    width ≤ rest.length + 1 := by
  by_contra hlong
  have hcut := sequenceWidth_take h rest.length
  rw [List.take_length, h, if_neg hlong] at hcut
  cases hcut

/-- The position is only reported. -/
theorem runUtf8Validation_position {skip i : Nat} (j : Nat)
    (h : runUtf8Validation skip bytes i = Except.ok ()) :
    runUtf8Validation skip bytes j = Except.ok () := by
  induction bytes generalizing skip i j with
  | nil =>
      cases skip with
      | zero => rfl
      | succ skip => rfl
  | cons first rest ih =>
      cases skip with
      | succ skip => exact ih j h
      | zero =>
          rw [runUtf8Validation] at h ⊢
          cases hwidth : sequenceWidth first rest with
          | error e =>
              rw [hwidth] at h
              cases h
          | ok width =>
              rw [hwidth] at h
              exact ih _ h

theorem runUtf8Validation_skip {skip : Nat} (i : Nat)
    (h : skip ≤ bytes.length) :
    runUtf8Validation skip bytes i =
      runUtf8Validation 0 (bytes.drop skip) i := by
  induction bytes generalizing skip with
  | nil =>
      rw [Nat.le_zero.mp h]
      rfl
  | cons first rest ih =>
      cases skip with
      | zero => rfl
      | succ skip => exact ih (Nat.le_of_succ_le_succ h)

/-- Valid text starts with a character, and the rest is valid. -/
theorem isUtf8_cons_iff : IsUtf8 (first :: rest) <->
    exists width, sequenceWidth first rest = Except.ok width ∧
      IsUtf8 (rest.drop (width - 1)) := by
  unfold IsUtf8
  rw [runUtf8Validation]
  cases hwidth : sequenceWidth first rest with
  | error e =>
      constructor
      · intro h
        cases h
      · intro h
        rcases h with ⟨width, heq, _⟩
        cases heq
  | ok width =>
      have hle := sequenceWidth_le hwidth
      dsimp only
      rw [runUtf8Validation_skip _ (by omega)]
      constructor
      · intro h
        exact ⟨width, rfl, runUtf8Validation_position 0 h⟩
      · intro h
        rcases h with ⟨width', heq, h⟩
        cases heq
        exact runUtf8Validation_position _ h

/-- Valid text stays valid exactly if it is cut between two characters. -/
theorem isUtf8_take_iff (h : IsUtf8 bytes) (k : Nat) :
    IsUtf8 (bytes.take k) <->
      forall b, bytes[k]? = some b -> isContinuation b = false := by
  induction hn : bytes.length using Nat.strong_induction_on
    generalizing bytes k with
  | _ n ih =>
  cases bytes with
  | nil =>
      rw [List.take_nil]
      constructor
      · intro _ b hb
        cases hb
      · intro _
        exact h
  | cons first rest =>
      rcases isUtf8_cons_iff.mp h with ⟨width, hwidth, htail⟩
      have hpos := sequenceWidth_pos hwidth
      have hle := sequenceWidth_le hwidth
      cases k with
      | zero =>
          constructor
          · intro _ b hb
            cases hb
            exact isContinuation_first hwidth
          · intro _
            rfl
      | succ k =>
          rw [List.take_succ_cons, List.getElem?_cons_succ, isUtf8_cons_iff,
            sequenceWidth_take hwidth]
          by_cases hwhole : width ≤ k + 1
          · -- the first character is whole
            rw [List.length_cons] at hn
            have hrest := ih (rest.drop (width - 1)).length
              (by rw [List.length_drop]; omega) htail (k - (width - 1)) rfl
            rw [List.getElem?_drop, Nat.add_sub_cancel' (by omega),
              List.take_drop, Nat.add_sub_cancel' (by omega)] at hrest
            rw [if_pos hwhole, ← hrest]
            constructor
            · intro hsome
              rcases hsome with ⟨width', heq, hvalid⟩
              cases heq
              exact hvalid
            · intro hvalid
              exact ⟨width, rfl, hvalid⟩
          · -- the text is cut inside of the first character
            rw [if_neg hwhole]
            have hin : k < rest.length := by omega
            have hcontinued := isContinuation_inside hwidth
              (Nat.not_le.mp hwhole) (List.getElem?_eq_getElem hin)
            constructor
            · intro hsome
              rcases hsome with ⟨width', heq, _⟩
              cases heq
            · intro hboundary
              rw [hboundary _ (List.getElem?_eq_getElem hin)] at hcontinued
              cases hcontinued

end Boundaries

/-!
## Text
-/

/-- A Rust string: bytes that are valid UTF-8. -/
@[ext]
structure Str where
  bytes : List UInt8
  valid : IsUtf8 bytes
deriving DecidableEq

namespace Str

/-- `std::str::from_utf8`. -/
def fromUtf8 (bytes : List UInt8) : Except Utf8Error Str :=
  match h : runUtf8Validation 0 bytes 0 with
  | Except.ok () => Except.ok ⟨bytes, h⟩
  | Except.error e => Except.error e

/-- `str::trim_end_matches('\0')`. -/
def trimEndNul (s : Str) : Str :=
  ⟨s.bytes.rdropWhile (· == 0), isUtf8_rdropWhile_nul s.valid⟩

/-- `str::is_ascii`. -/
def isAscii (s : Str) : Bool :=
  s.bytes.all (· < 0x80)

/-- `str::len`, in bytes. -/
def len (s : Str) : Nat :=
  s.bytes.length

/-- `str::is_char_boundary`. -/
def isCharBoundary (s : Str) (index : Nat) : Bool :=
  match s.bytes[index]? with
  | none => index == s.len
  | some b => !isContinuation b

/-- The text as shown by a formatting macro. -/
def display (s : Str) : String :=
  (String.fromUTF8? ⟨s.bytes.toArray⟩).getD ""

theorem fromUtf8_of_valid {bytes : List UInt8} (h : IsUtf8 bytes) :
    fromUtf8 bytes = Except.ok ⟨bytes, h⟩ := by
  unfold IsUtf8 at h
  unfold fromUtf8
  split
  · rfl
  · next e he =>
      rw [h] at he
      cases he

theorem fromUtf8_of_not_valid {bytes : List UInt8} (h : ¬ IsUtf8 bytes) :
    exists e, fromUtf8 bytes = Except.error e := by
  unfold IsUtf8 at h
  unfold fromUtf8
  split
  · next hok =>
      exact absurd hok h
  · next e _ =>
      exact ⟨e, rfl⟩

/-- Text is cut at a boundary, or not at all. -/
theorem isUtf8_take_iff_isCharBoundary (s : Str) (k : Nat) :
    IsUtf8 (s.bytes.take k) <-> s.isCharBoundary (min k s.len) = true := by
  rw [isUtf8_take_iff s.valid]
  unfold isCharBoundary
  by_cases hin : k < s.bytes.length
  · rw [show min k s.len = k from Nat.min_eq_left (Nat.le_of_lt hin),
      List.getElem?_eq_getElem hin]
    dsimp only
    constructor
    · intro h
      rw [h _ rfl]
      rfl
    · intro h b hb
      cases hb
      rw [Bool.not_eq_true'] at h
      exact h
  · rw [Nat.not_lt] at hin
    rw [show min k s.len = s.bytes.length from Nat.min_eq_right hin,
      List.getElem?_eq_none hin, List.getElem?_eq_none (Nat.le_refl _)]
    constructor
    · intro _
      exact beq_self_eq_true _
    · intro _ b hb
      cases hb

/-- Text that does not end in NUL is recovered from its NUL-padded form. -/
theorem trimEndNul_padded {s t : Str} {pad : Nat}
    (hs : s.bytes.getLast? ≠ some 0)
    (ht : t.bytes = s.bytes ++ List.replicate pad 0) :
    trimEndNul t = s := by
  apply Str.ext
  show t.bytes.rdropWhile (· == 0) = s.bytes
  rw [ht]
  clear ht
  induction pad with
  | zero =>
      rw [List.replicate_zero, List.append_nil]
      apply List.rdropWhile_eq_self_iff.mpr
      intro hne hlast
      apply hs
      rw [List.getLast?_eq_some_getLast hne]
      simpa using hlast
  | succ pad ih =>
      rw [List.replicate_succ', ← List.append_assoc, List.rdropWhile_concat]
      simpa using ih

theorem getLast?_trimEndNul (s : Str) :
    (trimEndNul s).bytes.getLast? ≠ some 0 := by
  intro hlast
  change (s.bytes.rdropWhile (· == 0)).getLast? = some 0 at hlast
  have hne : s.bytes.rdropWhile (· == 0) ≠ [] := by
    intro hnil
    rw [hnil] at hlast
    cases hlast
  have hnot := List.rdropWhile_last_not (· == 0) s.bytes hne
  rw [List.getLast?_eq_some_getLast hne, Option.some.injEq] at hlast
  apply hnot
  rw [hlast]
  rfl

end Str

/-- The bytes of an ASCII literal. -/
def asciiBytes (s : String) : List UInt8 :=
  s.toList.map (fun c => UInt8.ofNat c.toNat)

end Lib
end Dbn
