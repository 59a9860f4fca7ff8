import Dbn.Encode.FieldTexts
import Dbn.Lib.Json

/-!
# A JSON writer without whitespace

A writer that escapes the bytes of a string one by one and writes no
whitespace.  Its texts are among those that a JSON writer may write.
-/

namespace Dbn

open Lib
open Lib.Json

/-!
## Decimal numbers
-/

theorem isDigits_itoaNat (n : Nat) : IsDigits (itoaNat n) := by
  constructor
  · intro h
    exact Nat.toDigits_ne_nil (List.map_eq_nil_iff.mp h)
  · intro b hb
    exact isDigit_of_mem_itoaNat hb

theorem itoaNat_of_lt {n : Nat} (h : n < 10) :
    itoaNat n = [UInt8.ofNat n.digitChar.toNat] := by
  unfold itoaNat
  rw [Nat.toDigits_of_lt_base h]
  rfl

theorem itoaNat_of_le {n : Nat} (h : 10 ≤ n) :
    itoaNat n = itoaNat (n / 10) ++ itoaNat (n % 10) := by
  have hmod : n % 10 < 10 := Nat.mod_lt n (by decide)
  rw [itoaNat_of_lt hmod]
  unfold itoaNat
  rw [Nat.toDigits_of_base_le (by decide) h, List.map_append]
  rfl

theorem head_itoaNat_of_lt :
    forall n, n < 10 -> n ≠ 0 -> (itoaNat n).head? ≠ some 0x30 := by
  decide

theorem head_itoaNat {n : Nat} (h : n ≠ 0) :
    (itoaNat n).head? ≠ some 0x30 := by
  induction n using Nat.strongRecOn with
  | ind n ih =>
      by_cases hlt : n < 10
      · exact head_itoaNat_of_lt n hlt h
      · have hle : 10 ≤ n := Nat.le_of_not_lt hlt
        have hne : n / 10 ≠ 0 := by
          intro hzero
          have hpos := Nat.div_pos hle (by decide : 0 < 10)
          rw [hzero] at hpos
          exact Nat.lt_irrefl 0 hpos
        rw [itoaNat_of_le hle,
          List.head?_append_of_ne_nil _ (isDigits_itoaNat (n / 10)).1]
        exact ih (n / 10) (Nat.div_lt_self (by omega) (by decide)) hne

theorem isInt_itoaNat (n : Nat) : IsInt (itoaNat n) := by
  refine ⟨isDigits_itoaNat n, ?_⟩
  by_cases h : n = 0
  · left
    rw [h]
    rfl
  · right
    exact head_itoaNat h

theorem isNumber_itoa (n : Int) : IsNumber (itoa n) := by
  unfold itoa
  split
  · exact ⟨[0x2D], itoaNat n.natAbs, [], [], by decide, isInt_itoaNat _,
      Or.inl rfl, Or.inl rfl, by rw [List.append_nil, List.append_nil]; rfl⟩
  · exact ⟨[], itoaNat n.natAbs, [], [], by decide, isInt_itoaNat _,
      Or.inl rfl, Or.inl rfl, by rw [List.append_nil, List.append_nil]; rfl⟩

/-!
## Strings
-/

def escapeByte (b : UInt8) : Text :=
  if b = 0x22 ∨ b = 0x5C then [0x5C, b]
  else if b < 0x20 then
    [0x5C, 0x75, 0x30, 0x30, lowerHexDigit (b.toNat / 16),
      lowerHexDigit (b.toNat % 16)]
  else [b]

def escapeString (s : Text) : Text :=
  s.flatMap escapeByte

theorem isHexDigit_lowerHexDigit :
    forall n, n < 16 -> IsHexDigit (lowerHexDigit n) := by
  decide

theorem isBody_escapeString (s : Text) : IsBody (escapeString s) := by
  induction s with
  | nil => exact IsBody.nil
  | cons b rest ih =>
      show IsBody (escapeByte b ++ escapeString rest)
      unfold escapeByte
      split
      · next hb =>
          apply IsBody.escaped _ ih
          rcases hb with rfl | rfl <;> decide
      · next hb =>
          split
          · have hdiv : b.toNat / 16 < 16 :=
              Nat.div_lt_of_lt_mul b.toNat_lt
            exact IsBody.unicode (by decide) (by decide)
              (isHexDigit_lowerHexDigit _ hdiv)
              (isHexDigit_lowerHexDigit _ (Nat.mod_lt _ (by decide))) ih
          · next hlow =>
              exact IsBody.plain (UInt8.not_lt.mp hlow)
                (fun heq => hb (Or.inl heq)) (fun heq => hb (Or.inr heq)) ih

theorem isString_escapeString (s : Text) :
    IsString (quoted (escapeString s)) :=
  ⟨_, isBody_escapeString s, rfl⟩

/-!
## Documents
-/

def compactKey (key : String) : Text :=
  quoted (escapeString (asciiBytes key)) ++ [0x3A]

mutual

def compact : Doc -> Text
  | .null => asciiBytes "null"
  | .string s => quoted (escapeString s)
  | .integer n => itoa n
  | .raw fragments => fragments.flatten
  | .object members => [0x7B] ++ compactMembers members ++ [0x7D]
  | .array items => [0x5B] ++ compactItems items ++ [0x5D]

def compactMembers : Members -> Text
  | .nil => []
  | .cons key value rest =>
      compactKey key ++ compact value ++ moreMembers rest

def moreMembers : Members -> Text
  | .nil => []
  | .cons key value rest =>
      [0x2C] ++ (compactKey key ++ compact value ++ moreMembers rest)

def compactItems : Items -> Text
  | .nil => []
  | .cons value rest => compact value ++ moreItems rest

def moreItems : Items -> Text
  | .nil => []
  | .cons value rest => [0x2C] ++ (compact value ++ moreItems rest)

end

theorem isWs_nil : IsWs [] := by
  intro b hb
  cases hb

theorem isMember_compact (key : String) (value : Text) :
    IsMember value (compactKey key ++ value) := by
  refine ⟨[], _, [], [], [], isWs_nil, isString_escapeString (asciiBytes key),
    isWs_nil, isWs_nil, isWs_nil, ?_⟩
  simp [compactKey]

theorem isItem_compact (value : Text) : IsItem value value := by
  refine ⟨[], [], isWs_nil, isWs_nil, ?_⟩
  simp

theorem rendered_members_cons {key : String} {value : Doc} {rest : Members}
    (hvalue : Rendered (.value value) (compact value))
    (hrest : rest ≠ .nil -> Rendered (.members rest) (compactMembers rest)) :
    Rendered (.members (.cons key value rest))
      (compactMembers (.cons key value rest)) := by
  cases rest with
  | nil =>
      rw [compactMembers, moreMembers, List.append_nil]
      exact Rendered.lastMember hvalue (isMember_compact key _)
  | cons key' value' rest =>
      have hmore := hrest (fun h => by cases h)
      rw [compactMembers] at hmore
      rw [compactMembers, moreMembers, ← List.append_assoc]
      exact Rendered.member hvalue (isMember_compact key _) hmore

theorem rendered_items_cons {value : Doc} {rest : Items}
    (hvalue : Rendered (.value value) (compact value))
    (hrest : rest ≠ .nil -> Rendered (.items rest) (compactItems rest)) :
    Rendered (.items (.cons value rest)) (compactItems (.cons value rest)) := by
  cases rest with
  | nil =>
      rw [compactItems, moreItems, List.append_nil]
      exact Rendered.lastItem hvalue (isItem_compact _)
  | cons value' rest =>
      have hmore := hrest (fun h => by cases h)
      rw [compactItems] at hmore
      rw [compactItems, moreItems, ← List.append_assoc]
      exact Rendered.item hvalue (isItem_compact _) hmore

theorem rendered_object {members : Members}
    (h : members ≠ .nil ->
      Rendered (.members members) (compactMembers members)) :
    Rendered (.value (.object members)) (compact (.object members)) := by
  rw [compact]
  cases members with
  | nil => exact Rendered.emptyObject isWs_nil
  | cons key value rest => exact Rendered.object (h (fun h => by cases h))

theorem rendered_array {items : Items}
    (h : items ≠ .nil -> Rendered (.items items) (compactItems items)) :
    Rendered (.value (.array items)) (compact (.array items)) := by
  rw [compact]
  cases items with
  | nil => exact Rendered.emptyArray isWs_nil
  | cons value rest => exact Rendered.array (h (fun h => by cases h))

mutual

/-- The texts of the writer. -/
theorem rendered_compact : (doc : Doc) ->
    Rendered (.value doc) (compact doc)
  | .null => Rendered.null
  | .string s => Rendered.string (isString_escapeString s)
  | .integer n => Rendered.integer (isNumber_itoa n)
  | .raw _ => Rendered.raw
  | .object members => rendered_object (rendered_compactMembers members)
  | .array items => rendered_array (rendered_compactItems items)

theorem rendered_compactMembers : (members : Members) -> members ≠ .nil ->
    Rendered (.members members) (compactMembers members)
  | .nil, h => absurd rfl h
  | .cons _ value rest, _ =>
      rendered_members_cons (rendered_compact value)
        (rendered_compactMembers rest)

theorem rendered_compactItems : (items : Items) -> items ≠ .nil ->
    Rendered (.items items) (compactItems items)
  | .nil, h => absurd rfl h
  | .cons value rest, _ =>
      rendered_items_cons (rendered_compact value) (rendered_compactItems rest)

end

end Dbn
