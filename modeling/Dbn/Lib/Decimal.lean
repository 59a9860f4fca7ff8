import Dbn.Lib.Json
import Mathlib.Data.Rat.Floor
import Mathlib.Tactic.Ring
import Mathlib.Tactic.FieldSimp

/-!
# Decimal numbers in text

A decimal number is a sign, integer digits and the digits after the point.
Its value is a rational number.
-/

namespace Dbn
namespace Lib

open Json (Text IsDigit IsDigits IsInt)

/-!
## Digits
-/

/-- The number that digits stand for. -/
def digitsValue (digits : Text) : Nat :=
  digits.foldl (fun n b => n * 10 + (b.toNat - 0x30)) 0

theorem foldl_digits (digits : Text) (n : Nat) :
    digits.foldl (fun n b => n * 10 + (b.toNat - 0x30)) n =
      n * 10 ^ digits.length + digitsValue digits := by
  unfold digitsValue
  induction digits generalizing n with
  | nil => simp
  | cons b rest ih =>
      rw [List.foldl_cons, List.foldl_cons, ih, ih (0 * 10 + _),
        List.length_cons]
      ring

theorem digitsValue_append (front back : Text) :
    digitsValue (front ++ back) =
      digitsValue front * 10 ^ back.length + digitsValue back := by
  rw [digitsValue, List.foldl_append, foldl_digits]
  rfl

/-- Zeros in front of digits do not count. -/
theorem digitsValue_replicate (k : Nat) (digits : Text) :
    digitsValue (List.replicate k 0x30 ++ digits) = digitsValue digits := by
  induction k with
  | zero => rfl
  | succ k ih =>
      rw [List.replicate_succ, List.cons_append]
      exact ih

/-!
## Numbers
-/

structure Decimal where
  negative : Bool
  int : Text
  fraction : Text
  isInt : IsInt int
  isDigit : forall b, b ∈ fraction -> IsDigit b

namespace Decimal

/-- The text of the number, without a point if no digits are behind it. -/
def text (d : Decimal) : Text :=
  (if d.negative then [0x2D] else []) ++ d.int ++
    (if d.fraction = [] then [] else 0x2E :: d.fraction)

def magnitude (d : Decimal) : ℚ :=
  digitsValue d.int + digitsValue d.fraction / 10 ^ d.fraction.length

def value (d : Decimal) : ℚ :=
  if d.negative then -d.magnitude else d.magnitude

/-- The digits without the point are a multiple of the value. -/
theorem magnitude_mul (d : Decimal) :
    d.magnitude * 10 ^ d.fraction.length =
      digitsValue (d.int ++ d.fraction) := by
  have hne : (10 : ℚ) ^ d.fraction.length ≠ 0 := by positivity
  unfold magnitude
  rw [digitsValue_append, add_mul, div_mul_cancel₀ _ hne]
  push_cast
  rfl

theorem magnitude_eq (d : Decimal) :
    d.magnitude = digitsValue (d.int ++ d.fraction) / 10 ^ d.fraction.length :=
  eq_div_of_mul_eq (by positivity) d.magnitude_mul

/-- Two numbers of the same sign without digits behind the point. -/
theorem int_eq_of_text_eq {d : Decimal} {digits : Text}
    (hfraction : d.fraction = [])
    (htext : d.text = (if d.negative then [0x2D] else []) ++ digits) :
    d.int = digits := by
  unfold text at htext
  rw [hfraction, if_pos rfl, List.append_nil] at htext
  exact List.append_cancel_left htext

end Decimal

/-!
## Truncation
-/

/-- A number cut behind `k` decimals. -/
def truncate (k : Nat) (x : ℚ) : ℚ :=
  ⌊x * 10 ^ k⌋ / 10 ^ k

theorem truncate_div (a k m : Nat) :
    truncate k (a / 10 ^ (k + m)) = ((a / 10 ^ m : Nat) : ℚ) / 10 ^ k := by
  have hscale : (a : ℚ) / 10 ^ (k + m) * 10 ^ k = a / (10 ^ m : Nat) := by
    rw [pow_add]
    push_cast
    field_simp
  unfold truncate
  rw [hscale, Rat.floor_natCast_div_natCast]
  rfl

end Lib
end Dbn
