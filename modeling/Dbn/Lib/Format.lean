import Mathlib.Tactic.Common

/-!
# Format specifications

What `std::fmt` makes of an integer with the options of a format
specification.  Texts are bytes, and the fill is a character of one byte.
-/

namespace Dbn
namespace Lib

inductive Alignment where
  | left
  | right
  | center
deriving DecidableEq, Repr

/-- The options of a `Formatter`. -/
structure FormatSpec where
  fill : UInt8 := 0x20
  align : Option Alignment := none
  signPlus : Bool := false
  signAwareZeroPad : Bool := false
  width : Option Nat := none
  precision : Option Nat := none
deriving DecidableEq, Repr

namespace FormatSpec

/-- `Formatter::padding`, as the fill before and after the text. -/
def padding (f : FormatSpec) (amount : Nat) (default : Alignment) :
    List UInt8 × List UInt8 :=
  let before :=
    match f.align.getD default with
    | .left => 0
    | .right => amount
    | .center => amount / 2
  (List.replicate before f.fill, List.replicate (amount - before) f.fill)

/-- `Formatter::pad_integral` with an empty prefix. -/
def padIntegral (f : FormatSpec) (isNonnegative : Bool) (buf : List UInt8) :
    List UInt8 :=
  let sign : List UInt8 :=
    if !isNonnegative then [0x2D] else if f.signPlus then [0x2B] else []
  let width := buf.length + sign.length
  match f.width with
  | none => sign ++ buf
  | some min =>
      if width ≥ min then sign ++ buf
      else if f.signAwareZeroPad then
        sign ++ List.replicate (min - width) 0x30 ++ buf
      else
        let (before, after) := f.padding (min - width) .right
        before ++ sign ++ buf ++ after

theorem padIntegral_of_noWidth {f : FormatSpec} (hwidth : f.width = none)
    (hplus : f.signPlus = false) (isNonnegative : Bool) (buf : List UInt8) :
    f.padIntegral isNonnegative buf =
      (if isNonnegative then [] else [0x2D]) ++ buf := by
  unfold padIntegral
  rw [hwidth, hplus]
  cases isNonnegative with
  | true => rfl
  | false => rfl

/-- Zeros up to the width, as `{:0N}` asks. -/
theorem padIntegral_zeros (width : Nat) (buf : List UInt8) :
    padIntegral { signAwareZeroPad := true, width := some width } true buf =
      List.replicate (width - buf.length) 0x30 ++ buf := by
  have hsign : (if !true then [0x2D] else if false = true then [0x2B] else []) =
      ([] : List UInt8) := rfl
  unfold padIntegral
  dsimp only
  rw [hsign, List.length_nil, Nat.add_zero, List.nil_append, List.nil_append]
  split
  · next hlong =>
      rw [Nat.sub_eq_zero_of_le hlong]
      rfl
  · rw [if_pos rfl]

end FormatSpec
end Lib
end Dbn
