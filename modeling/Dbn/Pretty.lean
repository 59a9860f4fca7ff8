import Dbn.Encode.CompactJson
import Dbn.Lib.Decimal
import Dbn.Lib.Format

/-!
# Prices in text

`fmt_px_into` and `Display` for `Px` over all prices, in builds with and
without overflow checks.  Both negate the price before they split it, which
overflows for the smallest one.
-/

namespace Dbn

open Lib
open Lib.Json (Text IsDigit IsDigits IsInt)

/-!
## Arithmetic of `i64`
-/

/-- `i64::MIN`. -/
def i64Min : Int := -2 ^ 63

structure IsI64 (n : Int) : Prop where
  min_le : i64Min ≤ n
  le_max : n ≤ undefPrice

/--
`-n`, in a build with or without overflow checks.  No other operation on a
price can overflow: the divisors are positive.
-/
def negI64 (checks : Bool) (n : Int) : Res Unit Int :=
  if checks ∧ n = i64Min then Res.panic Panic.overflow
  else Res.ok (wrappingNeg n)

/-- `if n < 0 { (negative, -n) } else { (nonnegative, n) }`. -/
def absWith {α : Type} (checks : Bool) (negative nonnegative : α) (n : Int) :
    Res Unit (α × Int) :=
  if n < 0 then do
    let negated ← negI64 checks n
    Res.ok (negative, negated)
  else Res.ok (nonnegative, n)

/-- `n / divisor` for a divisor that is not -1. -/
def divI64 (n divisor : Int) : Res Unit Int :=
  if divisor = 0 then Res.panic Panic.explicit else Res.ok (n.tdiv divisor)

/-- `Display` for `i64`. -/
def displayI64 (f : FormatSpec) (n : Int) : Text :=
  f.padIntegral (0 ≤ n) (itoaNat n.natAbs)

/-!
## Prices
-/

/-- `fmt_px_into`, as the text that it writes. -/
def fmtPxInto (checks : Bool) (px : Int) : Res Unit Text :=
  if px = undefPrice then Res.ok (asciiBytes "UNDEF_PRICE")
  else do
    let (sign, pxAbs) ← absWith checks (asciiBytes "-") [] px
    let pxInteger := pxAbs.tdiv fixedPriceScale
    let pxFraction := pxAbs.tmod fixedPriceScale
    Res.ok (sign ++ itoa pxInteger ++ asciiBytes "." ++
      padZeros 9 (itoa pxFraction))

/-- `DIVISORS`. -/
def divisors : List Int :=
  [0, 100000000, 10000000, 1000000, 100000, 10000, 1000, 100, 10]

/-- `DIVISORS[precision]`. -/
def divisorAt (precision : Nat) : Res Unit Int :=
  match divisors[precision]? with
  | some divisor => Res.ok divisor
  | none => Res.panic Panic.outOfBounds

/-- `Display` for `Px`. -/
def displayPx (checks : Bool) (f : FormatSpec) (px : Int) : Res Unit Text :=
  if px = undefPrice then Res.ok (asciiBytes "UNDEF_PRICE")
  else do
    let (isNonnegative, pxAbs) ← absWith checks false true px
    let pxInteger := pxAbs.tdiv fixedPriceScale
    let pxFraction := pxAbs.tmod fixedPriceScale
    match f.precision with
    | some 0 => Res.ok (f.padIntegral isNonnegative (itoa pxAbs))
    | some precision =>
        if precision < 9 then do
          let divisor ← divisorAt precision
          let reduced ← divI64 pxFraction divisor
          Res.ok (f.padIntegral isNonnegative
            (displayI64 {} pxInteger ++ asciiBytes "." ++
              displayI64
                { signAwareZeroPad := true, width := some precision } reduced))
        else
          Res.ok (f.padIntegral isNonnegative
            (displayI64 {} pxInteger ++ asciiBytes "." ++
              displayI64
                { signAwareZeroPad := true, width := some 9 } pxFraction))
    | none =>
        Res.ok (f.padIntegral isNonnegative
          (displayI64 {} pxInteger ++ asciiBytes "." ++
            displayI64
              { signAwareZeroPad := true, width := some 9 } pxFraction))

/-- The text encoders run without overflow checks. -/
theorem fmtPxInto_unchecked (px : Int) :
    fmtPxInto false px = Res.ok (fmtPx px) := by
  unfold fmtPxInto fmtPx absWith negI64
  split
  · rfl
  · split
    · rfl
    · rfl

/-!
## Digits of numbers
-/

theorem digitsValue_itoaNat_of_lt :
    forall n, n < 10 -> digitsValue (itoaNat n) = n := by
  decide

theorem digitsValue_itoaNat (n : Nat) : digitsValue (itoaNat n) = n := by
  induction n using Nat.strongRecOn with
  | ind n ih =>
      by_cases hlt : n < 10
      · exact digitsValue_itoaNat_of_lt n hlt
      · have hle : 10 ≤ n := Nat.le_of_not_lt hlt
        have hmod : n % 10 < 10 := Nat.mod_lt n (by decide)
        have hone : (itoaNat (n % 10)).length = 1 := by
          rw [itoaNat_of_lt hmod]
          rfl
        rw [itoaNat_of_le hle, digitsValue_append, hone,
          ih (n / 10) (Nat.div_lt_self (by omega) (by decide)),
          digitsValue_itoaNat_of_lt _ hmod, Nat.pow_one]
        exact Nat.div_add_mod' n 10

theorem length_itoaNat_le {n k : Nat} (h : n < 10 ^ (k + 1)) :
    (itoaNat n).length ≤ k + 1 := by
  induction k generalizing n with
  | zero =>
      rw [itoaNat_of_lt h]
      exact Nat.le_refl 1
  | succ k ih =>
      by_cases hlt : n < 10
      · rw [itoaNat_of_lt hlt]
        exact Nat.succ_le_succ (Nat.zero_le _)
      · have hmod : n % 10 < 10 := Nat.mod_lt n (by decide)
        have hdiv : n / 10 < 10 ^ (k + 1) := by
          apply Nat.div_lt_of_lt_mul
          rw [Nat.mul_comm, ← Nat.pow_succ]
          exact h
        rw [itoaNat_of_le (Nat.le_of_not_lt hlt), List.length_append,
          itoaNat_of_lt hmod]
        exact Nat.succ_le_succ (ih hdiv)

theorem length_padZeros {n k : Nat} (hk : k ≠ 0) (h : n < 10 ^ k) :
    (padZeros k (itoaNat n)).length = k := by
  rcases Nat.exists_eq_succ_of_ne_zero hk with ⟨k, rfl⟩
  have hle := length_itoaNat_le h
  unfold padZeros
  rw [List.length_append, List.length_replicate]
  omega

theorem isDigit_of_mem_padZeros {n k : Nat} {b : UInt8}
    (h : b ∈ padZeros k (itoaNat n)) : IsDigit b := by
  rcases List.mem_append.mp h with h | h
  · rw [List.eq_of_mem_replicate h]
    decide
  · exact isDigit_of_mem_itoaNat h

theorem digitsValue_padZeros (k n : Nat) :
    digitsValue (padZeros k (itoaNat n)) = n := by
  unfold padZeros
  rw [digitsValue_replicate, digitsValue_itoaNat]

/-!
## The texts of prices
-/

/-- The price of absolute value `n` in `k` decimals. -/
def priceDecimal (negative : Bool) (k n : Nat) : Decimal where
  negative := negative
  int := itoaNat (n / 10 ^ 9)
  fraction := if k = 0 then [] else padZeros k (itoaNat (n % 10 ^ 9 / 10 ^ (9 - k)))
  isInt := isInt_itoaNat _
  isDigit := by
    intro b hb
    split at hb
    · cases hb
    · exact isDigit_of_mem_padZeros hb

section PriceDecimal

variable {negative : Bool} {k n : Nat}

theorem fraction_lt (hk : k ≤ 9) : n % 10 ^ 9 / 10 ^ (9 - k) < 10 ^ k := by
  apply Nat.div_lt_of_lt_mul
  rw [← Nat.pow_add, Nat.sub_add_cancel hk]
  exact Nat.mod_lt n (by decide)

theorem length_fraction_priceDecimal (hk : k ≤ 9) :
    (priceDecimal negative k n).fraction.length = k := by
  unfold priceDecimal
  dsimp only
  split
  · next hzero =>
      rw [hzero]
      rfl
  · next hne => exact length_padZeros hne (fraction_lt hk)

/-- The digits are those of the price up to the last decimal. -/
theorem digitsValue_priceDecimal (hk : k ≤ 9) :
    digitsValue ((priceDecimal negative k n).int ++
      (priceDecimal negative k n).fraction) = n / 10 ^ (9 - k) := by
  have hpow : 10 ^ 9 = 10 ^ k * 10 ^ (9 - k) := by
    rw [← Nat.pow_add, Nat.add_sub_cancel' hk]
  have hfraction : digitsValue (priceDecimal negative k n).fraction =
      n % 10 ^ 9 / 10 ^ (9 - k) := by
    unfold priceDecimal
    dsimp only
    split
    · next hzero =>
        rw [hzero, Nat.div_eq_of_lt (Nat.mod_lt n (by decide))]
        rfl
    · exact digitsValue_padZeros _ _
  have hint : digitsValue (priceDecimal negative k n).int = n / 10 ^ 9 :=
    digitsValue_itoaNat _
  rw [digitsValue_append, length_fraction_priceDecimal hk, hint, hfraction]
  calc n / 10 ^ 9 * 10 ^ k + n % 10 ^ 9 / 10 ^ (9 - k)
      = (n / 10 ^ 9 * 10 ^ k * 10 ^ (9 - k) + n % 10 ^ 9) / 10 ^ (9 - k) := by
        rw [Nat.add_comm, Nat.add_comm (n / 10 ^ 9 * 10 ^ k * 10 ^ (9 - k)),
          Nat.add_mul_div_right _ _ (by positivity)]
    _ = n / 10 ^ (9 - k) := by
        rw [Nat.mul_assoc, ← hpow, Nat.div_add_mod']

/-- The value is that of the price, truncated. -/
theorem magnitude_priceDecimal (hk : k ≤ 9) :
    (priceDecimal negative k n).magnitude = truncate k (n / 10 ^ 9) := by
  have htruncate := truncate_div n k (9 - k)
  rw [Nat.add_sub_cancel' hk] at htruncate
  rw [Decimal.magnitude_eq, length_fraction_priceDecimal hk,
    digitsValue_priceDecimal hk, htruncate]

end PriceDecimal

section Texts

variable {checks : Bool} {px : Int} {p : Nat}

theorem negI64_eq (hmin : px ≠ i64Min) : negI64 checks px = Res.ok (-px) := by
  have hwrap : wrappingNeg px = -px := if_neg hmin
  unfold negI64
  rw [if_neg (fun h => hmin h.2), hwrap]

theorem absWith_eq {α : Type} (negative nonnegative : α)
    (hmin : px ≠ i64Min) :
    absWith checks negative nonnegative px =
      Res.ok (if px < 0 then negative else nonnegative, (px.natAbs : Int)) := by
  unfold absWith
  split
  · next hneg =>
      rw [negI64_eq hmin, Res.ok_bind, Int.natCast_natAbs,
        abs_of_nonpos (Int.le_of_lt hneg)]
  · next hnonneg =>
      rw [Int.natCast_natAbs, abs_of_nonneg (Int.not_lt.mp hnonneg)]

theorem itoa_natCast (n : Nat) : itoa (n : Int) = itoaNat n := by
  unfold itoa
  rw [if_neg (Int.not_lt.mpr (Int.natCast_nonneg n)), Int.natAbs_natCast]

theorem displayI64_natCast (n : Nat) : displayI64 {} (n : Int) = itoaNat n := by
  unfold displayI64
  rw [decide_eq_true (Int.natCast_nonneg n), Int.natAbs_natCast,
    FormatSpec.padIntegral_of_noWidth rfl rfl]
  rfl

theorem displayI64_zeros (width n : Nat) :
    displayI64 { signAwareZeroPad := true, width := some width } (n : Int) =
      padZeros width (itoaNat n) := by
  unfold displayI64
  rw [decide_eq_true (Int.natCast_nonneg n), Int.natAbs_natCast,
    FormatSpec.padIntegral_zeros]
  rfl

/-- The sign, the integer part, a point and the decimals. -/
theorem text_priceDecimal {negative : Bool} {k n : Nat} (hk : k ≠ 0)
    (hle : k ≤ 9) :
    (priceDecimal negative k n).text =
      (if negative then [0x2D] else []) ++ itoaNat (n / 10 ^ 9) ++
        (asciiBytes "." ++ padZeros k (itoaNat (n % 10 ^ 9 / 10 ^ (9 - k)))) := by
  have hlen := @length_fraction_priceDecimal negative k n hle
  have hne : (priceDecimal negative k n).fraction ≠ [] := by
    intro hnil
    rw [hnil] at hlen
    exact hk hlen.symm
  have hfraction : (priceDecimal negative k n).fraction =
      padZeros k (itoaNat (n % 10 ^ 9 / 10 ^ (9 - k))) := if_neg hk
  unfold Decimal.text
  rw [if_neg hne, hfraction]
  rfl

theorem sign_eq (px : Int) :
    (if px < 0 then asciiBytes "-" else []) =
      if decide (px < 0) then [0x2D] else [] := by
  by_cases hneg : px < 0
  · rw [if_pos hneg, decide_eq_true hneg]
    rfl
  · rw [if_neg hneg, decide_eq_false hneg]
    rfl

/-- A specification that asks for neither a width nor a sign. -/
theorem padIntegral_px {f : FormatSpec} (hwidth : f.width = none)
    (hplus : f.signPlus = false) (text : Text) :
    f.padIntegral (if px < 0 then false else true) text =
      (if decide (px < 0) then [0x2D] else []) ++ text := by
  rw [FormatSpec.padIntegral_of_noWidth hwidth hplus]
  by_cases hneg : px < 0
  · rw [if_pos hneg, decide_eq_true hneg]
    rfl
  · rw [if_neg hneg, decide_eq_false hneg]
    rfl

theorem fmtPxInto_eq (hdef : px ≠ undefPrice) (hmin : px ≠ i64Min) :
    fmtPxInto checks px =
      Res.ok (priceDecimal (px < 0) 9 px.natAbs).text := by
  have hinteger : (px.natAbs : Int).tdiv fixedPriceScale =
      ((px.natAbs / 10 ^ 9 : Nat) : Int) := rfl
  have hfraction : (px.natAbs : Int).tmod fixedPriceScale =
      ((px.natAbs % 10 ^ 9 : Nat) : Int) := rfl
  unfold fmtPxInto
  rw [if_neg hdef, absWith_eq _ _ hmin, Res.ok_bind]
  dsimp only
  rw [hinteger, hfraction, itoa_natCast, itoa_natCast, sign_eq,
    text_priceDecimal (by decide) (Nat.le_refl 9), Nat.sub_self, Nat.pow_zero,
    Nat.div_one, List.append_assoc]

/-- All decimals are written without a precision or with one from 9 on. -/
theorem displayPx_all {f : FormatSpec} (hwidth : f.width = none)
    (hplus : f.signPlus = false)
    (hprecision : forall p, f.precision = some p -> 9 ≤ p)
    (hdef : px ≠ undefPrice) (hmin : px ≠ i64Min) :
    displayPx checks f px =
      Res.ok (priceDecimal (px < 0) 9 px.natAbs).text := by
  have hinteger : (px.natAbs : Int).tdiv fixedPriceScale =
      ((px.natAbs / 10 ^ 9 : Nat) : Int) := rfl
  have hfraction : (px.natAbs : Int).tmod fixedPriceScale =
      ((px.natAbs % 10 ^ 9 : Nat) : Int) := rfl
  have htext : f.padIntegral (if px < 0 then false else true)
      (itoaNat (px.natAbs / 10 ^ 9) ++ asciiBytes "." ++
        padZeros 9 (itoaNat (px.natAbs % 10 ^ 9))) =
      (priceDecimal (px < 0) 9 px.natAbs).text := by
    rw [padIntegral_px hwidth hplus,
      text_priceDecimal (by decide) (Nat.le_refl 9), Nat.sub_self,
      Nat.pow_zero, Nat.div_one, List.append_assoc, List.append_assoc]
  unfold displayPx
  rw [if_neg hdef, absWith_eq _ _ hmin, Res.ok_bind]
  dsimp only
  rw [hinteger, hfraction, displayI64_natCast, displayI64_zeros, htext]
  split
  · next h => exact absurd (hprecision 0 h) (by decide)
  · next p _ h =>
      rw [if_neg (Nat.not_lt.mpr (hprecision p h))]
  · rfl

/-- No decimals: the digits of the whole price. -/
theorem displayPx_zero (hdef : px ≠ undefPrice) (hmin : px ≠ i64Min) :
    displayPx checks { precision := some 0 } px =
      Res.ok ((if decide (px < 0) then [0x2D] else []) ++
        itoaNat px.natAbs) := by
  unfold displayPx
  rw [if_neg hdef, absWith_eq _ _ hmin, Res.ok_bind]
  dsimp only
  rw [padIntegral_px rfl rfl, itoa_natCast]
  rfl

theorem divisorAt_eq :
    forall p, p < 9 -> p ≠ 0 ->
      divisorAt p = Res.ok ((10 ^ (9 - p) : Nat) : Int) := by
  decide

theorem displayPx_some (hp : p ≠ 0) (hlt : p < 9) (hdef : px ≠ undefPrice)
    (hmin : px ≠ i64Min) :
    displayPx checks { precision := some p } px =
      Res.ok (priceDecimal (px < 0) p px.natAbs).text := by
  have hinteger : (px.natAbs : Int).tdiv fixedPriceScale =
      ((px.natAbs / 10 ^ 9 : Nat) : Int) := rfl
  have hfraction : (px.natAbs : Int).tmod fixedPriceScale =
      ((px.natAbs % 10 ^ 9 : Nat) : Int) := rfl
  have hdivisor : ((10 ^ (9 - p) : Nat) : Int) ≠ 0 := by positivity
  have hreduced : divI64 ((px.natAbs % 10 ^ 9 : Nat) : Int)
      ((10 ^ (9 - p) : Nat) : Int) =
      Res.ok ((px.natAbs % 10 ^ 9 / 10 ^ (9 - p) : Nat) : Int) := by
    unfold divI64
    rw [if_neg hdivisor]
    rfl
  unfold displayPx
  rw [if_neg hdef, absWith_eq _ _ hmin, Res.ok_bind]
  dsimp only
  rw [hinteger, hfraction]
  split
  · next h => exact absurd (Option.some.inj h) hp
  · next _ _ h =>
      cases h
      rw [if_pos hlt, divisorAt_eq p hlt hp, Res.ok_bind, hreduced,
        Res.ok_bind, displayI64_natCast, displayI64_zeros,
        padIntegral_px rfl rfl, text_priceDecimal hp (Nat.le_of_lt hlt),
        List.append_assoc, List.append_assoc]
  · next h => cases h

end Texts

/-!
## All decimals
-/

/--
Without overflow, the two functions write the price in nine decimals.
-/
def ExactText (px : Int) : Prop :=
  forall checks, exists d : Decimal,
    fmtPxInto checks px = Res.ok d.text ∧
      displayPx checks {} px = Res.ok d.text ∧ d.fraction.length = 9 ∧
      d.value * 10 ^ 9 = px

theorem value_priceDecimal (px : Int) :
    (priceDecimal (px < 0) 9 px.natAbs).value * 10 ^ 9 = px := by
  have hmagnitude : (priceDecimal (px < 0) 9 px.natAbs).magnitude * 10 ^ 9 =
      |(px : ℚ)| := by
    have hmul := (priceDecimal (px < 0) 9 px.natAbs).magnitude_mul
    rw [length_fraction_priceDecimal (Nat.le_refl 9),
      digitsValue_priceDecimal (Nat.le_refl 9), Nat.sub_self, Nat.pow_zero,
      Nat.div_one, Nat.cast_natAbs, Int.cast_abs] at hmul
    exact hmul
  have hvalue : (priceDecimal (px < 0) 9 px.natAbs).value =
      if px < 0 then -(priceDecimal (px < 0) 9 px.natAbs).magnitude
      else (priceDecimal (px < 0) 9 px.natAbs).magnitude := by
    unfold Decimal.value priceDecimal
    simp only [decide_eq_true_eq]
  rw [hvalue]
  split
  · next hneg =>
      rw [neg_mul, hmagnitude, abs_of_neg (Int.cast_lt_zero.mpr hneg), neg_neg]
  · next hnonneg =>
      rw [hmagnitude,
        abs_of_nonneg (Int.cast_nonneg (Int.not_lt.mp hnonneg))]

/-- The texts are exact for all prices but the smallest. -/
theorem exactText_iff {px : Int} (hdef : px ≠ undefPrice) :
    ExactText px <-> px ≠ i64Min := by
  constructor
  · intro h hmin
    rcases h true with ⟨d, hfmt, _⟩
    rw [hmin] at hfmt
    cases hfmt
  · intro hmin checks
    refine ⟨priceDecimal (px < 0) 9 px.natAbs, fmtPxInto_eq hdef hmin, ?_, ?_,
      value_priceDecimal px⟩
    · apply displayPx_all rfl rfl _ hdef hmin
      intro p h
      cases h
    · exact length_fraction_priceDecimal (Nat.le_refl 9)

theorem exactText_iff_negative :
    (-1 : Int) ≠ undefPrice ∧ ExactText (-1) :=
  ⟨by decide, (exactText_iff (by decide)).mpr (by decide)⟩

/-- The negation of the smallest price overflows. -/
theorem not_exactText_min :
    ¬ forall px, IsI64 px -> px ≠ undefPrice -> ExactText px := by
  intro h
  have hmin := h i64Min ⟨by decide, by decide⟩ (by decide)
  rcases hmin true with ⟨d, hfmt, _⟩
  cases hfmt

/-!
## Fewer decimals
-/

/--
The text of a price with a precision has as many decimals, up to nine, and the
sign and the truncated absolute value of the price.
-/
def TruncatedText (px : Int) (p : Nat) : Prop :=
  forall checks, exists d : Decimal,
    displayPx checks { precision := some p } px = Res.ok d.text ∧
      d.fraction.length = min p 9 ∧ d.negative = decide (px < 0) ∧
      d.magnitude = truncate (min p 9) (|(px : ℚ)| / 10 ^ 9)

section Truncated

variable {px : Int} {p : Nat}

theorem truncatedText_of_pos (hdef : px ≠ undefPrice) (hmin : px ≠ i64Min)
    (hp : p ≠ 0) : TruncatedText px p := by
  intro checks
  have hle : min p 9 ≤ 9 := Nat.min_le_right p 9
  refine ⟨priceDecimal (px < 0) (min p 9) px.natAbs, ?_,
    length_fraction_priceDecimal hle, rfl, ?_⟩
  · by_cases hlt : p < 9
    · rw [Nat.min_eq_left (Nat.le_of_lt hlt)]
      exact displayPx_some hp hlt hdef hmin
    · have hnine := Nat.not_lt.mp hlt
      rw [Nat.min_eq_right hnine]
      apply displayPx_all rfl rfl _ hdef hmin
      intro p' h
      cases h
      exact hnine
  · rw [magnitude_priceDecimal hle, Nat.cast_natAbs, Int.cast_abs]

/-- Without decimals the whole price is written, not its integer part. -/
theorem truncatedText_zero (hdef : px ≠ undefPrice) (hmin : px ≠ i64Min) :
    TruncatedText px 0 <-> px = 0 := by
  have htruncate : truncate 0 (|(px : ℚ)| / 10 ^ 9) =
      ((px.natAbs / 10 ^ 9 : Nat) : ℚ) := by
    have h := truncate_div px.natAbs 0 9
    rw [Nat.zero_add, Nat.cast_natAbs, Int.cast_abs, pow_zero, div_one] at h
    exact h
  constructor
  · intro h
    rcases h true with ⟨d, htext, hlen, hneg, hvalue⟩
    have hnil := List.eq_nil_of_length_eq_zero hlen
    rw [displayPx_zero hdef hmin, ← hneg] at htext
    have hint := Decimal.int_eq_of_text_eq hnil (Res.ok.inj htext).symm
    have hmagnitude := d.magnitude_eq
    rw [hnil, List.append_nil, hint, digitsValue_itoaNat, List.length_nil,
      pow_zero, div_one, hvalue, Nat.zero_min, htruncate] at hmagnitude
    have hself := Nat.cast_injective hmagnitude
    omega
  · intro hzero checks
    rw [hzero]
    refine ⟨priceDecimal false 0 0, ?_, rfl, rfl, ?_⟩
    · cases checks with
      | false => rfl
      | true => rfl
    · rw [magnitude_priceDecimal (Nat.zero_le 9), Nat.zero_min]
      simp

theorem truncatedText_iff (hdef : px ≠ undefPrice) (hmin : px ≠ i64Min) :
    TruncatedText px p <-> p ≠ 0 ∨ px = 0 := by
  by_cases hp : p = 0
  · rw [hp, truncatedText_zero hdef hmin]
    simp
  · constructor
    · intro _
      exact Or.inl hp
    · intro _
      exact truncatedText_of_pos hdef hmin hp

end Truncated

theorem truncatedText_iff_negative :
    (-1 : Int) ≠ undefPrice ∧ (-1 : Int) ≠ i64Min ∧ TruncatedText (-1) 2 :=
  ⟨by decide, by decide,
    (truncatedText_iff (by decide) (by decide)).mpr (by decide)⟩

/-- 32.5 without decimals. -/
theorem not_truncatedText_zero :
    ¬ forall px p, IsI64 px -> px ≠ undefPrice -> px ≠ i64Min ->
      TruncatedText px p := by
  intro h
  have hzero := h 32500000000 0 ⟨by decide, by decide⟩ (by decide) (by decide)
  have hpx := (truncatedText_zero (by decide) (by decide)).mp hzero
  exact absurd hpx (by decide)

end Dbn
