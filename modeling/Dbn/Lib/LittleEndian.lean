import Mathlib.Tactic.Common
import Mathlib.Tactic.Ring

/-!
# Little-endian integers as byte lists

The width is a parameter, so that one pair of functions serves every fixed
width of the wire format.
-/

namespace Dbn
namespace Lib

/-- `to_le_bytes` of the low `width` bytes of `n`. -/
def leBytes : Nat -> Nat -> List UInt8
  | 0, _ => []
  | width + 1, n => UInt8.ofNat n :: leBytes width (n / 256)

/-- `from_le_bytes`. -/
def leNat : List UInt8 -> Nat
  | [] => 0
  | b :: bs => b.toNat + 256 * leNat bs

@[simp] theorem length_leBytes (width n : Nat) :
    (leBytes width n).length = width := by
  induction width generalizing n with
  | zero => rfl
  | succ width ih =>
      simp [leBytes, ih]

theorem leNat_leBytes (width n : Nat) :
    leNat (leBytes width n) = n % 256 ^ width := by
  induction width generalizing n with
  | zero =>
      simp [leBytes, leNat, Nat.mod_one]
  | succ width ih =>
      have hbyte : (UInt8.ofNat n).toNat = n % 256 := by
        simp [UInt8.toNat_ofNat']
      rw [leBytes, leNat, ih, hbyte, Nat.pow_succ', Nat.mod_mul]

theorem leNat_leBytes_of_lt {width n : Nat} (h : n < 256 ^ width) :
    leNat (leBytes width n) = n := by
  rw [leNat_leBytes, Nat.mod_eq_of_lt h]

/-- Zero bytes at the end do not change the value. -/
theorem leNat_append_zeros (bs : List UInt8) (n : Nat) :
    leNat (bs ++ List.replicate n 0) = leNat bs := by
  induction bs with
  | nil =>
      induction n with
      | zero => rfl
      | succ n ih =>
          have hstep : leNat (0 :: List.replicate n 0) =
              0 + 256 * leNat (List.replicate n 0) := rfl
          rw [List.nil_append] at ih ⊢
          rw [List.replicate_succ, hstep, ih]
          rfl
  | cons b bs ih => rw [List.cons_append, leNat, leNat, ih]

theorem leNat_lt (bs : List UInt8) : leNat bs < 256 ^ bs.length := by
  induction bs with
  | nil => simp [leNat]
  | cons b bs ih =>
      have hb : b.toNat < 256 := b.toNat_lt
      rw [leNat, List.length_cons, Nat.pow_succ']
      omega

end Lib
end Dbn
