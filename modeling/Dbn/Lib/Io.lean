import Mathlib.Order.Monotone.Basic
import Mathlib.Tactic.Common

/-!
# Readers and writers

`io::Read` as a state transition: a read is offered some space and answers
with an error or with the bytes it put there.  `ShortReader` is the reader of
a byte stream that may return fewer bytes than it is offered space for, in any
pattern.  `io::Write` is the transition of a writer; a byte list is the writer
`Vec<u8>`, which never fails.
-/

namespace Dbn
namespace Lib

/-- The kinds of `io::Error` that are told apart. -/
inductive IoErrorKind where
  | unexpectedEof
  | other (code : Nat)
deriving DecidableEq, Repr

/-!
## Reading
-/

/-- `io::Read`: read into a slice of the given length. -/
class Read (R : Type) where
  read : R -> Nat -> Except IoErrorKind (List UInt8) × R

/-- `SkipBytes`: like a seek, but only forward from the current position. -/
class SkipBytes (R ε : Type) where
  skipBytes : R -> Nat -> Except ε Unit × R

/--
A reader of the bytes `rest`.  The stream `schedule` says how many bytes each
coming read would like to return.
-/
structure ShortReader where
  rest : List UInt8
  schedule : Nat -> Nat

namespace ShortReader

/--
The number of bytes the next read returns: at least one as long as there is
space and the stream is not exhausted.
-/
def amount (r : ShortReader) (space : Nat) : Nat :=
  min (max 1 (r.schedule 0)) (min space r.rest.length)

/-- The reader after `n` bytes have been read from it. -/
def advance (r : ShortReader) (n : Nat) : ShortReader where
  rest := r.rest.drop n
  schedule := fun k => r.schedule (k + 1)

instance : Read ShortReader where
  read r space :=
    (Except.ok (r.rest.take (r.amount space)), r.advance (r.amount space))

theorem read_eq (r : ShortReader) (space : Nat) :
    Read.read r space =
      (Except.ok (r.rest.take (r.amount space)),
        r.advance (r.amount space)) := rfl

theorem amount_le_space (r : ShortReader) (space : Nat) :
    r.amount space ≤ space := by
  unfold amount
  omega

theorem amount_le_rest (r : ShortReader) (space : Nat) :
    r.amount space ≤ r.rest.length := by
  unfold amount
  omega

theorem amount_eq_zero {r : ShortReader} {space : Nat} :
    r.amount space = 0 <-> space = 0 ∨ r.rest = [] := by
  rw [← List.length_eq_zero_iff]
  unfold amount
  omega

@[simp] theorem length_take_amount (r : ShortReader) (space : Nat) :
    (r.rest.take (r.amount space)).length = r.amount space := by
  rw [List.length_take]
  exact Nat.min_eq_left (r.amount_le_rest space)

/--
The number of bytes that the first `i` reads return when each is offered all
of the space that the ones before have left.
-/
def totalAfter : ShortReader -> Nat -> Nat -> Nat
  | _, _, 0 => 0
  | r, space, i + 1 =>
      r.amount space +
        totalAfter (r.advance (r.amount space)) (space - r.amount space) i

theorem totalAfter_le_succ (r : ShortReader) (space i : Nat) :
    r.totalAfter space i ≤ r.totalAfter space (i + 1) := by
  induction i generalizing r space with
  | zero => exact Nat.zero_le _
  | succ i ih =>
      rw [totalAfter, totalAfter]
      exact Nat.add_le_add_left (ih _ _) _

theorem totalAfter_mono (r : ShortReader) (space : Nat) {i j : Nat}
    (h : i ≤ j) : r.totalAfter space i ≤ r.totalAfter space j :=
  monotone_nat_of_le_succ (r.totalAfter_le_succ space) h

/-- A bound is passed by one read only. -/
theorem totalAfter_crossing {r : ShortReader} {space n i j : Nat}
    (hi : r.totalAfter space i < n) (hi' : n ≤ r.totalAfter space (i + 1))
    (hj : r.totalAfter space j < n) (hj' : n ≤ r.totalAfter space (j + 1)) :
    i = j := by
  by_contra hne
  rcases Nat.lt_or_gt_of_ne hne with hlt | hgt
  · have hle : r.totalAfter space (i + 1) ≤ r.totalAfter space j :=
      r.totalAfter_mono space hlt
    omega
  · have hle : r.totalAfter space (j + 1) ≤ r.totalAfter space i :=
      r.totalAfter_mono space hgt
    omega

@[simp] theorem rest_advance (r : ShortReader) (n : Nat) :
    (r.advance n).rest = r.rest.drop n := rfl

/-- `skip_bytes` discards exactly the next bytes of the reader. -/
def SkipsNext (ε : Type) [SkipBytes ShortReader ε] : Prop :=
  forall (r : ShortReader) (n : Nat), n ≤ r.rest.length ->
    exists r', SkipBytes.skipBytes (ε := ε) r n = (Except.ok (), r') ∧
      r'.rest = r.rest.drop n

end ShortReader

/-!
## Writing
-/

/-- `io::Write`: write all of the given bytes. -/
class Write (W : Type) where
  writeAll : W -> List UInt8 -> Except IoErrorKind Unit × W

instance : Write (List UInt8) where
  writeAll out bytes := (Except.ok (), out ++ bytes)

/-- A writer of which it is known what it has accepted. -/
class LoggedWrite (W : Type) extends Write W where
  written : W -> List UInt8
  written_writeAll : forall {w w' : W} {bytes : List UInt8},
    Write.writeAll w bytes = (Except.ok (), w') ->
      written w' = written w ++ bytes

instance : LoggedWrite (List UInt8) where
  written := id
  written_writeAll := by
    intro w w' bytes h
    cases h
    rfl

end Lib
end Dbn
