import Dbn.Lib.Buffer
import Dbn.Lib.Io

/-!
# Filling a buffer

Reads from a stream of short reads into the space of a buffer, until the buffer
has a number of bytes.  How many bytes a read returns depends on the schedule
of the reader and on the space that is left.
-/

namespace Dbn
namespace Lib

open Buffer

variable {B : Type} [Buffer B]

namespace ShortReader

/-- The number of bytes that a read into the space of a buffer returns. -/
def amountInto (r : ShortReader) (b : B) : Nat :=
  r.amount (availableSpace b)

/-- The buffer after such a read. -/
def readInto (r : ShortReader) (b : B) : B :=
  append b (r.rest.take (r.amountInto b))

/-- The reader after such a read. -/
def afterInto (r : ShortReader) (b : B) : ShortReader :=
  r.advance (r.amountInto b)

end ShortReader

/-- Reads that each return something fill a buffer with a number of bytes. -/
inductive Fills (target : Nat) :
    B -> ShortReader -> B -> ShortReader -> Prop where
  | done {b : B} {r : ShortReader} (enough : target ≤ (data b).length) :
      Fills target b r b r
  | read {b b' : B} {r r' : ShortReader} (short : (data b).length < target)
      (some : r.amountInto b ≠ 0)
      (rest : Fills target (r.readInto b) (r.afterInto b) b' r') :
      Fills target b r b' r'

namespace Fills

variable {target : Nat} {b b' b'' : B} {r r' r'' : ShortReader}

theorem unique (h : Fills target b r b' r') (h' : Fills target b r b'' r'') :
    b' = b'' ∧ r' = r'' := by
  induction h with
  | done enough =>
      cases h' with
      | done _ => exact ⟨rfl, rfl⟩
      | read short _ _ => exact absurd enough (Nat.not_le.mpr short)
  | read short _ _ ih =>
      cases h' with
      | done enough => exact absurd enough (Nat.not_le.mpr short)
      | read _ _ rest => exact ih rest

theorem enough (h : Fills target b r b' r') :
    target ≤ (data b').length := by
  induction h with
  | done enough => exact enough
  | read _ _ _ ih => exact ih

variable [LawfulBuffer B]

theorem data_readInto (r : ShortReader) (b : B) :
    data (r.readInto b) = data b ++ r.rest.take (r.amountInto b) := by
  apply data_append
  unfold ShortReader.amountInto
  rw [ShortReader.length_take_amount]
  exact r.amount_le_space _

/-- What has been read has left the stream. -/
theorem stream_eq (h : Fills target b r b' r') :
    data b' ++ r'.rest = data b ++ r.rest := by
  induction h with
  | done _ => rfl
  | @read b b' r r' _ _ _ ih =>
      rw [ih, data_readInto, List.append_assoc]
      show data b ++ (r.rest.take _ ++ r.rest.drop _) = _
      rw [List.take_append_drop]

/-- A stream that is too short fills nothing. -/
theorem target_le (h : Fills target b r b' r') :
    target ≤ (data b).length + r.rest.length := by
  have hlength := congrArg List.length h.stream_eq
  rw [List.length_append, List.length_append] at hlength
  have henough := h.enough
  omega

end Fills

end Lib
end Dbn
