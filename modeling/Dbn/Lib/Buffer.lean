import Mathlib.Tactic.Common

/-!
# Growable byte buffers with lazy shifting

The decoders read into a growable buffer that remembers how far it has been
consumed and moves its data to the front only now and then.  The buffer comes
from an external crate (`oval::Buffer`), so it is a parameter here: `Buffer`
lists its operations and `LawfulBuffer` states the documented behaviour the
decoders rely on.  Everything proved about a decoder holds for every lawful
buffer.  `VecBuffer` is one, on which definitions can be evaluated.
-/

namespace Dbn
namespace Lib

/-- The operations of a buffer. -/
class Buffer (B : Type) where
  withCapacity : Nat -> B
  capacity : B -> Nat
  /-- How many bytes at the front of the memory have been consumed. -/
  position : B -> Nat
  data : B -> List UInt8
  /-- The length of `space`. -/
  availableSpace : B -> Nat
  space : B -> List UInt8
  /-- Copy bytes to the front of the mutable slice `space`. -/
  writeSpace : B -> List UInt8 -> B
  fill : B -> Nat -> B
  consume : B -> Nat -> B
  consumeNoshift : B -> Nat -> B
  shift : B -> B
  grow : B -> Nat -> B
  reset : B -> B

namespace Buffer

variable {B : Type} [Buffer B]

/-- `available_data()`. -/
def availableData (b : B) : Nat :=
  (data b).length

/-- Put bytes into `space` and `fill` by their number. -/
def append (b : B) (bytes : List UInt8) : B :=
  fill (writeSpace b bytes) bytes.length

end Buffer

open Buffer

/--
The documented behaviour of a buffer.  `consume` moves the data to the front
once the position is past half of the capacity, `fill` does so when the space
left is smaller than the data plus the count just filled, and
`consumeNoshift` never does.
-/
class LawfulBuffer (B : Type) [Buffer B] : Prop where
  layout (b : B) : position b + (data b).length + availableSpace b = capacity b
  length_space (b : B) : (space b).length = availableSpace b
  capacity_withCapacity (n : Nat) : capacity (withCapacity n : B) = n
  position_withCapacity (n : Nat) : position (withCapacity n : B) = 0
  data_withCapacity (n : Nat) : data (withCapacity n : B) = []
  capacity_writeSpace (b : B) (bs : List UInt8) :
    capacity (writeSpace b bs) = capacity b
  position_writeSpace (b : B) (bs : List UInt8) :
    position (writeSpace b bs) = position b
  data_writeSpace (b : B) (bs : List UInt8) : data (writeSpace b bs) = data b
  space_writeSpace (b : B) (bs : List UInt8) (h : bs.length ≤ availableSpace b) :
    space (writeSpace b bs) = bs ++ (space b).drop bs.length
  capacity_fill (b : B) (n : Nat) : capacity (fill b n) = capacity b
  position_fill (b : B) (n : Nat) :
    position (fill b n) =
      let count := min n (availableSpace b)
      if availableSpace b - count < (data b).length + count + count then 0
      else position b
  data_fill (b : B) (n : Nat) : data (fill b n) = data b ++ (space b).take n
  capacity_consume (b : B) (n : Nat) : capacity (consume b n) = capacity b
  position_consume (b : B) (n : Nat) :
    position (consume b n) =
      let moved := position b + min n (data b).length
      if moved > capacity b / 2 then 0 else moved
  data_consume (b : B) (n : Nat) : data (consume b n) = (data b).drop n
  capacity_consumeNoshift (b : B) (n : Nat) :
    capacity (consumeNoshift b n) = capacity b
  position_consumeNoshift (b : B) (n : Nat) :
    position (consumeNoshift b n) = position b + min n (data b).length
  data_consumeNoshift (b : B) (n : Nat) :
    data (consumeNoshift b n) = (data b).drop n
  capacity_shift (b : B) : capacity (shift b) = capacity b
  position_shift (b : B) : position (shift b) = 0
  data_shift (b : B) : data (shift b) = data b
  capacity_grow (b : B) (n : Nat) : capacity (grow b n) = max (capacity b) n
  position_grow (b : B) (n : Nat) : position (grow b n) = position b
  data_grow (b : B) (n : Nat) : data (grow b n) = data b
  capacity_reset (b : B) : capacity (reset b) = capacity b
  position_reset (b : B) : position (reset b) = 0
  data_reset (b : B) : data (reset b) = []

attribute [simp] LawfulBuffer.capacity_withCapacity
  LawfulBuffer.position_withCapacity LawfulBuffer.data_withCapacity
  LawfulBuffer.capacity_writeSpace LawfulBuffer.position_writeSpace
  LawfulBuffer.data_writeSpace LawfulBuffer.capacity_fill
  LawfulBuffer.data_fill LawfulBuffer.capacity_consume
  LawfulBuffer.data_consume LawfulBuffer.capacity_consumeNoshift
  LawfulBuffer.position_consumeNoshift LawfulBuffer.data_consumeNoshift
  LawfulBuffer.capacity_shift LawfulBuffer.position_shift
  LawfulBuffer.data_shift LawfulBuffer.capacity_grow
  LawfulBuffer.position_grow LawfulBuffer.data_grow
  LawfulBuffer.capacity_reset LawfulBuffer.position_reset
  LawfulBuffer.data_reset

namespace Buffer

variable {B : Type} [Buffer B] [LawfulBuffer B]

theorem availableSpace_eq (b : B) :
    availableSpace b = capacity b - position b - (data b).length := by
  have h := LawfulBuffer.layout b
  omega

@[simp] theorem availableSpace_writeSpace (b : B) (bs : List UInt8) :
    availableSpace (writeSpace b bs) = availableSpace b := by
  simp [availableSpace_eq]

theorem length_data_le (b : B) : (data b).length ≤ capacity b := by
  have h := LawfulBuffer.layout b
  omega

/-!
## Appending
-/

theorem data_append {b : B} {bytes : List UInt8}
    (h : bytes.length ≤ availableSpace b) :
    data (append b bytes) = data b ++ bytes := by
  unfold append
  rw [LawfulBuffer.data_fill, LawfulBuffer.data_writeSpace,
    LawfulBuffer.space_writeSpace b bytes h, List.take_left]

@[simp] theorem capacity_append (b : B) (bytes : List UInt8) :
    capacity (append b bytes) = capacity b := by
  simp [append]

/-- Filling never moves the data away from the front. -/
theorem position_append_le (b : B) (bytes : List UInt8) :
    position (append b bytes) ≤ position b := by
  unfold append
  rw [LawfulBuffer.position_fill]
  simp only [LawfulBuffer.position_writeSpace]
  split
  · exact Nat.zero_le _
  · exact Nat.le_refl _

/-- After `consume` the position is in the front half of the buffer. -/
theorem position_consume_le (b : B) (n : Nat) :
    position (consume b n) ≤ capacity b / 2 := by
  rw [LawfulBuffer.position_consume]
  simp only
  split <;> omega

end Buffer

/-!
## A concrete buffer
-/

/--
A buffer that keeps its data and the bytes staged in its space as lists; the
rest of the space is zero.
-/
structure VecBuffer where
  capacity : Nat
  position : Nat
  data : List UInt8
  staged : List UInt8
  fits : position + data.length + staged.length ≤ capacity

namespace VecBuffer

/-- `available_space()`. -/
def availableSpace (b : VecBuffer) : Nat :=
  b.capacity - b.position - b.data.length

/-- `space()`. -/
def space (b : VecBuffer) : List UInt8 :=
  b.staged ++ List.replicate (b.availableSpace - b.staged.length) 0

/-- `shift()`; what the space holds afterwards is of no interest. -/
def shift (b : VecBuffer) : VecBuffer where
  capacity := b.capacity
  position := 0
  data := b.data
  staged := []
  fits := by
    have h := b.fits
    simp only [List.length_nil]
    omega

theorem length_space (b : VecBuffer) : b.space.length = b.availableSpace := by
  have h := b.fits
  simp only [space, List.length_append, List.length_replicate, availableSpace]
  omega

/-- `fill()` before the shift it may do. -/
def advanceEnd (b : VecBuffer) (n : Nat) : VecBuffer where
  capacity := b.capacity
  position := b.position
  data := b.data ++ b.space.take n
  staged := b.staged.drop n
  fits := by
    have h := b.fits
    have hs := b.length_space
    simp only [availableSpace] at hs
    simp only [List.length_append, List.length_take, List.length_drop]
    omega

/-- `consume_noshift()`. -/
def consumeNoshift (b : VecBuffer) (n : Nat) : VecBuffer where
  capacity := b.capacity
  position := b.position + min n b.data.length
  data := b.data.drop n
  staged := b.staged
  fits := by
    have h := b.fits
    simp only [List.length_drop]
    omega

/-- Copy bytes to the front of `space()`. -/
def writeSpace (b : VecBuffer) (bs : List UInt8) : VecBuffer :=
  if h : bs.length ≤ b.availableSpace then
    { b with
      staged := bs ++ b.staged.drop bs.length
      fits := by
        have hfits := b.fits
        simp only [availableSpace] at h
        simp only [List.length_append, List.length_drop]
        omega }
  else b

/-- `fill()`. -/
def fill (b : VecBuffer) (n : Nat) : VecBuffer :=
  let count := min n b.availableSpace
  if b.availableSpace - count < b.data.length + count + count then
    (b.advanceEnd n).shift
  else b.advanceEnd n

/-- `consume()`. -/
def consume (b : VecBuffer) (n : Nat) : VecBuffer :=
  if b.position + min n b.data.length > b.capacity / 2 then
    (b.consumeNoshift n).shift
  else b.consumeNoshift n

/-- `grow()`. -/
def grow (b : VecBuffer) (n : Nat) : VecBuffer :=
  { b with
    capacity := max b.capacity n
    fits := by
      have h := b.fits
      omega }

instance : Buffer VecBuffer where
  withCapacity n := ⟨n, 0, [], [], by simp⟩
  capacity := VecBuffer.capacity
  position := VecBuffer.position
  data := VecBuffer.data
  availableSpace := availableSpace
  space := space
  writeSpace := writeSpace
  fill := fill
  consume := consume
  consumeNoshift := consumeNoshift
  shift := shift
  grow := grow
  reset b := ⟨b.capacity, 0, [], [], by simp⟩

theorem space_writeSpace (b : VecBuffer) (bs : List UInt8)
    (h : bs.length ≤ b.availableSpace) :
    (b.writeSpace bs).space = bs ++ b.space.drop bs.length := by
  have hfits := b.fits
  rw [writeSpace, dif_pos h]
  simp only [availableSpace] at h
  simp only [space, availableSpace, List.drop_append, List.append_assoc,
    List.drop_replicate, List.length_append, List.length_drop]
  congr 3
  omega

instance : LawfulBuffer VecBuffer where
  layout b := by
    have h := b.fits
    simp only [Buffer.position, Buffer.data, Buffer.availableSpace,
      Buffer.capacity, availableSpace]
    omega
  length_space := length_space
  capacity_withCapacity _ := rfl
  position_withCapacity _ := rfl
  data_withCapacity _ := rfl
  capacity_writeSpace b bs := by
    show (b.writeSpace bs).capacity = b.capacity
    unfold writeSpace
    split <;> rfl
  position_writeSpace b bs := by
    show (b.writeSpace bs).position = b.position
    unfold writeSpace
    split <;> rfl
  data_writeSpace b bs := by
    show (b.writeSpace bs).data = b.data
    unfold writeSpace
    split <;> rfl
  space_writeSpace := space_writeSpace
  capacity_fill b n := by
    show (b.fill n).capacity = b.capacity
    simp only [fill]
    split <;> rfl
  position_fill b n := by
    show (b.fill n).position = _
    unfold fill
    exact apply_ite VecBuffer.position _ _ _
  data_fill b n := by
    show (b.fill n).data = _
    simp only [fill]
    split <;> rfl
  capacity_consume b n := by
    show (b.consume n).capacity = b.capacity
    unfold consume
    split <;> rfl
  position_consume b n := by
    show (b.consume n).position = _
    unfold consume
    exact apply_ite VecBuffer.position _ _ _
  data_consume b n := by
    show (b.consume n).data = _
    unfold consume
    split <;> rfl
  capacity_consumeNoshift _ _ := rfl
  position_consumeNoshift _ _ := rfl
  data_consumeNoshift _ _ := rfl
  capacity_shift _ := rfl
  position_shift _ := rfl
  data_shift _ := rfl
  capacity_grow _ _ := rfl
  position_grow _ _ := rfl
  data_grow _ _ := rfl
  capacity_reset _ := rfl
  position_reset _ := rfl
  data_reset _ := rfl

end VecBuffer

end Lib
end Dbn
