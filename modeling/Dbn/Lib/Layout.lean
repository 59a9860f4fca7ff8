import Mathlib.Algebra.GroupWithZero.Nat
import Mathlib.Tactic.Common

/-!
# Packed struct layouts

A `repr(C)` struct without padding is the concatenation of its fields, so its
layout is the list of its fields with their sizes in bytes.
-/

namespace Dbn
namespace Lib

/-- The fields of a packed struct in order, with their sizes. -/
abbrev Layout (F : Type) := List (F × Nat)

/-- Cut or zero-extend bytes to a size. -/
def resize (size : Nat) (bytes : List UInt8) : List UInt8 :=
  bytes.take size ++ List.replicate (size - bytes.length) 0

@[simp] theorem length_resize (size : Nat) (bytes : List UInt8) :
    (resize size bytes).length = size := by
  simp only [resize, List.length_append, List.length_take,
    List.length_replicate]
  omega

theorem resize_of_length {size : Nat} {bytes : List UInt8}
    (h : bytes.length = size) : resize size bytes = bytes := by
  simp [resize, ← h]

/-- Bytes that fit an array come out of it as they went in. -/
theorem resize_resize {size size' : Nat} {bytes : List UInt8}
    (h : bytes.length ≤ size') :
    resize size (resize size' bytes) = resize size bytes := by
  have hmin : min (size - bytes.length) (size' - bytes.length) +
      (size - size') = size - bytes.length := by omega
  have hextended : resize size' bytes =
      bytes ++ List.replicate (size' - bytes.length) 0 := by
    unfold resize
    rw [List.take_of_length_le h]
  unfold resize at hextended ⊢
  rw [hextended, List.take_append, List.take_replicate, List.length_append,
    List.length_replicate, Nat.add_sub_cancel' h, List.append_assoc,
    List.replicate_append_replicate, hmin]

namespace Layout

variable {F : Type}

/-- `size_of` the struct. -/
def size (layout : Layout F) : Nat :=
  (layout.map Prod.snd).sum

/-- The struct whose fields hold the given bytes. -/
def pack (layout : Layout F) (value : F -> List UInt8) : List UInt8 :=
  layout.flatMap (fun field => resize field.2 (value field.1))

/-- The bytes of a field. -/
def get [DecidableEq F] : Layout F -> List UInt8 -> F -> List UInt8
  | [], _, _ => []
  | (g, n) :: rest, bytes, f =>
      if g = f then bytes.take n else get rest (bytes.drop n) f

/-- The size of a field, zero for a field that is not there. -/
def width [DecidableEq F] : Layout F -> F -> Nat
  | [], _ => 0
  | (g, n) :: rest, f => if g = f then n else width rest f

/-- A field of a packed struct. -/
theorem get_pack [DecidableEq F] (layout : Layout F)
    (value : F -> List UInt8) (f : F) :
    layout.get (layout.pack value) f = resize (layout.width f) (value f) := by
  induction layout with
  | nil =>
      unfold get width resize
      rw [List.take_zero, Nat.zero_sub]
      rfl
  | cons field rest ih =>
      rcases field with ⟨g, n⟩
      have hpack : Layout.pack ((g, n) :: rest) value =
          resize n (value g) ++ Layout.pack rest value := rfl
      unfold get width
      rw [hpack]
      by_cases hfield : g = f
      · rw [if_pos hfield, if_pos hfield,
          List.take_left' (length_resize n (value g)), hfield]
      · rw [if_neg hfield, if_neg hfield,
          List.drop_left' (length_resize n (value g))]
        exact ih

theorem length_get_le [DecidableEq F] (layout : Layout F)
    (bytes : List UInt8) (f : F) :
    (layout.get bytes f).length ≤ layout.width f := by
  induction layout generalizing bytes with
  | nil => exact Nat.le_refl 0
  | cons field rest ih =>
      rcases field with ⟨g, n⟩
      unfold get width
      by_cases hfield : g = f
      · rw [if_pos hfield, if_pos hfield]
        exact List.length_take_le n bytes
      · rw [if_neg hfield, if_neg hfield]
        exact ih (bytes.drop n)

theorem size_cons (g : F) (n : Nat) (rest : Layout F) :
    size ((g, n) :: rest) = n + size rest := rfl

/-- A field does not depend on what is behind the struct. -/
theorem get_take [DecidableEq F] (layout : Layout F) (bytes : List UInt8) (f : F) :
    layout.get (bytes.take layout.size) f = layout.get bytes f := by
  induction layout generalizing bytes with
  | nil => rfl
  | cons field rest ih =>
      rcases field with ⟨g, n⟩
      rw [size_cons]
      unfold get
      by_cases hfield : g = f
      · rw [if_pos hfield, if_pos hfield, List.take_take,
          Nat.min_eq_left (Nat.le_add_right n _)]
      · rw [if_neg hfield, if_neg hfield, List.drop_take,
          Nat.add_sub_cancel_left]
        exact ih (bytes.drop n)

theorem get_append [DecidableEq F] {layout : Layout F} {bytes : List UInt8}
    (h : layout.size = bytes.length) (more : List UInt8) (f : F) :
    layout.get (bytes ++ more) f = layout.get bytes f := by
  rw [← get_take, h, List.take_left]

/-- A field of a struct that is there has its size. -/
theorem length_get [DecidableEq F] {layout : Layout F} {bytes : List UInt8}
    (h : layout.size ≤ bytes.length) (f : F) :
    (layout.get bytes f).length = layout.width f := by
  induction layout generalizing bytes with
  | nil => rfl
  | cons field rest ih =>
      rcases field with ⟨g, n⟩
      rw [size_cons] at h
      unfold get width
      by_cases hfield : g = f
      · rw [if_pos hfield, if_pos hfield, List.length_take]
        omega
      · rw [if_neg hfield, if_neg hfield]
        apply ih
        rw [List.length_drop]
        omega

/-- A struct depends on its own fields only. -/
theorem pack_congr {layout : Layout F} {value value' : F -> List UInt8}
    (h : forall field, field ∈ layout ->
      resize field.2 (value field.1) = resize field.2 (value' field.1)) :
    layout.pack value = layout.pack value' := by
  unfold pack
  rw [List.flatMap_def, List.flatMap_def, List.map_congr_left h]

@[simp] theorem length_pack (layout : Layout F) (value : F -> List UInt8) :
    (layout.pack value).length = layout.size := by
  induction layout with
  | nil => rfl
  | cons field rest ih =>
      have hpack : (Layout.pack rest value).length = Layout.size rest := ih
      simp only [pack, size, List.flatMap_cons, List.length_append,
        length_resize, List.map_cons, List.sum_cons] at hpack ⊢
      rw [hpack]

end Layout

end Lib
end Dbn
