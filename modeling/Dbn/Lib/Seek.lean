import Dbn.Lib.Writer

/-!
# Writers that seek

A writer over a vector of bytes with a position.  `Overwrites` says which bytes
a program puts in the place of others; the bytes before and after them stay.
-/

namespace Dbn
namespace Lib

/-- `std::io::SeekFrom`. -/
inductive SeekFrom where
  | start (offset : Nat)
  | fromEnd (offset : Int)
  | current (offset : Int)
deriving DecidableEq, Repr

/-- `std::io::Seek`. -/
class Seek (W : Type) where
  seek : W -> SeekFrom -> Except IoErrorKind Nat × W

/-- `io::Cursor` over a vector. -/
structure VecCursor where
  contents : List UInt8
  position : Nat
deriving DecidableEq, Repr

namespace VecCursor

/-- Put bytes at the position, which fills a gap behind the end with zeros. -/
def overwrite (w : VecCursor) (bytes : List UInt8) : VecCursor where
  contents :=
    w.contents.take w.position ++
      List.replicate (w.position - w.contents.length) 0 ++ bytes ++
      w.contents.drop (w.position + bytes.length)
  position := w.position + bytes.length

/-- The position that an offset from a base stands for. -/
def seekTo (w : VecCursor) (base : Nat) (offset : Int) :
    Except IoErrorKind Nat × VecCursor :=
  -- `InvalidInput`
  if (base : Int) + offset < 0 then (Except.error (.other 22), w)
  else
    let position := ((base : Int) + offset).toNat
    (Except.ok position, { w with position := position })

instance : Write VecCursor where
  writeAll w bytes := (Except.ok (), w.overwrite bytes)

instance : Seek VecCursor where
  seek w
    | .start offset => (Except.ok offset, { w with position := offset })
    | .fromEnd offset => w.seekTo w.contents.length offset
    | .current offset => w.seekTo w.position offset

/-- Bytes in the place of as many bytes. -/
theorem overwrite_append {front old back bytes : List UInt8}
    (h : old.length = bytes.length) :
    overwrite ⟨front ++ (old ++ back), front.length⟩ bytes =
      ⟨front ++ (bytes ++ back), (front ++ bytes).length⟩ := by
  have hgap : front.length - (front ++ (old ++ back)).length = 0 := by
    rw [List.length_append]
    exact Nat.sub_eq_zero_of_le (Nat.le_add_right _ _)
  have hback : (front ++ (old ++ back)).drop (front.length + bytes.length) =
      back := by
    rw [List.drop_append, Nat.add_sub_cancel_left,
      List.drop_of_length_le (Nat.le_add_right _ _), List.nil_append, ← h,
      List.drop_left]
  unfold overwrite
  dsimp only
  rw [hgap, hback, List.take_left, List.length_append]
  simp

end VecCursor

namespace WriteM

variable {W ε α : Type}

/-- `seek`, with the error mapped. -/
def seekFrom [Seek W] (mapErr : IoErrorKind -> ε) (target : SeekFrom) :
    WriteM W ε Unit :=
  fun w =>
    match Seek.seek w target with
    | (Except.ok _, w') => (Res.ok (), w')
    | (Except.error e, w') => (Res.err (mapErr e), w')

/-- The program succeeds and replaces as many bytes at the position. -/
def Overwrites (x : WriteM VecCursor ε Unit) (bytes : List UInt8) : Prop :=
  forall front old back, old.length = bytes.length ->
    x ⟨front ++ (old ++ back), front.length⟩ =
      (Res.ok (), ⟨front ++ (bytes ++ back), (front ++ bytes).length⟩)

namespace Overwrites

variable {x y : WriteM VecCursor ε Unit} {a b : List UInt8}

theorem writeAll (mapErr : IoErrorKind -> ε) (bytes : List UInt8) :
    Overwrites (writeAll mapErr bytes : WriteM VecCursor ε Unit) bytes := by
  intro front old back h
  show (Res.ok (), VecCursor.overwrite _ bytes) = _
  rw [VecCursor.overwrite_append h]

theorem pure : Overwrites (Pure.pure () : WriteM VecCursor ε Unit) [] := by
  intro front old back h
  rw [List.eq_nil_of_length_eq_zero h, List.append_nil]
  rfl

theorem bind (hx : Overwrites x a) (hy : Overwrites y b) :
    Overwrites (x >>= fun _ => y) (a ++ b) := by
  intro front old back h
  rw [List.length_append] at h
  have hsplit : old = old.take a.length ++ old.drop a.length :=
    (List.take_append_drop _ _).symm
  have hfirst : (old.take a.length).length = a.length := by
    rw [List.length_take]
    omega
  have hsecond : (old.drop a.length).length = b.length := by
    rw [List.length_drop]
    omega
  have h1 := hx front (old.take a.length) (old.drop a.length ++ back) hfirst
  have h2 := hy (front ++ a) (old.drop a.length) back hsecond
  rw [List.append_assoc] at h2
  rw [hsplit, List.append_assoc, bind_of_ok h1, h2, List.append_assoc,
    List.append_assoc, List.append_assoc]

end Overwrites
end WriteM
end Lib
end Dbn
