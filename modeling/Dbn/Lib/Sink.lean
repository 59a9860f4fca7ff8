import Dbn.Lib.LittleEndian
import Dbn.Lib.Writer

/-!
# Writers that never fail

A program over such a writer always appends the same bytes and ends with the
same result.  So programs over two of them, one blocking and one asynchronous,
can be compared.
-/

namespace Dbn
namespace Lib

/-- `AsyncWriteExt`, with every call run to its end. -/
class AsyncWrite (W : Type) where
  writeAll : W -> List UInt8 -> Except IoErrorKind Unit × W
  /-- The calls that write an integer of a number of bytes. -/
  writeUintLe : Nat -> W -> Nat -> Except IoErrorKind Unit × W

/-- A writer that accepts everything. -/
class Sink (W : Type) extends Write W where
  written : W -> List UInt8
  writeAll_eq : forall (w : W) (bytes : List UInt8), exists w',
    Write.writeAll w bytes = (Except.ok (), w') ∧
      written w' = written w ++ bytes

instance : Sink (List UInt8) where
  written := id
  writeAll_eq w bytes := ⟨w ++ bytes, rfl, rfl⟩

/-- An asynchronous writer that accepts everything. -/
class AsyncSink (W : Type) extends AsyncWrite W where
  written : W -> List UInt8
  writeAll_eq : forall (w : W) (bytes : List UInt8), exists w',
    AsyncWrite.writeAll w bytes = (Except.ok (), w') ∧
      written w' = written w ++ bytes
  writeUintLe_eq : forall (width : Nat) (w : W) (n : Nat), exists w',
    AsyncWrite.writeUintLe width w n = (Except.ok (), w') ∧
      written w' = written w ++ leBytes width n

instance : AsyncSink (List UInt8) where
  writeAll out bytes := (Except.ok (), out ++ bytes)
  writeUintLe width out n := (Except.ok (), out ++ leBytes width n)
  written := id
  writeAll_eq w bytes := ⟨w ++ bytes, rfl, rfl⟩
  writeUintLe_eq width w n := ⟨w ++ leBytes width n, rfl, rfl⟩

namespace WriteM

variable {W W' ε α β : Type}

/-- A call of a writer, with the error mapped. -/
def calling (mapErr : IoErrorKind -> ε)
    (call : W -> Except IoErrorKind Unit × W) : WriteM W ε Unit :=
  fun w =>
    match call w with
    | (Except.ok (), w') => (Res.ok (), w')
    | (Except.error e, w') => (Res.err (mapErr e), w')

section Async

variable [AsyncWrite W] (mapErr : IoErrorKind -> ε)

def writeAllAsync (bytes : List UInt8) : WriteM W ε Unit :=
  calling mapErr (fun w => AsyncWrite.writeAll w bytes)

def writeU8 (n : Nat) : WriteM W ε Unit :=
  calling mapErr (fun w => AsyncWrite.writeUintLe 1 w n)

def writeU16Le (n : Nat) : WriteM W ε Unit :=
  calling mapErr (fun w => AsyncWrite.writeUintLe 2 w n)

def writeU32Le (n : Nat) : WriteM W ε Unit :=
  calling mapErr (fun w => AsyncWrite.writeUintLe 4 w n)

def writeU64Le (n : Nat) : WriteM W ε Unit :=
  calling mapErr (fun w => AsyncWrite.writeUintLe 8 w n)

end Async

/-!
## The output of a program
-/

/-- From any state the program appends the bytes and ends with the result. -/
def Outputs (written : W -> List UInt8) (x : WriteM W ε α)
    (bytes : List UInt8) (res : Res ε α) : Prop :=
  forall w, (x w).1 = res ∧ written (x w).2 = written w ++ bytes

namespace Outputs

variable {written : W -> List UInt8} {x : WriteM W ε α}
  {f : α -> WriteM W ε β} {a b : List UInt8}

theorem of_pure (value : α) :
    Outputs written (Pure.pure value : WriteM W ε α) [] (Res.ok value) :=
  fun w => ⟨rfl, (List.append_nil (written w)).symm⟩

theorem of_fail (e : ε) :
    Outputs written (fail e : WriteM W ε α) [] (Res.err e) :=
  fun w => ⟨rfl, (List.append_nil (written w)).symm⟩

theorem of_panic (p : Panic) :
    Outputs written (panic p : WriteM W ε α) [] (Res.panic p) :=
  fun w => ⟨rfl, (List.append_nil (written w)).symm⟩

theorem of_calling (mapErr : IoErrorKind -> ε)
    {call : W -> Except IoErrorKind Unit × W} {bytes : List UInt8}
    (h : forall w, exists w', call w = (Except.ok (), w') ∧
      written w' = written w ++ bytes) :
    Outputs written (calling mapErr call) bytes (Res.ok ()) := by
  intro w
  rcases h w with ⟨w', hcall, hwritten⟩
  unfold calling
  rw [hcall]
  exact ⟨rfl, hwritten⟩

theorem bind {value : α} {res : Res ε β}
    (hx : Outputs written x a (Res.ok value))
    (hf : Outputs written (f value) b res) :
    Outputs written (x >>= f) (a ++ b) res := by
  intro w
  rcases hx w with ⟨hres, hwritten⟩
  have hcall : x w = (Res.ok value, (x w).2) := by
    rw [← hres]
  rw [bind_of_ok hcall]
  rcases hf (x w).2 with ⟨hres', hwritten'⟩
  refine ⟨hres', ?_⟩
  rw [hwritten', hwritten, List.append_assoc]

theorem bind_err {e : ε} (hx : Outputs written x a (Res.err e)) :
    Outputs written (x >>= f) a (Res.err e) := by
  intro w
  rcases hx w with ⟨hres, hwritten⟩
  have hcall : x w = (Res.err e, (x w).2) := by
    rw [← hres]
  show (WriteM.bind x f w).1 = _ ∧ written (WriteM.bind x f w).2 = _
  unfold WriteM.bind
  rw [hcall]
  exact ⟨rfl, hwritten⟩

theorem bind_panic {p : Panic} (hx : Outputs written x a (Res.panic p)) :
    Outputs written (x >>= f) a (Res.panic p) := by
  intro w
  rcases hx w with ⟨hres, hwritten⟩
  have hcall : x w = (Res.panic p, (x w).2) := by
    rw [← hres]
  show (WriteM.bind x f w).1 = _ ∧ written (WriteM.bind x f w).2 = _
  unfold WriteM.bind
  rw [hcall]
  exact ⟨rfl, hwritten⟩

end Outputs

/-!
## Programs with the same output
-/

section SameOutput

variable [Sink W] [AsyncSink W']

/-- Over their writers the programs append the same and end alike. -/
def SameOutput (x : WriteM W ε α) (y : WriteM W' ε α) : Prop :=
  exists bytes res, Outputs Sink.written x bytes res ∧
    Outputs AsyncSink.written y bytes res

namespace SameOutput

theorem of_pure (value : α) :
    SameOutput (Pure.pure value : WriteM W ε α)
      (Pure.pure value : WriteM W' ε α) :=
  ⟨[], Res.ok value, Outputs.of_pure value, Outputs.of_pure value⟩

theorem of_fail (e : ε) :
    SameOutput (fail e : WriteM W ε α) (fail e : WriteM W' ε α) :=
  ⟨[], Res.err e, Outputs.of_fail e, Outputs.of_fail e⟩

theorem of_panic (p : Panic) :
    SameOutput (panic p : WriteM W ε α) (panic p : WriteM W' ε α) :=
  ⟨[], Res.panic p, Outputs.of_panic p, Outputs.of_panic p⟩

variable (mapErr : IoErrorKind -> ε)

theorem outputs_writeAll (bytes : List UInt8) :
    Outputs Sink.written (writeAll mapErr bytes : WriteM W ε Unit) bytes
      (Res.ok ()) :=
  Outputs.of_calling mapErr (fun w => Sink.writeAll_eq w bytes)

theorem outputs_writeUintLe (width n : Nat) :
    Outputs AsyncSink.written
      (calling mapErr (fun w => AsyncWrite.writeUintLe width w n) :
        WriteM W' ε Unit) (leBytes width n) (Res.ok ()) :=
  Outputs.of_calling mapErr (fun w => AsyncSink.writeUintLe_eq width w n)

theorem of_writeAll (bytes : List UInt8) :
    SameOutput (writeAll mapErr bytes : WriteM W ε Unit)
      (writeAllAsync mapErr bytes : WriteM W' ε Unit) :=
  ⟨bytes, Res.ok (), outputs_writeAll mapErr bytes,
    Outputs.of_calling mapErr (fun w => AsyncSink.writeAll_eq w bytes)⟩

/-- An integer is written as its bytes. -/
theorem of_writeUintLe {width n : Nat} {bytes : List UInt8}
    (h : bytes = leBytes width n) :
    SameOutput (writeAll mapErr bytes : WriteM W ε Unit)
      (calling mapErr (fun w => AsyncWrite.writeUintLe width w n) :
        WriteM W' ε Unit) := by
  rw [h]
  exact ⟨leBytes width n, Res.ok (), outputs_writeAll mapErr _,
    outputs_writeUintLe mapErr width n⟩

theorem bind {x : WriteM W ε α} {y : WriteM W' ε α} {f : α -> WriteM W ε β}
    {g : α -> WriteM W' ε β} (hxy : SameOutput x y)
    (hfg : forall a, SameOutput (f a) (g a)) :
    SameOutput (x >>= f) (y >>= g) := by
  rcases hxy with ⟨bytes, res, hx, hy⟩
  cases res with
  | ok value =>
      rcases hfg value with ⟨bytes', res', hf, hg⟩
      exact ⟨bytes ++ bytes', res', hx.bind hf, hy.bind hg⟩
  | err e => exact ⟨bytes, Res.err e, hx.bind_err, hy.bind_err⟩
  | panic p => exact ⟨bytes, Res.panic p, hx.bind_panic, hy.bind_panic⟩

theorem ite {c : Prop} [Decidable c] {x y : WriteM W ε α}
    {x' y' : WriteM W' ε α} (ht : c -> SameOutput x x')
    (hf : ¬ c -> SameOutput y y') :
    SameOutput (if c then x else y) (if c then x' else y') := by
  split
  · next h => exact ht h
  · next h => exact hf h

/-- A step that is taken only when a condition holds. -/
theorem optional {c : Prop} [Decidable c] {x : WriteM W ε Unit}
    {x' : WriteM W' ε Unit} {y : WriteM W ε α} {y' : WriteM W' ε α}
    (hx : SameOutput x x') (hy : SameOutput y y') :
    SameOutput (if c then x >>= fun _ => y else y)
      (if c then x' >>= fun _ => y' else y') := by
  apply ite
  · intro _
    exact hx.bind (fun _ => hy)
  · intro _
    exact hy

theorem forEach {f : α -> WriteM W ε Unit} {g : α -> WriteM W' ε Unit}
    (h : forall a, SameOutput (f a) (g a)) (as : List α) :
    SameOutput (forEach f as) (forEach g as) := by
  induction as with
  | nil => exact of_pure ()
  | cons a rest ih => exact (h a).bind (fun _ => ih)

end SameOutput
end SameOutput
end WriteM
end Lib
end Dbn
