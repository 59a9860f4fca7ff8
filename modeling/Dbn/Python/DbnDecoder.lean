import Dbn.Decode.StreamRelease
import Dbn.Python.WholeRecord

/-!
# The decoder of the Python package

`decode` returns all that it can decode from what was written.  When a record
cannot be converted it fails, and what it had converted is lost.
-/

namespace Dbn

open Lib

/-- What is handed to Python. -/
inductive PyObject (D : Type) where
  | metadata (m : Metadata D)
  /-- A copy of a struct, or of `WithTsOut` of it. -/
  | record (t : RecordType) (tsOut : Bool) (memory : List UInt8)

namespace DBNDecoder

variable {B D : Type} [Buffer B] [CalendarDate D]

/-- The machine, and the variables of `decode`. -/
structure Decoding (B D : Type) where
  fsm : DbnFsm B
  tsOut : Bool
  pyRecs : List (PyObject D)

/-- `py_recs.push(..)`. -/
def push (o : PyObject D) : WriteM (List (PyObject D)) PyErr Unit :=
  fun pyRecs => (Res.ok (), pyRecs ++ [o])

/-- `rtype_dispatch!(rec, ts_out: ts_out, push_rec(py, &mut py_recs))`. -/
def pushRec (tsOut : Bool) (rec : RecordRef) :
    WriteM (List (PyObject D)) PyErr Unit :=
  match HasRtype.rtype rec with
  | Except.error e => WriteM.fail (.dbn e)
  | Except.ok rtype =>
      let t := rtype.dispatch (recordSize rec.bytes)
      match rec.getAs t tsOut with
      | Except.error p => WriteM.panic p
      | Except.ok none => WriteM.panic .unwrapNone
      | Except.ok (some memory) => push (.record t tsOut memory)

/-- A call that adds to the list. -/
def onPyRecs (self : Decoding B D)
    (call : WriteM (List (PyObject D)) PyErr Unit) :
    Turn (Decoding B D) PyErr :=
  .after ((call self.pyRecs).1, { self with pyRecs := (call self.pyRecs).2 })

/-- A round of the loop of `decode`. -/
def decodeRound (self : Decoding B D) :
    Outcome (Turn (Decoding B D) PyErr) :=
  match self.fsm.process (D := D) with
  | .timeout => .timeout
  | .panic p => .panic p
  | .ret (.readMore _, fsm) =>
      .ret (.done (Res.ok ()) { self with fsm := fsm })
  | .ret (.err e, fsm) =>
      .ret (.done (Res.err (.dbn e)) { self with fsm := fsm })
  | .ret (.metadata metadata, fsm) =>
      .ret (onPyRecs { self with fsm := fsm, tsOut := fsm.tsOut }
        (push (.metadata metadata)))
  | .ret (.record (), fsm) =>
      match fsm.lastRecord with
      | none =>
          .ret (.done (Res.err (.runtime "Error while decoding DBN stream"))
            { self with fsm := fsm })
      | some rec =>
          .ret (onPyRecs { self with fsm := fsm } (pushRec self.tsOut rec))

/-- Every round but the last consumes a byte. -/
def decode (D : Type) [CalendarDate D] (fsm : DbnFsm B) :
    Outcome (Res PyErr (List (PyObject D)) × DbnFsm B) := do
  let start : Decoding B D := ⟨fsm, fsm.tsOut, []⟩
  let (res, self) ← pump decodeRound (fsm.data.length + 1) start
  .ret (res.bind (fun _ => Res.ok self.pyRecs), self.fsm)

/-- `compat_size` is 0 when no record is upgraded. -/
def new (hasMetadata tsOut : Bool) (inputVersion : Option Nat)
    (upgradePolicy : VersionUpgradePolicy) : Res PyErr (DbnFsm B) := do
  let builder : DbnFsmBuilder := { (default : DbnFsmBuilder) with tsOut := tsOut }
  let builder ← (builder.withInputDbnVersion inputVersion).mapErr .dbn
  let builder : DbnFsmBuilder :=
    { builder with
      upgradePolicy := upgradePolicy
      skipMetadata := !hasMetadata
      compatSize := some
        (if upgradePolicy = .asIs then 0 else DbnFsm.defaultBufSize) }
  (builder.build : Result (DbnFsm B)).mapErr .dbn

end DBNDecoder
end Dbn
