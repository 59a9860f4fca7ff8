import Dbn.Lib.PriorityQueue
import Dbn.Types

/-!
# Merging decoders

The record decoder that merges the streams of other decoders by the primary
timestamp of the records.  The head of the record that was returned last stays
on the heap until the next call.
-/

namespace Dbn

open Lib

/-- The primary timestamp of a record. -/
class Record (R : Type) where
  rawIndexTs : R -> Nat

/-- Types that decode references to records and know the last one. -/
class DecodeRecordRef (D : Type) (R : outParam Type) where
  decodeRecordRef : D -> Outcome (Except Error (Option R) × D)
  lastRecord : D -> Option R

namespace Merge

/-- A timestamp of a record, or a lower bound for a stream that has not been
read from. -/
inductive IndexTs where
  | real (ts : Nat)
  | hint (ts : Nat)
deriving DecidableEq, Repr

def IndexTs.ts : IndexTs -> Nat
  | .real t => t
  | .hint t => t

def IndexTs.isHint : IndexTs -> Bool
  | .real _ => false
  | .hint _ => true

/-- The head of the stream of a decoder. -/
structure StreamHead where
  indexTs : IndexTs
  decoderIdx : Nat
deriving DecidableEq, Repr

/-- The derived order: by timestamp, whatever its kind, and then by index. -/
instance : LE StreamHead where
  le a b :=
    a.indexTs.ts < b.indexTs.ts ∨
      a.indexTs.ts = b.indexTs.ts ∧ a.decoderIdx ≤ b.decoderIdx

instance (a b : StreamHead) : Decidable (a ≤ b) :=
  inferInstanceAs (Decidable (_ ∨ _))

theorem StreamHead.le_iff {a b : StreamHead} :
    a ≤ b <-> a.indexTs.ts < b.indexTs.ts ∨
      a.indexTs.ts = b.indexTs.ts ∧ a.decoderIdx ≤ b.decoderIdx := Iff.rfl

instance : Std.Total (fun a b : StreamHead => a ≤ b) where
  total a b := by
    rw [StreamHead.le_iff, StreamHead.le_iff]
    omega

instance : IsTrans StreamHead (fun a b => a ≤ b) where
  trans a b c := by
    rw [StreamHead.le_iff, StreamHead.le_iff, StreamHead.le_iff]
    omega

/-- Merges the record streams of one or more decoders. -/
structure RecordDecoder (D Q : Type) where
  decoders : List D
  /-- The heap for the merge. -/
  minHeap : Q
  isFirst : Bool

namespace RecordDecoder

variable {D Q R : Type} [DecodeRecordRef D R] [Record R]
  [PriorityQueue Q StreamHead]

/-- Decode the next record of a decoder and put its head on the heap. -/
def pushNext (m : RecordDecoder D Q) (decoderIdx : Nat) :
    Outcome (Except Error Unit × RecordDecoder D Q) :=
  match m.decoders[decoderIdx]? with
  | none => .panic Panic.outOfBounds
  | some decoder => do
      let (res, decoder) ← DecodeRecordRef.decodeRecordRef decoder
      let m := { m with decoders := m.decoders.set decoderIdx decoder }
      match res with
      | Except.error e => .ret (Except.error e, m)
      | Except.ok none => .ret (Except.ok (), m)
      | Except.ok (some rec) =>
          .ret (Except.ok (),
            { m with
              minHeap := PriorityQueue.push m.minHeap
                ⟨.real (Record.rawIndexTs rec), decoderIdx⟩ })

/-- The loop of `new` over a number of decoders from an index on. -/
def pushAll : Nat -> Nat -> RecordDecoder D Q ->
    Outcome (Except Error (RecordDecoder D Q))
  | 0, _, m => .ret (Except.ok m)
  | count + 1, decoderIdx, m => do
      let (res, m) ← m.pushNext decoderIdx
      match res with
      | Except.error e => .ret (Except.error e)
      | Except.ok () => pushAll count (decoderIdx + 1) m

/-- The error for an empty list of decoders. -/
def noneProvided : Error :=
  Error.badArgument "decoders" "none provided"

/-- Creates a new merging decoder. -/
def new (decoders : List D) : Outcome (Except Error (RecordDecoder D Q)) :=
  if decoders.isEmpty then .ret (Except.error noneProvided)
  else pushAll decoders.length 0 ⟨decoders, PriorityQueue.empty, true⟩

/-- The heads for a list of hints, from an index on. -/
def hintHeads (startTsHints : List Nat) : List StreamHead :=
  startTsHints.zipIdx.map (fun h => ⟨.hint h.1, h.2⟩)

/-- Creates a new merging decoder with a lower bound for each stream. -/
def withHints (decoders : List D) (startTsHints : List Nat) :
    Except Error (RecordDecoder D Q) :=
  if decoders.isEmpty then Except.error noneProvided
  else if decoders.length ≠ startTsHints.length then
    Except.error
      (Error.badArgument "hints" "must have the same length as `decoders`")
  else
    Except.ok
      ⟨decoders,
        (hintHeads startTsHints).foldl PriorityQueue.push PriorityQueue.empty,
        true⟩

/-- Does not handle hints. -/
def peekDecoderIdx (m : RecordDecoder D Q) : Option Nat :=
  (PriorityQueue.peek m.minHeap).map StreamHead.decoderIdx

/--
Handles hints.  Every round but the last replaces a hint by a record, so the
number of decoders bounds the rounds.
-/
def nextDecoderIdxLoop : Nat -> RecordDecoder D Q ->
    Outcome (Except Error (Option Nat) × RecordDecoder D Q)
  | 0, _ => .timeout
  | fuel + 1, m =>
      match PriorityQueue.peek m.minHeap with
      | none => .ret (Except.ok none, m)
      | some ⟨.real _, decoderIdx⟩ => .ret (Except.ok (some decoderIdx), m)
      | some ⟨.hint _, decoderIdx⟩ => do
          let minHeap := PriorityQueue.dropMin m.minHeap
          let (res, m) ← { m with minHeap := minHeap }.pushNext decoderIdx
          match res with
          | Except.error e => .ret (Except.error e, m)
          | Except.ok () => nextDecoderIdxLoop fuel m

def nextDecoderIdx (m : RecordDecoder D Q) :
    Outcome (Except Error (Option Nat) × RecordDecoder D Q) :=
  m.nextDecoderIdxLoop (m.decoders.length + 1)

/-- `decoders[decoder_idx].last_record()`. -/
def lastRecordOf (m : RecordDecoder D Q) (decoderIdx : Nat) :
    Outcome (Option R) :=
  match m.decoders[decoderIdx]? with
  | none => .panic Panic.outOfBounds
  | some decoder => .ret (DecodeRecordRef.lastRecord decoder)

/-- The part of `decode_record_ref` after the last record was popped. -/
def decodeNext (m : RecordDecoder D Q) :
    Outcome (Except Error (Option R) × RecordDecoder D Q) := do
  let (res, m) ← m.nextDecoderIdx
  match res with
  | Except.error e => .ret (Except.error e, m)
  | Except.ok none => .ret (Except.ok none, m)
  | Except.ok (some decoderIdx) => do
      let rec ← m.lastRecordOf decoderIdx
      .ret (Except.ok rec, m)

/-- Tries to decode a reference to the next record of the merged streams. -/
def decodeRecordRef (m : RecordDecoder D Q) :
    Outcome (Except Error (Option R) × RecordDecoder D Q) :=
  if m.isFirst then { m with isFirst := false }.decodeNext
  else
    -- pop the last record
    match PriorityQueue.pop m.minHeap with
    | none => .ret (Except.ok none, m)
    | some (head, minHeap) => do
        let (res, m) ← { m with minHeap := minHeap }.pushNext head.decoderIdx
        match res with
        | Except.error e => .ret (Except.error e, m)
        | Except.ok () => m.decodeNext

def lastRecord (m : RecordDecoder D Q) : Outcome (Option R) :=
  match m.peekDecoderIdx with
  | none => m.lastRecordOf 0
  | some decoderIdx => m.lastRecordOf decoderIdx

end RecordDecoder

end Merge
end Dbn
