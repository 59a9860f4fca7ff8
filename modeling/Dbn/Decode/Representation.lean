import Dbn.Decode.Reachable
import Dbn.Decode.WellFormedRecords

/-!
# The buffers between two calls

What a deferred `consume` will fill and consume is there in every machine that
the public operations lead to, so that nothing is cut short when it runs.
-/

namespace Dbn
namespace DbnFsm

open Lib

variable {B D : Type} [Buffer B] [CalendarDate D]

/-- `data()` with the bounds check of its slice expression. -/
def dataSlice (fsm : DbnFsm B) : Result (List UInt8) :=
  match fsm.state with
  | .consume read _ _ _ =>
      if read ≤ Buffer.availableData fsm.buffer then
        Res.ok ((Buffer.data fsm.buffer).drop read)
      else
        Res.panic Panic.outOfBounds
  | _ => Res.ok (Buffer.data fsm.buffer)

/-- What is to be consumed and filled is there. -/
structure Deferred (fsm : DbnFsm B) (read compat compatFill : Nat) : Prop where
  read : read ≤ Buffer.availableData fsm.buffer
  compat : compat = Buffer.availableData fsm.compatBuffer + compatFill
  compatFill : compatFill ≤ Buffer.availableSpace fsm.compatBuffer

/-- Running the deferred `consume` moves by exactly the numbers of bytes that
it was given, and leaves nothing in the compatibility buffer. -/
structure RunsInFull (fsm : DbnFsm B) (read compat compatFill : Nat)
    (expandCompat : Bool) : Prop where
  advanced : Buffer.availableData
      (fsm.consume read compat compatFill expandCompat).buffer + read =
    Buffer.availableData fsm.buffer
  filled : Buffer.availableData (Buffer.fill fsm.compatBuffer compatFill) =
    Buffer.availableData fsm.compatBuffer + compatFill
  consumed : Buffer.availableData (Buffer.consume
      (Buffer.fill fsm.compatBuffer compatFill) compat) + compat =
    Buffer.availableData (Buffer.fill fsm.compatBuffer compatFill)
  empty : Buffer.data
    (fsm.consume read compat compatFill expandCompat).compatBuffer = []

/-- The representation invariant of the two buffers. -/
structure Representation (fsm : DbnFsm B) : Prop where
  record : fsm.state = .record -> Buffer.data fsm.compatBuffer = []
  consume : forall read compat compatFill expandCompat,
    fsm.state = .consume read compat compatFill expandCompat ->
      fsm.Deferred read compat compatFill ∧
        fsm.RunsInFull read compat compatFill expandCompat
  data : fsm.dataSlice = Res.ok fsm.data

section Deferred

variable {fsm : DbnFsm B} {read compat compatFill : Nat} {expandCompat : Bool}

omit [CalendarDate D] in
theorem Inv.deferred (h : fsm.Inv)
    (hstate : fsm.state = .consume read compat compatFill expandCompat) :
    fsm.Deferred read compat compatFill := by
  unfold Inv at h
  rw [hstate] at h
  exact ⟨h.1, h.2.1.symm, h.2.2.1⟩

theorem Deferred.dataSlice_eq (h : fsm.Deferred read compat compatFill)
    (hstate : fsm.state = .consume read compat compatFill expandCompat) :
    fsm.dataSlice = Res.ok fsm.data := by
  unfold dataSlice DbnFsm.data
  rw [hstate]
  exact if_pos h.read

variable [LawfulBuffer B]

theorem Deferred.runsInFull (h : fsm.Deferred read compat compatFill)
    (expandCompat : Bool) :
    fsm.RunsInFull read compat compatFill expandCompat := by
  have hspace := LawfulBuffer.length_space fsm.compatBuffer
  have hfilled : Buffer.availableData
      (Buffer.fill fsm.compatBuffer compatFill) =
        Buffer.availableData fsm.compatBuffer + compatFill := by
    unfold Buffer.availableData
    rw [LawfulBuffer.data_fill, List.length_append, List.length_take, hspace,
      Nat.min_eq_left h.compatFill]
  constructor
  · rw [(consume_fields fsm read compat compatFill expandCompat).1]
    unfold Buffer.availableData
    rw [LawfulBuffer.data_consume, List.length_drop]
    exact Nat.sub_add_cancel h.read
  · exact hfilled
  · rw [hfilled, ← h.compat]
    unfold Buffer.availableData at hfilled ⊢
    rw [LawfulBuffer.data_consume, List.length_drop, hfilled]
    rw [h.compat]
    exact Nat.sub_add_cancel (Nat.le_refl _)
  · exact data_compat_consume read expandCompat h.compat.symm h.compatFill

end Deferred

/-- Every reachable machine has buffers as they should be. -/
theorem representation_of_reachable [LawfulBuffer B] {fsm : DbnFsm B}
    (h : Reachable D fsm) : fsm.Representation := by
  have hinv := h.inv
  constructor
  · exact hinv.compat_nil
  · intro read compat compatFill expandCompat hstate
    have hdeferred := hinv.deferred hstate
    exact ⟨hdeferred, hdeferred.runsInFull expandCompat⟩
  · cases hstate : fsm.state with
    | consume read compat compatFill expandCompat =>
        exact (hinv.deferred hstate).dataSlice_eq hstate
    | prelude =>
        unfold dataSlice DbnFsm.data
        rw [hstate]
    | metadata length =>
        unfold dataSlice DbnFsm.data
        rw [hstate]
    | record =>
        unfold dataSlice DbnFsm.data
        rw [hstate]

set_option maxRecDepth 4000 in
/-- A record that is upgraded leaves its image in the compatibility buffer. -/
theorem representation_of_reachable_upgraded :
    exists fsm', (fragment (some ⟨1, by decide⟩) .upgradeToV3
        heartbeatV1).process (D := GregorianDate) = .ret (.record (), fsm') ∧
      fsm'.state = .consume 80 320 0 false ∧
      (Buffer.data fsm'.compatBuffer).length = 320 ∧
      fsm'.Representation := by
  have hcall : exists fsm', (fragment (some ⟨1, by decide⟩) .upgradeToV3
      heartbeatV1).process (D := GregorianDate) = .ret (.record (), fsm') ∧
        fsm'.state = .consume 80 320 0 false ∧
        (Buffer.data fsm'.compatBuffer).length = 320 :=
    ⟨_, rfl, rfl, rfl⟩
  rcases hcall with ⟨fsm', hcall, hstate, hcompat⟩
  exists fsm'
  constructor
  · exact hcall
  constructor
  · exact hstate
  constructor
  · exact hcompat
  · exact representation_of_reachable
      (Reachable.process (reachable_fragment rfl _) hcall)

end DbnFsm
end Dbn
