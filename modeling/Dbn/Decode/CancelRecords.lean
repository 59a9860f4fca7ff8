import Dbn.Decode.Futures

/-!
# Abandoned calls that decode records

A call that asks the machine again finds it settled with the same bytes, and
waits where the abandoned call did.
-/

namespace Dbn
namespace DbnFsm

open Lib Async

variable {B D : Type} [Buffer B] [CalendarDate D]

section Waiting

variable (version : Nat) (policy : VersionUpgradePolicy) (tsOut : Bool)
  (trailing : List UInt8) (left : List (List UInt8))

/-- Before a call that is to return the first of the records that are left. -/
def BetweenRecords (s : ShortReader × DbnFsm B) : Prop :=
  exists buffered, Buffers version policy tsOut buffered
    (left.flatten ++ trailing) s.1 s.2

/-- The machine is settled and has not buffered all of the next record. -/
def WaitsForRecord (_ : Unit) (s : ShortReader × DbnFsm B) : Prop :=
  exists buffered, Buffers version policy tsOut buffered
      (left.flatten ++ trailing) s.1 s.2 ∧
    s.2.state = .record ∧ Pending left buffered

/-- The call returns the next record, or nothing at the end. -/
def ReturnsNext (res : Except Error (Option RecordRef))
    (s : ShortReader × DbnFsm B) : Prop :=
  res.map (Option.map RecordRef.asRef) =
      Except.ok (left.head?.map (upgradedImage version policy tsOut)) ∧
    BetweenRecords version policy tsOut trailing left.tail s

end Waiting

variable {version : Nat} {policy : VersionUpgradePolicy} {tsOut : Bool}
  {trailing buffered : List UInt8} {left : List (List UInt8)}
  {r : ShortReader} {fsm : DbnFsm B} {p : Panic}

/-- An await point is a state between calls when the call is abandoned. -/
theorem WaitsForRecord.betweenRecords {s : ShortReader × DbnFsm B}
    (h : WaitsForRecord version policy tsOut trailing left () s) :
    BetweenRecords version policy tsOut trailing left s := by
  rcases h with ⟨buffered, hbuffers, _⟩
  exact ⟨buffered, hbuffers⟩

/-- What is buffered of the next record is not all of it. -/
theorem Pending.partialRecord {stream : List UInt8}
    (h : Pending left buffered)
    (hrecords : forall rec, rec ∈ left ->
      WellFormedRecord version policy tsOut rec)
    (hpart : PartialRecord trailing)
    (hstream : buffered ++ stream = left.flatten ++ trailing) :
    PartialRecord buffered := by
  cases left with
  | nil =>
      have htake := partialRecord_take hpart buffered.length
      rw [List.flatten_nil, List.nil_append] at hstream
      rwa [← hstream, List.take_left] at htake
  | cons rec rest =>
      have hpiece : buffered <+: rec ++ (rest.flatten ++ trailing) := by
        rw [← List.append_assoc, ← List.flatten_cons, ← hstream]
        exact List.prefix_append _ _
      exact partialRecord_of_prefix hpiece
        (hrecords rec List.mem_cons_self).size (h rec rest rfl)

variable [LawfulBuffer B]

/-- From a call of `process` on: a record, or a read. -/
theorem Buffers.processRecord
    (hrecords : forall rec, rec ∈ left ->
      WellFormedRecord version policy tsOut rec)
    (hpart : PartialRecord trailing)
    (h : Buffers version policy tsOut buffered (left.flatten ++ trailing) r
      fsm) :
    (exists res s, Async.processRecord D p (r, fsm) =
        .ret (.ready res s) ∧
      ReturnsNext version policy tsOut trailing left res s) ∨
    (Async.processRecord D p (r, fsm) =
        .ret (.pending () (r, fsm.settle)) ∧
      WaitsForRecord version policy tsOut trailing left () (r, fsm.settle)) := by
  by_cases hpending : Pending left buffered
  · right
    have hpartial := hpending.partialRecord hrecords hpart h.stream_eq
    rcases h.inRecords.process_partial (D := D) hpartial with ⟨n, hret, _⟩
    refine ⟨?_, buffered, h.settle, state_settle h.inRecords.recordPhase,
      hpending⟩
    unfold Async.processRecord
    dsimp only
    rw [hret]
  · left
    unfold Pending at hpending
    push Not at hpending
    rcases hpending with ⟨rec, rest, rfl, hlen⟩
    rw [List.flatten_cons, List.append_assoc] at h
    rcases h.process_record (D := D) (hrecords rec List.mem_cons_self) hlen
      with ⟨fsm', tail, hret, hlast, hbuffers⟩
    refine ⟨Except.ok fsm'.lastRecord, (r, fsm'), ?_, ?_, tail, hbuffers⟩
    · unfold Async.processRecord
      dsimp only
      rw [hret]
    · unfold lastBytes at hlast
      simp [Except.map, hlast]

omit [LawfulBuffer B] in
/-- The read of the await point. -/
theorem resumeRecord_eq (hspace : 0 < fsm.spaceLen) :
    (r.rest = [] ∧ resumeRecord D p (r, fsm) =
      .ret (.ready (Except.ok none)
        (r.advance 0, fsm.writeSpace []))) ∨
    (0 < r.amount fsm.spaceLen ∧ resumeRecord D p (r, fsm) =
      Async.processRecord D p
        (r.advance (r.amount fsm.spaceLen), afterRead r fsm)) := by
  have hresume : resumeRecord D p (r, fsm) =
      if r.amount fsm.spaceLen = 0 then
        .ret (.ready (Except.ok none)
          (r.advance (r.amount fsm.spaceLen),
            fsm.writeSpace (r.rest.take (r.amount fsm.spaceLen))))
      else
        Async.processRecord D p
          (r.advance (r.amount fsm.spaceLen), afterRead r fsm) := by
    unfold resumeRecord
    rw [readSpace_shortReader]
    rfl
  rw [hresume]
  by_cases hzero : r.amount fsm.spaceLen = 0
  · left
    rcases ShortReader.amount_eq_zero.mp hzero with hnone | hrest
    · omega
    · rw [if_pos hzero, hzero, List.take_zero]
      exact ⟨hrest, rfl⟩
  · right
    rw [if_neg hzero]
    exact ⟨Nat.pos_of_ne_zero hzero, rfl⟩

/-- Every await point is followed by another one or by the result. -/
theorem waitsForRecord_progresses
    (hrecords : forall rec, rec ∈ left ->
      WellFormedRecord version policy tsOut rec)
    (hpart : PartialRecord trailing) :
    (decodeRecordFn ShortReader B D p).Progresses
      (WaitsForRecord version policy tsOut trailing left)
      (ReturnsNext version policy tsOut trailing left)
      (fun _ s => s.1.rest.length) := by
  rintro ⟨⟩ ⟨r, fsm⟩ ⟨buffered, hbuffers, hstate, hpending⟩
  show (exists a s', resumeRecord D p (r, fsm) = _ ∧ _) ∨
    (exists f s', resumeRecord D p (r, fsm) = _ ∧ _)
  dsimp only at hbuffers hstate
  have hsettle := settle_eq_self fsm hstate
  have hpartial := hpending.partialRecord hrecords hpart hbuffers.stream_eq
  have hspace := hbuffers.spaceLen_settle_pos hpartial
  have hread := hbuffers.read
  have hnothing := hbuffers.readNothing
  rw [hsettle] at hspace hread hnothing
  rcases resumeRecord_eq (D := D) (p := p) (r := r) hspace
    with ⟨hrest, hresume⟩ | ⟨hamount, hresume⟩
  · left
    refine ⟨_, _, hresume, ?_⟩
    -- nothing is left of the stream, so no record is
    cases left with
    | nil => exact ⟨rfl, buffered, hnothing⟩
    | cons rec rest =>
        exfalso
        have hlt := hpending rec rest rfl
        have hstream := congrArg List.length hbuffers.stream_eq
        rw [hrest, List.flatten_cons] at hstream
        simp only [List.length_append, List.length_nil] at hstream
        omega
  · rw [hresume]
    rcases hread.processRecord (D := D) (p := p) hrecords
      hpart with hready | ⟨hwaits, hwait⟩
    · exact Or.inl hready
    · right
      refine ⟨(), _, hwaits, hwait, ?_⟩
      have hle := r.amount_le_rest fsm.spaceLen
      dsimp only
      rw [ShortReader.rest_advance, List.length_drop]
      omega

/-- A call between abandoned calls. -/
theorem BetweenRecords.meets
    (hrecords : forall rec, rec ∈ left ->
      WellFormedRecord version policy tsOut rec)
    (hpart : PartialRecord trailing) {s : ShortReader × DbnFsm B}
    (hs : BetweenRecords version policy tsOut trailing left s) :
    (decodeRecordFn ShortReader B D p).Meets s
      (WaitsForRecord version policy tsOut trailing left)
      (ReturnsNext version policy tsOut trailing left) := by
  apply (waitsForRecord_progresses hrecords hpart).meets
  rcases hs with ⟨buffered, hbuffers⟩
  rcases hbuffers.processRecord (D := D) (p := p) hrecords
    hpart with hready | ⟨hwaits, hwait⟩
  · exact Or.inl hready
  · exact Or.inr ⟨(), _, hwaits, hwait⟩

end DbnFsm
end Dbn
