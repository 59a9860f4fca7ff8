import Dbn.Decode.RecordReaders
import Dbn.Decode.StreamRoundTrip
import Dbn.Lib.Future

/-!
# The futures of the asynchronous decoders

The asynchronous functions with their await points.  Every await point is a
read into the space of the machine, and a pending read has delivered nothing.
-/

namespace Dbn
namespace Async

open Lib

variable {R B D : Type} [Read R] [Buffer B] [CalendarDate D]

/-- The reads that `decode_metadata_with_fsm` awaits. -/
inductive MetadataAwait where
  /-- The read before the loop. -/
  | first
  /-- The read for `n` bytes of which some were read. -/
  | more (n totalRead : Nat)
deriving DecidableEq, Repr

/-- The loop from a call of `process` to the next read. -/
def processMetadata (reader : R) (fsm : DbnFsm B) :
    Outcome (Poll MetadataAwait (R × DbnFsm B)
      (Except Error (Metadata D))) :=
  match fsm.process (D := D) with
  | .timeout => .timeout
  | .panic p => .panic p
  | .ret (.readMore n, fsm) => .ret (.pending (.more n 0) (reader, fsm))
  | .ret (.metadata metadata, fsm) =>
      .ret (.ready (Except.ok metadata) (reader, fsm))
  -- "DBN metadata should precede records"
  | .ret (.record _, _) => .panic Panic.explicit
  | .ret (.err error, fsm) => .ret (.ready (Except.error error) (reader, fsm))

/-- The function goes on when a read is there. -/
def resumeMetadata (point : MetadataAwait) (s : R × DbnFsm B) :
    Outcome (Poll MetadataAwait (R × DbnFsm B)
      (Except Error (Metadata D))) :=
  match readSpace s.1 s.2 with
  | (Except.error e, reader, fsm) =>
      .ret (.ready (Except.error (MetadataDecoder.ioErr e)) (reader, fsm))
  | (Except.ok read, reader, fsm) =>
      match point with
      | .first => processMetadata reader (fsm.fill read)
      | .more n totalRead =>
          if read = 0 then
            .ret (.ready
              (Except.error (MetadataDecoder.ioErr .unexpectedEof))
              (reader, fsm))
          else
            let fsm := fsm.fill read
            if totalRead + read ≥ n then processMetadata reader fsm
            else .ret (.pending (.more n (totalRead + read)) (reader, fsm))

/-- `decode_metadata_with_fsm`. -/
def decodeMetadataFn (R B D : Type) [Read R] [Buffer B] [CalendarDate D] :
    AsyncFn MetadataAwait (R × DbnFsm B) (Except Error (Metadata D)) where
  start s := .ret (.pending .first s)
  resume := resumeMetadata

/-- The loop of the record decoders from a call of `process` to the read. -/
def processRecord (D : Type) [CalendarDate D] (onMetadata : Panic)
    (s : R × DbnFsm B) :
    Outcome (Poll Unit (R × DbnFsm B) (Except Error (Option RecordRef))) :=
  match s.2.process (D := D) with
  | .timeout => .timeout
  | .panic p => .panic p
  | .ret (.readMore _, fsm) => .ret (.pending () (s.1, fsm))
  | .ret (.record _, fsm) =>
      .ret (.ready (Except.ok fsm.lastRecord) (s.1, fsm))
  | .ret (.err error, fsm) => .ret (.ready (Except.error error) (s.1, fsm))
  | .ret (.metadata _, _) => .panic onMetadata

def resumeRecord (D : Type) [CalendarDate D] (onMetadata : Panic)
    (s : R × DbnFsm B) :
    Outcome (Poll Unit (R × DbnFsm B) (Except Error (Option RecordRef))) :=
  match readSpace s.1 s.2 with
  | (Except.ok nbytes, reader, fsm) =>
      if nbytes = 0 then .ret (.ready (Except.ok none) (reader, fsm))
      else processRecord D onMetadata (reader, fsm.fill nbytes)
  | (Except.error .unexpectedEof, reader, fsm) =>
      .ret (.ready (Except.ok none) (reader, fsm))
  | (Except.error e, reader, fsm) =>
      .ret (.ready (Except.error (Error.io e "decoding record reference"))
        (reader, fsm))

/-- The loop of a record decoder with the panic of its last branch. -/
def decodeRecordFn (R B D : Type) [Read R] [Buffer B] [CalendarDate D]
    (onMetadata : Panic) :
    AsyncFn Unit (R × DbnFsm B) (Except Error (Option RecordRef)) where
  start := processRecord D onMetadata
  resume _ := resumeRecord D onMetadata

/-- `decode_ref`; "skipped metadata". -/
def decodeRefFn (R B D : Type) [Read R] [Buffer B] [CalendarDate D] :
    AsyncFn Unit (R × DbnFsm B) (Except Error (Option RecordRef)) :=
  decodeRecordFn R B D Panic.unreachable

/-- `decode_record_ref_with_fsm`; "found DBN metadata when expected
records". -/
def decodeRecordRefWithFsmFn (R B D : Type) [Read R] [Buffer B]
    [CalendarDate D] :
    AsyncFn Unit (R × DbnFsm B) (Except Error (Option RecordRef)) :=
  decodeRecordFn R B D Panic.explicit

/-!
## Calls that are not abandoned

The futures run the loops of the decoders.
-/

section Loops

variable {reader reader' : R} {fsm fsm' : DbnFsm B} {s : R × DbnFsm B}
  {res : Except Error (Metadata D)}

/-- The reads of the loop are those of an await point. -/
theorem leads_of_readLoop {n fuel total : Nat}
    {read : Except Error Unit}
    (hloop : MetadataDecoder.readLoop n fuel total reader fsm =
      .ret (read, reader', fsm'))
    (hok : read = Except.ok () -> (decodeMetadataFn R B D).Leads
      (processMetadata reader' fsm') res s)
    (herror : forall e, read = Except.error e ->
      res = Except.error e ∧ s = (reader', fsm')) :
    (decodeMetadataFn R B D).Leads
      (.ret (.pending (.more n total) (reader, fsm))) res s := by
  induction fuel generalizing total reader fsm with
  | zero => cases hloop
  | succ fuel ih =>
      apply AsyncFn.Leads.pending
      show (decodeMetadataFn R B D).Leads
        (resumeMetadata (.more n total) (reader, fsm)) res s
      unfold resumeMetadata
      rw [MetadataDecoder.readLoop] at hloop
      rcases hspace : readSpace reader fsm with ⟨e | nread, reader₁, fsm₁⟩
      · rw [hspace] at hloop
        cases hloop
        rcases herror _ rfl with ⟨hres, hs⟩
        rw [hres, hs]
        exact Or.inl rfl
      rw [hspace] at hloop
      dsimp only at hloop ⊢
      by_cases hzero : nread = 0
      · rw [if_pos hzero] at hloop
        cases hloop
        rcases herror _ rfl with ⟨hres, hs⟩
        rw [if_pos hzero, hres, hs]
        exact Or.inl rfl
      rw [if_neg hzero] at hloop ⊢
      by_cases henough : total + nread ≥ n
      · rw [if_pos henough] at hloop
        cases hloop
        rw [if_pos henough]
        exact hok rfl
      · rw [if_neg henough] at hloop
        rw [if_neg henough]
        exact ih hloop

theorem leads_of_decodeMetadataLoop {fuel : Nat}
    {md : MetadataDecoder R B}
    (hloop : decodeMetadataLoop fuel reader fsm = .ret (res, md)) :
    (decodeMetadataFn R B D).Leads (processMetadata reader fsm) res
      (md.reader, md.fsm) := by
  induction fuel generalizing reader fsm with
  | zero => cases hloop
  | succ fuel ih =>
      unfold processMetadata
      rw [decodeMetadataLoop] at hloop
      cases hprocess : fsm.process (D := D) with
      | timeout =>
          rw [hprocess] at hloop
          cases hloop
      | panic p =>
          rw [hprocess] at hloop
          cases hloop
      | ret call =>
          rcases call with ⟨answer, fsm₁⟩
          rw [hprocess] at hloop
          cases answer with
          | metadata m =>
              cases hloop
              exact Or.inl rfl
          | record _ => cases hloop
          | err e =>
              cases hloop
              exact Or.inl rfl
          | readMore n =>
              dsimp only at hloop ⊢
              cases hread : MetadataDecoder.readLoop n (n + 1) 0 reader
                  fsm₁ with
              | timeout =>
                  rw [hread] at hloop
                  cases hloop
              | panic p =>
                  rw [hread] at hloop
                  cases hloop
              | ret call =>
                  rcases call with ⟨e | _, reader₂, fsm₂⟩
                  · rw [hread] at hloop
                    cases hloop
                    apply leads_of_readLoop hread
                    · intro h
                      cases h
                    · intro e' h
                      cases h
                      exact ⟨rfl, rfl⟩
                  · rw [hread] at hloop
                    apply leads_of_readLoop hread
                    · intro _
                      exact ih hloop
                    · intro e' h
                      cases h

/-- The future returns what `decode_metadata_with_fsm` does. -/
theorem returns_of_decodeMetadataWithFsm {md : MetadataDecoder R B}
    (h : decodeMetadataWithFsm reader fsm = .ret (res, md)) :
    (decodeMetadataFn R B D).Returns (reader, fsm) res
      (md.reader, md.fsm) := by
  apply AsyncFn.returns_of_leads
  apply AsyncFn.Leads.pending
  show (decodeMetadataFn R B D).Leads
    (resumeMetadata .first (reader, fsm)) res _
  unfold resumeMetadata
  unfold decodeMetadataWithFsm at h
  rcases hspace : readSpace reader fsm with ⟨e | nread, reader₁, fsm₁⟩
  · rw [hspace] at h
    cases h
    exact Or.inl rfl
  · rw [hspace] at h
    exact leads_of_decodeMetadataLoop h

/-- The future returns what `decode_ref` does. -/
theorem returns_of_decodeRefLoop {fuel : Nat} {d d' : RecordDecoder R B}
    {onMetadata : Panic} {res : Except Error (Option RecordRef)}
    (h : RecordDecoder.decodeRefLoop D fuel d = .ret (res, d')) :
    (decodeRecordFn R B D onMetadata).Returns (d.reader, d.fsm) res
      (d'.reader, d'.fsm) := by
  apply AsyncFn.returns_of_leads
  show (decodeRecordFn R B D onMetadata).Leads
    (processRecord D onMetadata (d.reader, d.fsm)) res _
  induction fuel generalizing d with
  | zero => cases h
  | succ fuel ih =>
      unfold processRecord
      rw [RecordDecoder.decodeRefLoop] at h
      dsimp only
      cases hprocess : d.fsm.process (D := D) with
      | timeout =>
          rw [hprocess] at h
          cases h
      | panic p =>
          rw [hprocess] at h
          cases h
      | ret call =>
          rcases call with ⟨answer, fsm₁⟩
          rw [hprocess] at h
          cases answer with
          | metadata m => cases h
          | record _ =>
              cases h
              exact Or.inl rfl
          | err e =>
              cases h
              exact Or.inl rfl
          | readMore n =>
              apply AsyncFn.Leads.pending
              show (decodeRecordFn R B D onMetadata).Leads
                (resumeRecord D onMetadata (d.reader, fsm₁)) res _
              unfold resumeRecord
              dsimp only at h ⊢
              rcases hspace : readSpace d.reader fsm₁ with
                ⟨e | nbytes, reader₂, fsm₂⟩
              · rw [hspace] at h
                cases e with
                | unexpectedEof =>
                    cases h
                    exact Or.inl rfl
                | other code =>
                    cases h
                    exact Or.inl rfl
              · rw [hspace] at h
                dsimp only at h ⊢
                by_cases hzero : nbytes = 0
                · rw [if_pos hzero] at h
                  cases h
                  rw [if_pos hzero]
                  exact Or.inl rfl
                · rw [if_neg hzero] at h
                  rw [if_neg hzero]
                  exact ih h

end Loops

end Async
end Dbn
