import Dbn.Decode.Sync

/-!
# Asynchronous decoding of metadata

`decode_metadata_with_fsm`.  A read that is awaited is a read; the loops are
those of the synchronous decoders but for the outermost one.
-/

namespace Dbn

open Lib

variable {R B D : Type} [Read R] [Buffer B] [CalendarDate D]

namespace Async

/-- The loop of `decode_metadata_with_fsm`, for a number of rounds. -/
def decodeMetadataLoop :
    Nat -> R -> DbnFsm B ->
      Outcome (Except Error (Metadata D) × MetadataDecoder R B)
  | 0, _, _ => .timeout
  | fuel + 1, reader, fsm =>
      match fsm.process (D := D) with
      | .timeout => .timeout
      | .panic p => .panic p
      | .ret (.readMore n, fsm) =>
          match MetadataDecoder.readLoop n (n + 1) 0 reader fsm with
          | .timeout => .timeout
          | .panic p => .panic p
          | .ret (Except.error e, reader, fsm) =>
              .ret (Except.error e, ⟨reader, fsm⟩)
          | .ret (Except.ok (), reader, fsm) =>
              decodeMetadataLoop fuel reader fsm
      | .ret (.metadata metadata, fsm) =>
          .ret (Except.ok metadata, ⟨reader, fsm⟩)
      -- "DBN metadata should precede records"
      | .ret (.record _, _) => .panic Panic.explicit
      | .ret (.err error, fsm) => .ret (Except.error error, ⟨reader, fsm⟩)

/--
Decodes metadata with a machine that may ask for more data twice, for the
prelude and for the block.
-/
def decodeMetadataWithFsm (reader : R) (fsm : DbnFsm B) :
    Outcome (Except Error (Metadata D) × MetadataDecoder R B) :=
  match readSpace reader fsm with
  | (Except.error e, reader, fsm) =>
      .ret (Except.error (MetadataDecoder.ioErr e), ⟨reader, fsm⟩)
  | (Except.ok nbytes, reader, fsm) =>
      decodeMetadataLoop 3 reader (fsm.fill nbytes)

end Async

end Dbn
