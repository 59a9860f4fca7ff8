import Dbn.Decode.Merge
import Dbn.Metadata.Merge

/-!
# Merging decoders with metadata

A decoder with the metadata of its stream, and the decoder that merges both the
metadata and the records of several of them.  The start of each stream is a
hint for the merge of the records.
-/

namespace Dbn

open Lib

/-- A decoder with the metadata of its stream. -/
structure WithMetadata (F D : Type) where
  metadata : Metadata D
  decoder : F

namespace WithMetadata

variable {F D R : Type} [DecodeRecordRef F R]

instance : DecodeRecordRef (WithMetadata F D) R where
  decodeRecordRef self := do
    let (res, decoder) ← DecodeRecordRef.decodeRecordRef self.decoder
    .ret (res, { self with decoder := decoder })
  lastRecord self := DecodeRecordRef.lastRecord self.decoder

end WithMetadata

namespace Merge
namespace Decoder

variable {F D Q : Type} [LinearOrder D] [DebugText D] [DebugText Str]
  [HashOrder] [PriorityQueue Q StreamHead]

/-- Creates a new merge decoder. -/
def new (decoders : List (WithMetadata F D)) :
    Except Error (WithMetadata (RecordDecoder (WithMetadata F D) Q) D) :=
  let hints := decoders.map (fun d => d.metadata.start.toNat)
  match decoders with
  | [] => Except.error RecordDecoder.noneProvided
  | first :: rest => do
      let metadata ← first.metadata.merge
        (rest.map WithMetadata.metadata)
      let decoder ← RecordDecoder.withHints decoders hints
      Except.ok ⟨metadata, decoder⟩

end Decoder
end Merge
end Dbn
