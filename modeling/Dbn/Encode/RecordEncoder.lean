import Dbn.Encode.EncodedMetadata
import Dbn.Record

/-!
# Encoding records

`RecordEncoder` writes the bytes of a record as they are, and `Encoder` writes
metadata before them.
-/

namespace Dbn
namespace RecordEncoder

open Lib
open Lib.WriteM (writeAll forEach Writes writes_writeAll writes_forEach)
open MetadataEncoder (Encode Accepts encode encodedBytes)

variable {W D : Type} [Write W] [CalendarDate D]

/-- Encodes a record, whose `Debug` text is part of the error. -/
def encodeRecordRef (debug : RecordRef -> String) (record : RecordRef) :
    Encode W Unit :=
  writeAll (fun e => Error.io e ("serializing " ++ debug record)) record.asRef

/-- `Encoder::new` and a call of `encode_record_ref` for each record. -/
def encodeStream (debug : RecordRef -> String) (m : Metadata D)
    (records : List RecordRef) : Encode W Unit := do
  encode m
  forEach (encodeRecordRef debug) records

theorem writes_encodeStream {debug : RecordRef -> String} {m : Metadata D}
    (h : Accepts m) (records : List RecordRef) :
    Writes (encodeStream debug m records)
      (encodedBytes m ++ (records.map RecordRef.asRef).flatten) := by
  rw [← List.flatMap_def]
  exact (MetadataEncoder.writes_encode h).bind
    (writes_forEach (fun _ _ => writes_writeAll _ _))

end RecordEncoder
end Dbn
