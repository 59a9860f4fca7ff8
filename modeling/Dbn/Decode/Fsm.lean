import Dbn.Decode.MetadataDecode
import Dbn.Decode.Upgrade
import Dbn.Lib.Buffer

/-!
# The decoding state machine

`DbnFsm`: sans-I/O decoding of a stream of metadata and records.  A record
that has been handed out stays in the buffer until the next call, which is
what the `consume` state is for.

The machine and its callers are those of a release build.  In a debug build
`RecordRef::new` also asserts that its buffer holds a header and is aligned.
-/

namespace Dbn

open Lib

/-- The state of the machine. -/
inductive State where
  | prelude
  | metadata (length : Nat)
  | record
  /-- Advance the buffers: bytes read from `buffer`, bytes read from and
  written to `compatBuffer`, and whether the latter should be expanded. -/
  | consume (read compat compatFill : Nat) (expandCompat : Bool)
deriving DecidableEq, Repr

/-- State machine for decoding with bring your own I/O. -/
structure DbnFsm (B : Type) where
  inputDbnVersion : Option Nat
  upgradePolicy : VersionUpgradePolicy
  tsOut : Bool
  state : State
  buffer : B
  compatBuffer : B

/-- The result of a call to `process`, `process_all` or `process_many`. -/
inductive ProcessResult (D R : Type) where
  | readMore (n : Nat)
  | metadata (m : Metadata D)
  | record (r : R)
  | err (e : Error)

/-- A validated version. -/
abbrev DbnVersion := { v : Nat // 1 ≤ v ∧ v ≤ dbnVersion }

/-- Helper for configuring the state machine. -/
structure DbnFsmBuilder where
  inputDbnVersion : Option DbnVersion
  upgradePolicy : VersionUpgradePolicy
  tsOut : Bool
  skipMetadata : Bool
  bufferSize : Nat
  compatSize : Option Nat

namespace DbnFsm

variable {B D : Type} [Buffer B]

/-- 64 KiB. -/
def defaultBufSize : Nat := 64 * 2 ^ 10
def metadataPreludeLen : Nat := 8
def headerLen : Nat := RecordStruct.headerLen

@[simp] theorem headerLen_eq : headerLen = 16 := rfl
@[simp] theorem metadataPreludeLen_eq : metadataPreludeLen = 8 := rfl

/-- Creates a new decoder with the specified buffer sizes. -/
def new (bufferSize compatSize : Nat) : DbnFsm B where
  inputDbnVersion := none
  upgradePolicy := default
  tsOut := false
  state := State.prelude
  buffer := Buffer.withCapacity bufferSize
  compatBuffer := Buffer.withCapacity compatSize

/-!
## Access to the buffer
-/

/-- The most recently decoded record. -/
def lastRecord (fsm : DbnFsm B) : Option RecordRef :=
  match fsm.state with
  | .prelude | .metadata _ | .record => none
  | .consume _ compat compatFill _ =>
      if compatFill > 0 then none
      else if compat > 0 then some ⟨Buffer.data fsm.compatBuffer⟩
      else some ⟨Buffer.data fsm.buffer⟩

/-- The unprocessed data in the buffer. -/
def data (fsm : DbnFsm B) : List UInt8 :=
  match fsm.state with
  | .consume read _ _ _ => (Buffer.data fsm.buffer).drop read
  | _ => Buffer.data fsm.buffer

/-- The length of the writable space. -/
def spaceLen (fsm : DbnFsm B) : Nat :=
  Buffer.availableSpace fsm.buffer

/-- Write to the front of the slice `space()`. -/
def writeSpace (fsm : DbnFsm B) (bytes : List UInt8) : DbnFsm B :=
  { fsm with buffer := Buffer.writeSpace fsm.buffer bytes }

/-- To be called after writing to `space()`. -/
def fill (fsm : DbnFsm B) (nbytes : Nat) : DbnFsm B :=
  { fsm with buffer := Buffer.fill fsm.buffer nbytes }

def doubleCompatBuffer (fsm : DbnFsm B) : DbnFsm B :=
  { fsm with
    compatBuffer := Buffer.grow fsm.compatBuffer
      (max maxRecordLen (Buffer.capacity fsm.compatBuffer * 2)) }

def consume (fsm : DbnFsm B) (read compat compatFill : Nat)
    (expandCompat : Bool) : DbnFsm B :=
  let buffer := Buffer.consume fsm.buffer read
  let compatBuffer :=
    if compatFill > 0 then Buffer.fill fsm.compatBuffer compatFill
    else fsm.compatBuffer
  let compatBuffer :=
    if compat > 0 then Buffer.consume compatBuffer compat else compatBuffer
  let fsm := { fsm with buffer := buffer, compatBuffer := compatBuffer }
  let fsm := if expandCompat then fsm.doubleCompatBuffer else fsm
  { fsm with state := State.record }

/-- Run a deferred `consume`. -/
def settle (fsm : DbnFsm B) : DbnFsm B :=
  match fsm.state with
  | .consume read compat compatFill expandCompat =>
      fsm.consume read compat compatFill expandCompat
  | _ => fsm

/-- Make room for `len` bytes, running a deferred `consume` first. -/
def reserve (fsm : DbnFsm B) (len : Nat) : DbnFsm B :=
  if fsm.spaceLen < len then
    let fsm := fsm.settle
    if fsm.spaceLen < len then
      let newSize :=
        max (Buffer.capacity fsm.buffer * 2) (Buffer.capacity fsm.buffer + len)
      { fsm with buffer := Buffer.grow fsm.buffer newSize }
    else fsm
  else fsm

/-- Copies the given bytes to the internal buffer. -/
def writeAll (fsm : DbnFsm B) (bytes : List UInt8) : DbnFsm B :=
  ((fsm.reserve bytes.length).writeSpace bytes).fill bytes.length

/-- Ensure the compatibility buffer has at least `size` bytes. -/
def growCompat (fsm : DbnFsm B) (size : Nat) : DbnFsm B :=
  { fsm with compatBuffer := Buffer.grow fsm.compatBuffer size }

/-- Metadata has been decoded or was skipped. -/
def hasDecodedMetadata (fsm : DbnFsm B) : Bool :=
  match fsm.state with
  | .record | .consume _ _ _ _ => true
  | _ => false

/-- Resets the state machine to expect metadata. -/
def reset (fsm : DbnFsm B) : DbnFsm B :=
  { fsm with
    state := State.prelude
    buffer := Buffer.reset fsm.buffer
    compatBuffer := Buffer.reset fsm.compatBuffer
    inputDbnVersion := none }

/-- Skips ahead `nbytes`. -/
def skip (fsm : DbnFsm B) (nbytes : Nat) : DbnFsm B :=
  let fsm := fsm.settle
  { fsm with buffer := Buffer.consume fsm.buffer nbytes }

/-- What `skip` returns: the actual number of bytes skipped. -/
def skipCount (fsm : DbnFsm B) (nbytes : Nat) : Nat :=
  min nbytes (Buffer.availableData fsm.settle.buffer)

/-- `DbnVersion::try_from`. -/
def tryVersion (version : Nat) : Result DbnVersion :=
  if h : 1 ≤ version ∧ version ≤ dbnVersion then Res.ok ⟨version, h⟩
  else
    Res.err (Error.badArgument "version" ("invalid, must be between 1 and " ++
      toString dbnVersion ++ ", inclusive"))

/-- Sets the version to expect when decoding. -/
def setInputDbnVersion (fsm : DbnFsm B) (version : Nat) :
    Result (DbnFsm B) := do
  let version ← tryVersion version
  fsm.upgradePolicy.validateCompatibility version.val
  Res.ok { fsm with inputDbnVersion := some version.val }

/-- Sets the upgrade policy; the check is made with the old policy. -/
def setUpgradePolicy (fsm : DbnFsm B) (policy : VersionUpgradePolicy) :
    Result (DbnFsm B) :=
  let check : Result Unit :=
    match fsm.inputDbnVersion with
    | some version => fsm.upgradePolicy.validateCompatibility version
    | none => Res.ok ()
  check >>= fun _ => Res.ok { fsm with upgradePolicy := policy }

def setTsOut (fsm : DbnFsm B) (tsOut : Bool) : DbnFsm B :=
  { fsm with tsOut := tsOut }

/-!
## Metadata
-/

/-- The version in the prelude. -/
def preludeVersion (data : List UInt8) : Result Nat := do
  let magic ← slice data 0 dbnPrefix.length
  if magic ≠ dbnPrefix then Res.err (Error.decode "invalid DBN header")
  else fromLeSlice 1 data dbnPrefix.length

/-- The length in the prelude of a stream of the given version. -/
def preludeLength (policy : VersionUpgradePolicy) (version : Nat)
    (data : List UInt8) : Result Nat :=
  if version > dbnVersion then
    Res.err (Error.decode ("can't decode newer version of DBN. Decoder " ++
      "version is " ++ toString dbnVersion ++ ", input version is " ++
      toString version))
  else do
    policy.validateCompatibility version
    let length ← fromLeSlice 4 data 4
    if length < metadataFixedLen then
      Res.err (Error.decode
        "invalid DBN metadata. Metadata length shorter than fixed length.")
    else Res.ok length

def decodePrelude (fsm : DbnFsm B) : Result Unit × DbnFsm B :=
  let data := Buffer.data fsm.buffer
  match preludeVersion data with
  | Res.err e => (Res.err e, fsm)
  | Res.panic p => (Res.panic p, fsm)
  | Res.ok version =>
      let fsm := { fsm with inputDbnVersion := some version }
      match preludeLength fsm.upgradePolicy version data with
      | Res.err e => (Res.err e, fsm)
      | Res.panic p => (Res.panic p, fsm)
      | Res.ok length =>
          let fsm :=
            if fsm.upgradePolicy.isUpgradeSituation version ∧
                Buffer.capacity fsm.compatBuffer = 0 then
              fsm.doubleCompatBuffer
            else fsm
          (Res.ok (),
            { fsm with
              state := State.metadata length
              buffer := Buffer.grow
                (Buffer.consumeNoshift fsm.buffer metadataPreludeLen)
                (length + metadataPreludeLen) })

def decodeMetadata [CalendarDate D] (fsm : DbnFsm B) (length : Nat) :
    Result (Metadata D) × DbnFsm B :=
  match fsm.inputDbnVersion with
  | none => (Res.panic Panic.unwrapNone, fsm)
  | some version =>
      match decodeMetadataImpl version (Buffer.data fsm.buffer) with
      | Res.err e => (Res.err e, fsm)
      | Res.panic p => (Res.panic p, fsm)
      | Res.ok metadata =>
          let metadata : Metadata D := metadata.upgrade fsm.upgradePolicy
          (Res.ok metadata,
            { fsm with
              tsOut := metadata.tsOut
              -- shift to ensure record alignment
              buffer := Buffer.shift (Buffer.consume fsm.buffer length)
              state := State.record })

/-!
## Processing one item
-/

/-- The error for a record that is shorter than its header. -/
def invalidLength (length : Nat) : Error :=
  Error.decode ("invalid record with impossible length " ++ toString length ++
    " which is shorter than the header")

/-- What one round of the loop of `process` does. -/
inductive Round (D B : Type) where
  | again (fsm : DbnFsm B)
  | done (res : ProcessResult D Unit) (fsm : DbnFsm B)
  | panicked (p : Panic)

/-- A round in the `record` state. -/
def processRecord (fsm : DbnFsm B) : Round D B :=
  let data := Buffer.data fsm.buffer
  if data.length < headerLen then
    .done (.readMore (headerLen - data.length)) fsm
  else
    let length := recordSize data
    if length < headerLen then .done (.err (invalidLength length)) fsm
    else if length > data.length then
      .done (.readMore (length - data.length)) fsm
    else
      match upgradeRecord fsm.inputDbnVersion fsm.upgradePolicy fsm.tsOut data
          (Buffer.availableSpace fsm.compatBuffer) with
      | Except.error p => .panicked p
      | Except.ok (version, ⟨_, none⟩) =>
          .again { fsm with inputDbnVersion := version }.doubleCompatBuffer
      | Except.ok (version, ⟨written, some _⟩) =>
          .done (.record ())
            { fsm with
              inputDbnVersion := version
              compatBuffer := Buffer.append fsm.compatBuffer written
              state := State.consume length written.length 0 false }

/-- A round of the loop of `process`. -/
def processRound [CalendarDate D] (fsm : DbnFsm B) : Round D B :=
  let available := Buffer.availableData fsm.buffer
  match fsm.state with
  | .prelude =>
      if available < metadataPreludeLen then
        .done (.readMore (metadataPreludeLen - available)) fsm
      else
        match fsm.decodePrelude with
        | (Res.ok (), fsm) => .again fsm
        | (Res.err e, fsm) => .done (.err e) fsm
        | (Res.panic p, _) => .panicked p
  | .metadata length =>
      if available < length then .done (.readMore (length - available)) fsm
      else
        match fsm.decodeMetadata length with
        | (Res.ok metadata, fsm) => .done (.metadata metadata) fsm
        | (Res.err e, fsm) => .done (.err e) fsm
        | (Res.panic p, _) => .panicked p
  | .record => fsm.processRecord
  | .consume read compat compatFill expandCompat =>
      .again (fsm.consume read compat compatFill expandCompat)

/-- The loop of `process`, for a number of rounds. -/
def processLoop [CalendarDate D] :
    Nat -> DbnFsm B -> Outcome (ProcessResult D Unit × DbnFsm B)
  | 0, _ => .timeout
  | fuel + 1, fsm =>
      match (fsm.processRound : Round D B) with
      | .again fsm => processLoop fuel fsm
      | .done res fsm => .ret (res, fsm)
      | .panicked p => .panic p

/--
Process some data if available.  Four rounds are enough, as one consumes and
at most two of them grow the compatibility buffer.
-/
def process [CalendarDate D] (fsm : DbnFsm B) :
    Outcome (ProcessResult D Unit × DbnFsm B) :=
  fsm.processLoop 4

/-!
## Processing many records
-/

/-- Where a bulk call puts records: a vector with a limit, or a slice. -/
inductive RecRefBuf where
  | all (limit : Option NonZeroU64)
  | many (slots : Nat)

def RecRefBuf.hasCapacity (buf : RecRefBuf) (recordCount : Nat) : Bool :=
  match buf with
  | .all none => true
  | .all (some limit) => recordCount < limit.val.toNat
  | .many slots => recordCount < slots

/--
The records that the caller has after an error: those of the vector.  The
slice comes back with `finalize` only, and the argument stays borrowed.
-/
def RecRefBuf.onError (buf : RecRefBuf) (recs : List RecordRef) :
    List RecordRef :=
  match buf with
  | .all _ => recs
  | .many _ => []

/-- The local variables of the loop over records. -/
structure Bulk where
  version : Option Nat
  recs : List RecordRef
  readBytes : Nat
  /-- What has been written to the space of the compatibility buffer. -/
  written : List UInt8

/-- How the loop over records ends. -/
inductive BulkEnd where
  | stopped (expandCompat : Bool)
  | invalid (e : Error)

/-- What a round of the loop over records does. -/
inductive BulkRound where
  | again (acc : Bulk)
  | done (stop : BulkEnd) (acc : Bulk)
  | panicked (p : Panic)

/-- A round of the loop over records. -/
def bulkRound (fsm : DbnFsm B) (buf : RecRefBuf) (acc : Bulk) : BulkRound :=
  let data := Buffer.data fsm.buffer
  if buf.hasCapacity acc.recs.length ∧ acc.readBytes < data.length then
    let remainingData := data.drop acc.readBytes
    let length := recordSize remainingData
    if length < headerLen then .done (.invalid (invalidLength length)) acc
    else if length > remainingData.length then .done (.stopped false) acc
    else
      match upgradeRecord acc.version fsm.upgradePolicy fsm.tsOut
          remainingData
          (Buffer.availableSpace fsm.compatBuffer - acc.written.length) with
      | Except.error p => .panicked p
      | Except.ok (version, ⟨_, none⟩) =>
          -- insufficient remaining compat space
          .done (.stopped true) { acc with version := version }
      | Except.ok (version, ⟨written, some rec⟩) =>
          .again
            { version := version
              recs := acc.recs ++ [rec]
              readBytes := acc.readBytes + length
              written := acc.written ++ written }
  else .done (.stopped false) acc

/-- The loop over records, for a number of rounds. -/
def bulkLoop (fsm : DbnFsm B) (buf : RecRefBuf) :
    Nat -> Bulk -> Outcome (BulkEnd × Bulk)
  | 0, _ => .timeout
  | fuel + 1, acc =>
      match fsm.bulkRound buf acc with
      | .again acc => bulkLoop fsm buf fuel acc
      | .done stop acc => .ret (stop, acc)
      | .panicked p => .panic p

/--
The part of `process_multiple` that starts in the `record` state.  Every round
but the last reads at least a byte.
-/
def processMultipleRecords (fsm : DbnFsm B) (buf : RecRefBuf) :
    Outcome (ProcessResult D Nat × List RecordRef × DbnFsm B) :=
  let start : Bulk := ⟨fsm.inputDbnVersion, [], 0, []⟩
  match fsm.bulkLoop buf (Buffer.availableData fsm.buffer + 1) start with
  | .timeout => .timeout
  | .panic p => .panic p
  | .ret (stop, acc) =>
      let fsm :=
        { fsm with
          inputDbnVersion := acc.version
          compatBuffer := Buffer.writeSpace fsm.compatBuffer acc.written }
      match stop with
      | .invalid e => .ret (.err e, buf.onError acc.recs, fsm)
      | .stopped expandCompat =>
          .ret (.record acc.recs.length, acc.recs,
            { fsm with
              state := State.consume acc.readBytes acc.written.length
                acc.written.length expandCompat })

/--
`process_multiple`, for a number of rounds of its first loop.  Returns the
records that the caller gets with the result.
-/
def processMultipleLoop [CalendarDate D] (buf : RecRefBuf) :
    Nat -> DbnFsm B ->
      Outcome (ProcessResult D Nat × List RecordRef × DbnFsm B)
  | 0, _ => .timeout
  | fuel + 1, fsm =>
      let available := Buffer.availableData fsm.buffer
      match fsm.state with
      | .record => fsm.processMultipleRecords buf
      | .prelude =>
          if available < metadataPreludeLen then
            .ret (.readMore (metadataPreludeLen - available), [], fsm)
          else
            match fsm.decodePrelude with
            | (Res.ok (), fsm) => processMultipleLoop buf fuel fsm
            | (Res.err e, fsm) => .ret (.err e, [], fsm)
            | (Res.panic p, _) => .panic p
      | .metadata length =>
          if available < length then
            .ret (.readMore (length - available), [], fsm)
          else
            match fsm.decodeMetadata length with
            | (Res.ok metadata, fsm) => .ret (.metadata metadata, [], fsm)
            | (Res.err e, fsm) => .ret (.err e, [], fsm)
            | (Res.panic p, _) => .panic p
      | .consume read compat compatFill expandCompat =>
          processMultipleLoop buf fuel
            (fsm.consume read compat compatFill expandCompat)

/-- `process_multiple`; its first loop has at most two rounds. -/
def processMultiple [CalendarDate D] (fsm : DbnFsm B) (buf : RecRefBuf) :
    Outcome (ProcessResult D Nat × List RecordRef × DbnFsm B) :=
  fsm.processMultipleLoop buf 2

/-- Reads all available records or until the optional limit is reached. -/
def processAll [CalendarDate D] (fsm : DbnFsm B)
    (limit : Option NonZeroU64) :
    Outcome (ProcessResult D Nat × List RecordRef × DbnFsm B) :=
  fsm.processMultiple (.all limit)

/-- Reads available records until the slice is filled. -/
def processMany [CalendarDate D] (fsm : DbnFsm B) (slots : Nat) :
    Outcome (ProcessResult D Nat × List RecordRef × DbnFsm B) :=
  fsm.processMultiple (.many slots)

end DbnFsm

/-!
## The builder
-/

namespace DbnFsmBuilder

open DbnFsm (defaultBufSize tryVersion)

instance : Inhabited DbnFsmBuilder where
  default :=
    { inputDbnVersion := none
      upgradePolicy := default
      tsOut := false
      skipMetadata := false
      bufferSize := defaultBufSize
      compatSize := none }

/-- Sets the input version. -/
def withInputDbnVersion (b : DbnFsmBuilder) (version : Option Nat) :
    Result DbnFsmBuilder :=
  match version with
  | none => Res.ok { b with inputDbnVersion := none }
  | some v => do
      let v ← tryVersion v
      Res.ok { b with inputDbnVersion := some v }

/-- The capacity of the compatibility buffer. -/
def compatCapacity (b : DbnFsmBuilder) : Nat :=
  b.compatSize.getD
    (if b.skipMetadata ∧
        b.inputDbnVersion.all
          (fun v => b.upgradePolicy.isUpgradeSituation v.val) then
      defaultBufSize
    -- not required or will be set when decoding metadata
    else 0)

/-- The check of the input version override. -/
def checkVersion (b : DbnFsmBuilder) : Result Unit :=
  match b.inputDbnVersion with
  | some version => b.upgradePolicy.validateCompatibility version.val
  | none => Res.ok ()

/-- Creates a new state machine instance. -/
def build {B : Type} [Buffer B] (b : DbnFsmBuilder) : Result (DbnFsm B) := do
  b.checkVersion
  Res.ok
    { inputDbnVersion := b.inputDbnVersion.map Subtype.val
      upgradePolicy := b.upgradePolicy
      tsOut := b.tsOut
      state := if b.skipMetadata then State.record else State.prelude
      buffer := Buffer.withCapacity b.bufferSize
      compatBuffer := Buffer.withCapacity b.compatCapacity }

/-- What a successful `build` returns. -/
theorem build_eq_ok {B : Type} [Buffer B] {b : DbnFsmBuilder}
    {fsm : DbnFsm B} (h : b.build = Res.ok fsm) :
    fsm =
      { inputDbnVersion := b.inputDbnVersion.map Subtype.val
        upgradePolicy := b.upgradePolicy
        tsOut := b.tsOut
        state := if b.skipMetadata then State.record else State.prelude
        buffer := Buffer.withCapacity b.bufferSize
        compatBuffer := Buffer.withCapacity b.compatCapacity } := by
  obtain ⟨_, _, heq⟩ := Res.bind_eq_ok.mp h
  cases heq
  rfl

end DbnFsmBuilder

end Dbn
