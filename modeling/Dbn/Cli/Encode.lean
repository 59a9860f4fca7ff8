import Dbn.Cli.Filter

/-!
# Encoding the decoded records

The arguments of the command line, the output that they ask for, and the loops
that hand the records of a decoder to the encoder of that output.
-/

namespace Dbn
namespace Cli

open Lib

/-- `anyhow::Error`. -/
inductive AnyhowError where
  | dbn (source : Error)
  | msg (text : String)
deriving DecidableEq, Repr

/-!
## Arguments
-/

inductive Encoding where
  | dbn
  | csv
  | json
deriving DecidableEq, Repr

inductive Compression where
  | none
  | zstd
deriving DecidableEq, Repr

inductive OutputEncoding where
  | infer
  | dbn
  | csv
  | tsv
  | json
  | dbnFragment
deriving DecidableEq, Repr

/-- The arguments.  The parser asks for an input, and does not let the metadata
of a fragment be the output. -/
structure Args (S : Type) where
  input : List S
  output : Option String
  json : Bool
  csv : Bool
  tsv : Bool
  dbn : Bool
  fragment : Bool
  zstd : Bool
  shouldOutputMetadata : Bool
  shouldPrettyPrint : Bool
  mapSymbols : Bool
  limit : Option NonZeroU64
  isInputFragment : Bool
  isInputZstdFragment : Bool
  schemaFilter : Option Schema
  writeHeader : Bool
  required : input ≠ []
  conflicts : isInputFragment || isInputZstdFragment ->
    shouldOutputMetadata = false

variable {S E F D R : Type}

namespace Args

def outputEncoding (args : Args S) : OutputEncoding :=
  if args.json then .json
  else if args.csv then .csv
  else if args.tsv then .tsv
  else if args.dbn then .dbn
  else if args.fragment then .dbnFragment
  else .infer

/-- The encoding, the compression and the delimiter of the output. -/
def inferEncoding (args : Args S) :
    Except AnyhowError (Encoding × Compression × UInt8) :=
  let compression := if args.zstd then Compression.zstd else Compression.none
  let comma : UInt8 := 0x2C
  let tab : UInt8 := 0x09
  match args.outputEncoding with
  | .dbnFragment | .dbn => Except.ok (.dbn, compression, 0)
  | .csv => Except.ok (.csv, compression, comma)
  | .tsv => Except.ok (.csv, compression, tab)
  | .json => Except.ok (.json, compression, 0)
  | .infer =>
      match args.output with
      | some output =>
          if output.endsWith ".dbn.zst" then Except.ok (.dbn, .zstd, 0)
          else if output.endsWith ".dbn" then Except.ok (.dbn, .none, 0)
          else if output.endsWith ".csv.zst" then
            Except.ok (.csv, .zstd, comma)
          else if output.endsWith ".csv" then Except.ok (.csv, .none, comma)
          else if output.endsWith ".tsv.zst" || output.endsWith ".xls.zst" then
            Except.ok (.csv, .zstd, tab)
          else if output.endsWith ".tsv" || output.endsWith ".xls" then
            Except.ok (.csv, .none, tab)
          else if output.endsWith ".json.zst" then
            Except.ok (.json, .zstd, 0)
          else if output.endsWith ".json" then Except.ok (.json, .none, 0)
          else
            Except.error (.msg
              ("Unable to infer output encoding from output path '" ++
                output ++ "'"))
      | none =>
          Except.error (.msg
            "Unable to infer output encoding when no output was specified")

end Args

/-!
## Outputs
-/

/-- The settings of `DynEncoder::builder`. -/
structure EncoderSettings (D : Type) where
  encoding : Encoding
  compression : Compression
  metadata : Metadata D
  delimiter : UInt8
  writeHeader : Bool
  allPretty : Bool
  withSymbol : Bool

/--
The calls that the command line makes to its writer and encoder, as changes of
the state `E` of the output.  `M` tells how a call runs.
-/
structure Output (M : Type -> Type) (R D : Type) where
  outputFromArgs : M Unit
  /-- `json::Encoder::new(..).encode_metadata(..)`. -/
  encodeMetadata : Bool -> Metadata D -> M Unit
  /-- `DbnRecordEncoder::new(DynWriter::new(..)?)`. -/
  dbnRecordEncoder : Compression -> M Unit
  /-- `DynEncoderBuilder::build`. -/
  build : EncoderSettings D -> M Unit
  /-- `rtype_dispatch!(record, write_header(&mut encoder))`. -/
  writeHeader : R -> M Unit
  encodeRecordRef : R -> M Unit
  encodeRecordRefTsOut : R -> Bool -> M Unit
  encodeRefTsOutWithSym : R -> Bool -> Option Str -> M Unit
  flush : M Unit

namespace Output

/-- The calls of an output that neither panics nor hangs. -/
abbrev Calls (E R D : Type) :=
  Output (fun A => E -> Except AnyhowError A × E) R D

/-- The calls with a log of the records that are handed to the encoder. -/
def logged (o : Calls E R D) :
    Output (Session AnyhowError (Logged E R)) R D where
  outputFromArgs := Session.silent o.outputFromArgs
  encodeMetadata pretty metadata :=
    Session.silent (o.encodeMetadata pretty metadata)
  dbnRecordEncoder compression :=
    Session.silent (o.dbnRecordEncoder compression)
  build settings := Session.silent (o.build settings)
  writeHeader record := Session.silent (o.writeHeader record)
  encodeRecordRef record := Session.handing record (o.encodeRecordRef record)
  encodeRecordRefTsOut record tsOut :=
    Session.handing record (o.encodeRecordRefTsOut record tsOut)
  encodeRefTsOutWithSym record tsOut sym :=
    Session.handing record (o.encodeRefTsOutWithSym record tsOut sym)
  flush := Session.silent o.flush

/-- The output whose calls all succeed. -/
def accepting : Calls Unit R D where
  outputFromArgs := fun e => (Except.ok (), e)
  encodeMetadata _ _ := fun e => (Except.ok (), e)
  dbnRecordEncoder _ := fun e => (Except.ok (), e)
  build _ := fun e => (Except.ok (), e)
  writeHeader _ := fun e => (Except.ok (), e)
  encodeRecordRef _ := fun e => (Except.ok (), e)
  encodeRecordRefTsOut _ _ := fun e => (Except.ok (), e)
  encodeRefTsOutWithSym _ _ _ := fun e => (Except.ok (), e)
  flush := fun e => (Except.ok (), e)

end Output

/-!
## Encoding
-/

section Encode

variable [HasRtype R]

/-- `?` on the result of a decoder. -/
def fromDbn (decode : Pull Error F R) : Pull AnyhowError F R := fun d => do
  let (res, d) ← decode d
  .ret (res.mapError AnyhowError.dbn, d)

variable (o : Output (Session AnyhowError E) R D)

def encodeFragment (rounds : Nat) (decode : Pull Error F R) (decoder : F)
    (compression : Compression) : Session AnyhowError E Unit := do
  o.dbnRecordEncoder compression
  forEach (fromDbn decode) (fun _ record => o.encodeRecordRef record) rounds ()
    decoder

/-- `DynEncoder::encode_decoded`. -/
def encodeDecoded (rounds : Nat) (encoding : Encoding)
    (decode : Pull Error F R) (decoder : WithMetadata F D) :
    Session AnyhowError E Unit := do
  let tsOut := decoder.metadata.tsOut
  match encoding with
  | .csv =>
      match decoder.metadata.schema with
      | some schema =>
          let rtype := RType.fromSchema schema
          forEach (fromDbn decode)
            (fun _ record =>
              if (HasRtype.rtype record).toOption ≠ some rtype then
                throw (AnyhowError.dbn (mixedSchemas rtype record))
              else o.encodeRecordRefTsOut record tsOut)
            rounds () decoder.decoder
          o.flush
      | none =>
          throw (AnyhowError.dbn
            (Error.encode "can't encode a CSV with mixed schemas"))
  | .dbn | .json =>
      forEach (fromDbn decode)
        (fun _ record => o.encodeRecordRefTsOut record tsOut) rounds ()
        decoder.decoder
      o.flush

/-- `getForRec` is `get_for_rec` of the symbol map of the metadata. -/
def encodeFromDbn (symbolMap : Metadata D -> Except Error (R -> Option Str))
    (rounds : Nat) (args : Args S) (decode : Pull Error F R)
    (decoder : WithMetadata F D) : Session AnyhowError E Unit := do
  o.outputFromArgs
  let (encoding, compression, delimiter) ←
    MonadExcept.ofExcept args.inferEncoding
  if args.shouldOutputMetadata then
    if encoding ≠ .json then
      throw (AnyhowError.msg
        "Metadata flag is only valid with JSON encoding")
    else o.encodeMetadata args.shouldPrettyPrint decoder.metadata
  else if args.fragment then
    encodeFragment o rounds decode decoder.decoder compression
  else do
    o.build
      { encoding := encoding
        compression := compression
        metadata := decoder.metadata
        delimiter := delimiter
        writeHeader := args.writeHeader
        allPretty := args.shouldPrettyPrint
        withSymbol := args.mapSymbols }
    if args.mapSymbols then do
      let getForRec ← MonadExcept.ofExcept
        ((symbolMap decoder.metadata).mapError AnyhowError.dbn)
      let tsOut := decoder.metadata.tsOut
      forEach (fromDbn decode)
        (fun _ record =>
          o.encodeRefTsOutWithSym record tsOut (getForRec record))
        rounds () decoder.decoder
    else encodeDecoded o rounds encoding decode decoder

/-- The metadata that is not encoded. -/
def dummyMetadata : Metadata D where
  version := dbnVersion
  dataset := ⟨[], rfl⟩
  schema := none
  start := 0
  endTs := none
  limit := none
  stypeIn := none
  stypeOut := .instrumentId
  tsOut := false
  symbolCstrLen := symbolCstrLenV3
  symbols := []
  partialSymbols := []
  notFound := []
  mappings := []

def encodeFromFrag (rounds : Nat) (args : Args S) (decode : Pull Error F R)
    (decoder : F) : Session AnyhowError E Unit := do
  o.outputFromArgs
  let (encoding, compression, delimiter) ←
    MonadExcept.ofExcept args.inferEncoding
  if args.fragment then encodeFragment o rounds decode decoder compression
  else if args.shouldOutputMetadata then fun _ => .panic .assertion
  else do
    o.build
      { encoding := encoding
        compression := compression
        metadata := dummyMetadata
        delimiter := delimiter
        -- the record type is not known yet
        writeHeader := false
        allPretty := args.shouldPrettyPrint
        withSymbol := false }
    let hasWrittenHeader := encoding != .csv || !args.writeHeader
    forEach (fromDbn decode)
      (fun hasWrittenHeader record => do
        if !hasWrittenHeader then o.writeHeader record
        o.encodeRecordRef record
        return true)
      rounds hasWrittenHeader decoder

end Encode

/-!
## Records handed to the encoder
-/

section Hands

open Session

variable [HasRtype R]
  {o : Output.Calls E R D} {decode : Pull Error F R} {d : F} {rs : List R}
  {stop : Option Error} {rounds : Nat} {args : Args S}

omit [HasRtype R] in
theorem reads_fromDbn (h : Reads decode d rs stop) :
    Reads (fromDbn decode) d rs (stop.map AnyhowError.dbn) := by
  induction h with
  | done call =>
      apply Reads.done
      rw [fromDbn, call]
      rfl
  | fail call =>
      apply Reads.fail
      rw [fromDbn, call]
      rfl
  | item call rest ih =>
      refine Reads.item ?_ ih
      rw [fromDbn, call]
      rfl

omit [HasRtype R] in
theorem encodeFragment_hands (h : Reads decode d rs stop)
    (hrounds : rs.length < rounds) (compression : Compression) :
    Hands (encodeFragment o.logged rounds decode d compression) rs := by
  apply Hands.silent_bind (Hands.silent _)
  intro _
  apply Hands.forEach _ (reads_fromDbn h) hrounds
  intro _ record
  exact Hands.handing record _

theorem encodeDecoded_hands (h : Reads decode d rs stop)
    (hrounds : rs.length < rounds) (encoding : Encoding)
    (metadata : Metadata D) :
    Hands (encodeDecoded o.logged rounds encoding decode ⟨metadata, d⟩)
      rs := by
  have hplain : Hands (forEach (fromDbn decode)
      (fun _ record => o.logged.encodeRecordRefTsOut record metadata.tsOut)
      rounds () d >>= fun _ => o.logged.flush) rs := by
    apply Hands.bind_silent
    · apply Hands.forEach _ (reads_fromDbn h) hrounds
      intro _ record
      exact Hands.handing record _
    · intro _
      exact Hands.silent _
  cases encoding with
  | dbn => exact hplain
  | json => exact hplain
  | csv =>
      unfold encodeDecoded
      dsimp only
      cases metadata.schema with
      | none => exact Hands.throw _ _
      | some schema =>
          apply Hands.bind_silent
          · apply Hands.forEach _ (reads_fromDbn h) hrounds
            intro _ record
            apply Hands.ite
            · intro _
              exact Hands.throw _ _
            · intro _
              exact Hands.handing record _
          · intro _
            exact Hands.silent _

/-- The records that the arguments ask to encode; none with `--metadata`. -/
def encodes (args : Args S) (records : List R) : List R :=
  if args.shouldOutputMetadata then [] else records

theorem encodeFromDbn_hands (h : Reads decode d rs stop)
    (hrounds : rs.length < rounds) (metadata : Metadata D)
    (symbolMap : Metadata D -> Except Error (R -> Option Str)) :
    Hands
      (encodeFromDbn o.logged symbolMap rounds args decode ⟨metadata, d⟩)
      (encodes args rs) := by
  apply Hands.silent_bind (Hands.silent _)
  intro _
  apply Hands.silent_bind (Hands.ofExcept _)
  rintro ⟨encoding, compression, delimiter⟩
  unfold encodes
  apply Hands.ite
  · intro htrue
    rw [if_pos htrue]
    apply Hands.ite
    · intro _
      exact Hands.throw _ _
    · intro _
      exact Hands.silent _
  intro hfalse
  rw [if_neg hfalse]
  apply Hands.ite
  · intro _
    exact encodeFragment_hands h hrounds compression
  intro _
  apply Hands.silent_bind (Hands.silent _)
  intro _
  apply Hands.ite
  · intro _
    apply Hands.silent_bind (Hands.ofExcept _)
    intro getForRec
    apply Hands.forEach _ (reads_fromDbn h) hrounds
    intro _ record
    exact Hands.handing record _
  · intro _
    exact encodeDecoded_hands h hrounds encoding metadata

omit [HasRtype R] in
theorem encodeFromFrag_hands (h : Reads decode d rs stop)
    (hrounds : rs.length < rounds)
    (hargs : args.shouldOutputMetadata = false) :
    Hands (encodeFromFrag o.logged rounds args decode d) rs := by
  apply Hands.silent_bind (Hands.silent _)
  intro _
  apply Hands.silent_bind (Hands.ofExcept _)
  rintro ⟨encoding, compression, delimiter⟩
  apply Hands.ite
  · intro _
    exact encodeFragment_hands h hrounds compression
  intro _
  apply Hands.ite
  · intro htrue
    rw [hargs] at htrue
    cases htrue
  intro _
  apply Hands.silent_bind (Hands.silent _)
  intro _
  apply Hands.forEach _ (reads_fromDbn h) hrounds
  intro hasWrittenHeader record
  cases hasWrittenHeader with
  | false =>
      apply Hands.silent_bind (Hands.silent _)
      intro _
      apply Hands.bind_silent (Hands.handing record _)
      intro _
      exact Hands.pure true
  | true =>
      apply Hands.bind_silent (Hands.handing record _)
      intro _
      exact Hands.pure true

omit [HasRtype R]

theorem encodeFromFrag_hands_of_error {e : AnyhowError}
    (hinfer : args.inferEncoding = Except.error e) (items : List R) :
    Hands (encodeFromFrag o.logged rounds args decode d) items := by
  unfold encodeFromFrag
  rw [hinfer]
  apply Hands.silent_bind (Hands.silent _)
  intro _
  exact Hands.throw e items

/-- With an output that accepts everything all the records are handed. -/
theorem encodeFromFrag_handsAll (h : Reads decode d rs stop)
    (hrounds : rs.length < rounds)
    (hargs : args.shouldOutputMetadata = false)
    {inferred : Encoding × Compression × UInt8}
    (hinfer : args.inferEncoding = Except.ok inferred) :
    HandsAll (encodeFromFrag (D := D) Output.accepting.logged rounds args
      decode d) rs := by
  have haccept : forall e : Unit, exists a,
      ((Except.ok (), e) : Except AnyhowError Unit × Unit).1 = Except.ok a :=
    fun _ => ⟨(), rfl⟩
  rcases inferred with ⟨encoding, compression, delimiter⟩
  unfold encodeFromFrag
  rw [hinfer, hargs]
  apply Completes.bind_all (Completes.silent haccept)
  intro _
  apply Completes.bind_all (Completes.pure (encoding, compression, delimiter))
  rintro ⟨encoding, compression, delimiter⟩
  dsimp only
  split
  · apply Completes.bind_all (Completes.silent haccept)
    intro _
    apply Completes.forEach _ (reads_fromDbn h) hrounds
    intro _ record
    exact Completes.handing record haccept
  rw [if_neg Bool.false_ne_true]
  apply Completes.bind_all (Completes.silent haccept)
  intro _
  apply Completes.forEach _ (reads_fromDbn h) hrounds
  intro hasWrittenHeader record
  cases hasWrittenHeader with
  | false =>
      apply Completes.bind (Completes.silent haccept)
      intro _
      apply Completes.bind (Completes.handing record haccept)
      intro _
      exact Completes.pure true
  | true =>
      apply Completes.bind (Completes.handing record haccept)
      intro _
      exact Completes.pure true

end Hands
end Cli
end Dbn
