import Dbn.Cli.Encode
import Dbn.Decode.MergeOrder
import Dbn.Metadata.MergeConflicts

/-!
# The paths of the command line

An input is a fragment, a compressed fragment or a stream with metadata, and
there are one or several of them.  Every path puts its decoders together on its
own, and the paths of several fragments leave the filter and the limit out.
-/

namespace Dbn
namespace Cli

open Lib
open Merge (StreamHead)

variable {S E F G H D Q R : Type} [DecodeRecordRef F R] [DecodeRecordRef G R]
  [DecodeRecordRef H R]

/-!
## Inputs
-/

/-- Opening an input and reading what its decoder reads at first. -/
structure Inputs (S F G H D : Type) where
  fragment : S -> Except AnyhowError F
  zstdFragment : S -> Except AnyhowError G
  dyn : S -> Except AnyhowError (WithMetadata H D)

def wrapFrag (args : Args S) (decoder : F) : LimitFilter (SchemaFilter F) :=
  LimitFilter.newNoMetadata
    (SchemaFilter.newNoMetadata decoder args.schemaFilter) args.limit

def wrap (args : Args S) (decoder : WithMetadata F D) :
    WithMetadata (LimitFilter (SchemaFilter F)) D :=
  LimitFilter.new (SchemaFilter.new decoder args.schemaFilter) args.limit

/-- The decoder of the records of `wrapFrag` and `wrap`. -/
def wrapped [HasRtype R] (rounds : Nat) (decode : Pull Error F R) :
    Pull Error (LimitFilter (SchemaFilter F)) R :=
  LimitFilter.decodeRecordRef (SchemaFilter.decodeRecordRef decode rounds)

/-- `?` on a call of the library that reads from its decoders. -/
def ofOutcome {A : Type} (call : Outcome (Except Error A)) :
    Session AnyhowError E A := fun s => do
  let res ← call
  .ret (res.mapError AnyhowError.dbn, s)

section Paths

variable [Record R] [HasRtype R] [PriorityQueue Q StreamHead] [LinearOrder D]
  [HashOrder] [DebugText D] [DebugText Str]

section Run

variable (Q) (inputs : Inputs S F G H D)
  (symbolMap : Metadata D -> Except Error (R -> Option Str)) (rounds : Nat)
  (args : Args S) (o : Output (Session AnyhowError E) R D)

def withInputs : Session AnyhowError E Unit :=
  if args.isInputFragment then do
    let decoders ← MonadExcept.ofExcept (args.input.mapM inputs.fragment)
    let decoder ← ofOutcome (Merge.RecordDecoder.new decoders)
    encodeFromFrag o rounds args Merge.RecordDecoder.decodeRecordRef
      (decoder : Merge.RecordDecoder F Q)
  else if args.isInputZstdFragment then do
    let decoders ← MonadExcept.ofExcept (args.input.mapM inputs.zstdFragment)
    let decoder ← ofOutcome (Merge.RecordDecoder.new decoders)
    encodeFromFrag o rounds args Merge.RecordDecoder.decodeRecordRef
      (decoder : Merge.RecordDecoder G Q)
  else do
    let decoders ← MonadExcept.ofExcept (args.input.mapM inputs.dyn)
    let decoder ← MonadExcept.ofExcept
      ((Merge.Decoder.new decoders).mapError AnyhowError.dbn)
    encodeFromDbn o symbolMap rounds args
      (wrapped rounds Merge.RecordDecoder.decodeRecordRef)
      (wrap args
        (decoder : WithMetadata (Merge.RecordDecoder (WithMetadata H D) Q) D))

def withInput (input : S) : Session AnyhowError E Unit :=
  if args.isInputFragment then do
    let decoder ← MonadExcept.ofExcept (inputs.fragment input)
    encodeFromFrag o rounds args
      (wrapped rounds DecodeRecordRef.decodeRecordRef) (wrapFrag args decoder)
  else if args.isInputZstdFragment then do
    let decoder ← MonadExcept.ofExcept (inputs.zstdFragment input)
    encodeFromFrag o rounds args
      (wrapped rounds DecodeRecordRef.decodeRecordRef) (wrapFrag args decoder)
  else do
    let decoder ← MonadExcept.ofExcept (inputs.dyn input)
    encodeFromDbn o symbolMap rounds args
      (wrapped rounds DecodeRecordRef.decodeRecordRef) (wrap args decoder)

/-- `main` up to the broken pipe that it takes for a success. -/
def main : Session AnyhowError E Unit :=
  if 1 < args.input.length then
    withInputs Q inputs symbolMap rounds args o
  else withInput inputs symbolMap rounds args o (args.input.head args.required)

end Run

/-!
## The sequence of the input
-/

section Sequence

variable (Q) (inputs : Inputs S F G H D) (args : Args S)

def Args.SeveralFragments (args : Args S) : Prop :=
  1 < args.input.length ∧
    (args.isInputFragment || args.isInputZstdFragment) = true

/-- The records of the single or merged input, and the error that ends them. -/
inductive InputSequence : List R -> Option Error -> Prop where
  | fragment {input : S} {decoder : F} {rs : List R} {stop : Option Error}
      (hinput : args.input = [input])
      (hargs : args.isInputFragment = true)
      (hopen : inputs.fragment input = Except.ok decoder)
      (hreads : Reads DecodeRecordRef.decodeRecordRef decoder rs stop) :
      InputSequence rs stop
  | zstdFragment {input : S} {decoder : G} {rs : List R}
      {stop : Option Error} (hinput : args.input = [input])
      (hargs : args.isInputFragment = false)
      (hargs' : args.isInputZstdFragment = true)
      (hopen : inputs.zstdFragment input = Except.ok decoder)
      (hreads : Reads DecodeRecordRef.decodeRecordRef decoder rs stop) :
      InputSequence rs stop
  | dyn {input : S} {decoder : WithMetadata H D} {rs : List R}
      {stop : Option Error} (hinput : args.input = [input])
      (hargs : args.isInputFragment = false)
      (hargs' : args.isInputZstdFragment = false)
      (hopen : inputs.dyn input = Except.ok decoder)
      (hreads : Reads DecodeRecordRef.decodeRecordRef decoder.decoder rs
        stop) :
      InputSequence rs stop
  | fragments {decoders : List F} {decoder : Merge.RecordDecoder F Q}
      {rs : List R} {stop : Option Error} (hinput : 1 < args.input.length)
      (hargs : args.isInputFragment = true)
      (hopen : args.input.mapM inputs.fragment = Except.ok decoders)
      (hmerge : Merge.RecordDecoder.new decoders = .ret (Except.ok decoder))
      (hreads : Reads Merge.RecordDecoder.decodeRecordRef decoder rs stop) :
      InputSequence rs stop
  | zstdFragments {decoders : List G} {decoder : Merge.RecordDecoder G Q}
      {rs : List R} {stop : Option Error} (hinput : 1 < args.input.length)
      (hargs : args.isInputFragment = false)
      (hargs' : args.isInputZstdFragment = true)
      (hopen : args.input.mapM inputs.zstdFragment = Except.ok decoders)
      (hmerge : Merge.RecordDecoder.new decoders = .ret (Except.ok decoder))
      (hreads : Reads Merge.RecordDecoder.decodeRecordRef decoder rs stop) :
      InputSequence rs stop
  | dyns {decoders : List (WithMetadata H D)}
      {decoder : WithMetadata (Merge.RecordDecoder (WithMetadata H D) Q) D}
      {rs : List R} {stop : Option Error} (hinput : 1 < args.input.length)
      (hargs : args.isInputFragment = false)
      (hargs' : args.isInputZstdFragment = false)
      (hopen : args.input.mapM inputs.dyn = Except.ok decoders)
      (hmerge : Merge.Decoder.new decoders = Except.ok decoder)
      (hreads : Reads Merge.RecordDecoder.decodeRecordRef
        decoder.decoder rs stop) :
      InputSequence rs stop

/-- The first records up to the limit that the schema filter keeps. -/
def expected (args : Args S) (rs : List R) : List R :=
  LimitFilter.firsts args.limit
    (rs.filter (SchemaFilter.keeps (args.schemaFilter.map RType.fromSchema)))

end Sequence

/-!
## Records handed by each path
-/

section Read

open Session

omit [DecodeRecordRef F R] [DecodeRecordRef G R] [DecodeRecordRef H R]
  [Record R] [HasRtype R] [PriorityQueue Q StreamHead] [LinearOrder D]
  [HashOrder] [DebugText D] [DebugText Str]

theorem ofExcept_bind {A B : Type} {x : Except AnyhowError A} {a : A}
    (h : x = Except.ok a) (next : A -> Session AnyhowError E B) :
    (MonadExcept.ofExcept x >>= next) = next a := by
  rw [h]
  rfl

theorem ofOutcome_bind {A B : Type} {call : Outcome (Except Error A)} {a : A}
    (h : call = .ret (Except.ok a)) (next : A -> Session AnyhowError E B) :
    (ofOutcome call >>= next) = next a := by
  rw [h]
  rfl

variable {decode : Pull Error F R} {decoder : F} {rs : List R}
  {stop : Option Error} {rounds : Nat} {args : Args S} {input : S}

theorem head_of_eq (h : args.input = [input]) :
    args.input.head args.required = input := by
  simp [h]

theorem main_single {inputs : Inputs S F G H D}
    {symbolMap : Metadata D -> Except Error (R -> Option Str)}
    {o : Output (Session AnyhowError E) R D}
    [DecodeRecordRef F R] [DecodeRecordRef G R]
    [DecodeRecordRef H R] [Record R] [HasRtype R] [PriorityQueue Q StreamHead]
    [LinearOrder D] [HashOrder] [DebugText D] [DebugText Str]
    (h : args.input = [input]) :
    main Q inputs symbolMap rounds args o =
      withInput inputs symbolMap rounds args o input := by
  unfold main
  rw [if_neg, head_of_eq h]
  rw [h]
  exact Nat.lt_irrefl 1

variable [HasRtype R]

theorem expected_sublist (args : Args S) (rs : List R) :
    (expected args rs).Sublist rs := by
  unfold expected LimitFilter.firsts
  cases args.limit with
  | none => exact List.filter_sublist
  | some limit => exact (List.take_sublist _ _).trans List.filter_sublist

theorem wrapped_reads (h : Reads decode decoder rs stop)
    (hrounds : rs.length < rounds) :
    exists stop', Reads (wrapped rounds decode) (wrapFrag args decoder)
      (expected args rs) stop' :=
  LimitFilter.reads (SchemaFilter.reads h hrounds) args.limit

variable {o : Output.Calls E R D}

theorem wrapFrag_hands (h : Reads decode decoder rs stop)
    (hrounds : rs.length < rounds)
    (hargs : args.shouldOutputMetadata = false) :
    Hands (encodeFromFrag o.logged rounds args (wrapped rounds decode)
      (wrapFrag args decoder)) (encodes args (expected args rs)) := by
  have hwrapped : exists stop', Reads (wrapped rounds decode)
      (wrapFrag args decoder) (expected args rs) stop' :=
    wrapped_reads h hrounds
  rcases hwrapped with ⟨stop', hreads⟩
  rw [encodes, hargs]
  exact encodeFromFrag_hands hreads
    (lt_of_le_of_lt (expected_sublist args rs).length_le hrounds) hargs

theorem wrap_hands {decoder : WithMetadata F D}
    (h : Reads decode decoder.decoder rs stop) (hrounds : rs.length < rounds)
    (symbolMap : Metadata D -> Except Error (R -> Option Str)) :
    Hands (encodeFromDbn o.logged symbolMap rounds args (wrapped rounds decode)
      (wrap args decoder)) (encodes args (expected args rs)) := by
  have hwrapped : exists stop', Reads (wrapped rounds decode)
      (wrapFrag args decoder.decoder) (expected args rs) stop' :=
    wrapped_reads h hrounds
  rcases hwrapped with ⟨stop', hreads⟩
  exact encodeFromDbn_hands hreads
    (lt_of_le_of_lt (expected_sublist args rs).length_le hrounds) _ symbolMap

end Read

/-!
## The records that are handed to the encoder
-/

section Main

open Session

variable {inputs : Inputs S F G H D}
  {symbolMap : Metadata D -> Except Error (R -> Option Str)}
  {o : Output.Calls E R D} {args : Args S} {rs : List R}
  {stop : Option Error} {rounds : Nat}

/-- A single input and several inputs with metadata are filtered. -/
theorem main_hands (hseq : InputSequence Q inputs args rs stop)
    (hrounds : rs.length < rounds) (hargs : ¬ args.SeveralFragments) :
    Hands (main Q inputs symbolMap rounds args o.logged)
      (encodes args (expected args rs)) := by
  cases hseq with
  | fragment hinput hpath hopen hreads =>
      rw [main_single hinput, withInput, if_pos hpath, ofExcept_bind hopen]
      apply wrapFrag_hands hreads hrounds
      apply args.conflicts
      rw [hpath]
      rfl
  | zstdFragment hinput hpath hpath' hopen hreads =>
      rw [main_single hinput, withInput, if_neg (by rw [hpath]; simp),
        if_pos hpath', ofExcept_bind hopen]
      apply wrapFrag_hands hreads hrounds
      apply args.conflicts
      rw [hpath, hpath']
      rfl
  | dyn hinput hpath hpath' hopen hreads =>
      rw [main_single hinput, withInput, if_neg (by rw [hpath]; simp),
        if_neg (by rw [hpath']; simp), ofExcept_bind hopen]
      exact wrap_hands hreads hrounds symbolMap
  | fragments hinput hpath hopen hmerge hreads =>
      exfalso
      apply hargs
      refine ⟨hinput, ?_⟩
      rw [hpath]
      rfl
  | zstdFragments hinput hpath hpath' hopen hmerge hreads =>
      exfalso
      apply hargs
      refine ⟨hinput, ?_⟩
      rw [hpath, hpath']
      rfl
  | dyns hinput hpath hpath' hopen hmerge hreads =>
      have hnew := congrArg (Except.mapError AnyhowError.dbn) hmerge
      rw [main, if_pos hinput, withInputs, if_neg (by rw [hpath]; simp),
        if_neg (by rw [hpath']; simp), ofExcept_bind hopen,
        ofExcept_bind hnew]
      exact wrap_hands hreads hrounds symbolMap

/-- Several fragments go to the encoder as they are. -/
theorem main_severalFragments (hseq : InputSequence Q inputs args rs stop)
    (hargs : args.SeveralFragments)
    (o : Output (Session AnyhowError E) R D) :
    exists (K : Type) (decode : Pull Error K R) (decoder : K),
      Reads decode decoder rs stop ∧
      main Q inputs symbolMap rounds args o =
        encodeFromFrag o rounds args decode decoder := by
  cases hseq with
  | fragment hinput hpath hopen hreads =>
      exfalso
      have hlen := hargs.1
      rw [hinput] at hlen
      exact Nat.lt_irrefl 1 hlen
  | zstdFragment hinput hpath hpath' hopen hreads =>
      exfalso
      have hlen := hargs.1
      rw [hinput] at hlen
      exact Nat.lt_irrefl 1 hlen
  | dyn hinput hpath hpath' hopen hreads =>
      exfalso
      have hlen := hargs.1
      rw [hinput] at hlen
      exact Nat.lt_irrefl 1 hlen
  | fragments hinput hpath hopen hmerge hreads =>
      refine ⟨_, _, _, hreads, ?_⟩
      rw [main, if_pos hinput, withInputs, if_pos hpath, ofExcept_bind hopen,
        ofOutcome_bind hmerge]
  | zstdFragments hinput hpath hpath' hopen hmerge hreads =>
      refine ⟨_, _, _, hreads, ?_⟩
      rw [main, if_pos hinput, withInputs, if_neg (by rw [hpath]; simp),
        if_pos hpath', ofExcept_bind hopen, ofOutcome_bind hmerge]
  | dyns hinput hpath hpath' hopen hmerge hreads =>
      exfalso
      have hfrag := hargs.2
      rw [hpath, hpath'] at hfrag
      cases hfrag

/-- With an output that accepts everything the difference shows. -/
theorem expected_eq_of_hands (hseq : InputSequence Q inputs args rs stop)
    (hrounds : rs.length < rounds) (hargs : args.SeveralFragments)
    {inferred : Encoding × Compression × UInt8}
    (hinfer : args.inferEncoding = Except.ok inferred)
    (hhands : Hands
      (main Q inputs symbolMap rounds args Output.accepting.logged)
      (encodes args (expected args rs))) :
    expected args rs = rs := by
  have hmetadata := args.conflicts hargs.2
  rcases main_severalFragments hseq hargs Output.accepting.logged
    with ⟨K, decode, decoder, hreads, hmain⟩
  rw [hmain, encodes, hmetadata] at hhands
  have hall : HandsAll (encodeFromFrag (D := D) Output.accepting.logged rounds
      args decode decoder) rs :=
    encodeFromFrag_handsAll hreads hrounds hmetadata hinfer
  exact hhands.eq_of_handsAll hall (expected_sublist args rs) ()

/-- The command line hands the first records up to the limit that the filter
keeps, unless it leaves both out. -/
theorem main_hands_iff (hseq : InputSequence Q inputs args rs stop)
    (hrounds : rs.length < rounds) :
    (forall (E : Type) (o : Output.Calls E R D),
      Hands (main Q inputs symbolMap rounds args o.logged)
        (encodes args (expected args rs))) <->
      (args.SeveralFragments ->
        (exists e, args.inferEncoding = Except.error e) ∨
          expected args rs = rs) := by
  constructor
  · intro hhands hargs
    cases hinfer : args.inferEncoding with
    | error e => exact Or.inl ⟨e, rfl⟩
    | ok inferred =>
        exact Or.inr (expected_eq_of_hands hseq hrounds hargs hinfer
          (hhands Unit Output.accepting))
  · intro hcond E o
    by_cases hargs : args.SeveralFragments
    · have hmetadata := args.conflicts hargs.2
      rcases main_severalFragments hseq hargs o.logged
        with ⟨K, decode, decoder, hreads, hmain⟩
      rw [hmain, encodes, hmetadata]
      rcases hcond hargs with ⟨e, hinfer⟩ | hexpected
      · exact encodeFromFrag_hands_of_error hinfer _
      · rw [if_neg Bool.false_ne_true, hexpected]
        exact encodeFromFrag_hands hreads hrounds hmetadata
    · exact main_hands hseq hrounds hargs

end Main
end Paths

section Example

open Merge.RecordDecoder

instance : HasRtype Tick where
  rawRtype _ := 0

/-- Inputs that are decoders of lists, and none has metadata. -/
def tickInputs :
    Inputs (VecStream Tick) (VecStream Tick) (VecStream Tick) (VecStream Tick)
      GregorianDate where
  fragment stream := Except.ok stream
  zstdFragment stream := Except.ok stream
  dyn _ := Except.error (AnyhowError.msg "no metadata")

/-- `--json --limit 1 --input-fragment` with two fragments of a record each. -/
def limitedFragments : Args (VecStream Tick) where
  input := [⟨[⟨10, 0⟩], 0⟩, ⟨[⟨11, 1⟩], 0⟩]
  output := none
  json := true
  csv := false
  tsv := false
  dbn := false
  fragment := false
  zstd := false
  shouldOutputMetadata := false
  shouldPrettyPrint := false
  mapSymbols := false
  limit := some ⟨1, by decide⟩
  isInputFragment := true
  isInputZstdFragment := false
  schemaFilter := none
  writeHeader := true
  required := List.cons_ne_nil _ _
  conflicts := fun _ => rfl

/-- The records of both fragments. -/
def ticks : List Tick :=
  [⟨10, 0⟩, ⟨11, 1⟩]

theorem limitedFragments_sequence :
    InputSequence (SortedQueue StreamHead) tickInputs limitedFragments
      ticks none :=
  .fragments (by decide) rfl rfl rfl (.item rfl (.item rfl (.done rfl)))

theorem limitedFragments_not_hands :
    InputSequence (SortedQueue StreamHead) tickInputs limitedFragments
        ticks none ∧
      ¬ forall (E : Type) (o : Output.Calls E Tick GregorianDate),
        Session.Hands
          (main (SortedQueue StreamHead) tickInputs
            (fun _ => Except.ok (fun _ => none)) 3 limitedFragments o.logged)
          (encodes limitedFragments
            (expected limitedFragments ticks)) := by
  refine ⟨limitedFragments_sequence, ?_⟩
  intro h
  have hhands := h Unit Output.accepting
  have heq := expected_eq_of_hands limitedFragments_sequence (by decide)
    ⟨by decide, rfl⟩ rfl hhands
  exact absurd heq (by decide)

theorem main_hands_iff_limitedFragments :
    (forall (E : Type) (o : Output.Calls E Tick GregorianDate),
      Session.Hands
        (main (SortedQueue StreamHead) tickInputs
          (fun _ => Except.ok (fun _ => none)) 3 limitedFragments o.logged)
        (encodes limitedFragments
          (expected limitedFragments ticks))) <->
      (limitedFragments.SeveralFragments ->
        (exists e, limitedFragments.inferEncoding = Except.error e) ∨
          expected limitedFragments ticks = ticks) :=
  main_hands_iff limitedFragments_sequence (by decide)

end Example
end Cli
end Dbn
