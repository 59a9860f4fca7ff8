import Dbn.Decode.DynDecoder

/-!
# Readers of compressed and uncompressed input

`DynReader` returns the bytes of its input whether they are compressed or not.
It can skip bytes ahead, which is a seek in uncompressed input and a loop of
reads in compressed input.
-/

namespace Dbn

open Lib

/-- `Seek::seek_relative`. -/
class SeekRelative (R : Type) where
  seekRelative : R -> Int -> Except IoErrorKind Unit × R

/-- The cast of a `usize` to `i64`. -/
def asI64 (n : Nat) : Int :=
  if n < 2 ^ 63 then n else (n : Int) - 2 ^ 64

/-- A reader of uncompressed or of compressed input. -/
inductive DynReader (R Z : Type) where
  | uncompressed (reader : R)
  | zstd (reader : Z)

namespace DynReader

variable {R Z : Type}

/-!
## Constructors
-/

/-- The reader of compressed input. -/
def compressed [Zstd R Z] (reader : R) : Except Error (DynReader R Z) :=
  match Zstd.withBuffer reader with
  | Except.error e => Except.error (Error.io e "creating zstd decoder")
  | Except.ok reader => Except.ok (.zstd reader)

def withBuffer [Zstd R Z] (reader : R) (compression : Cli.Compression) :
    Except Error (DynReader R Z) :=
  match compression with
  | .none => Except.ok (.uncompressed reader)
  | .zstd => compressed reader

def inferredWithBuffer [BufRead R] [Zstd R Z] (reader : R) :
    Except Error (DynReader R Z) :=
  match BufRead.fillBuf reader with
  | (Except.error e, _) =>
      Except.error (Error.io e "creating buffer to infer encoding")
  | (Except.ok firstBytes, reader) =>
      if Zstd.startsWithPrefix firstBytes then compressed reader
      else Except.ok (.uncompressed reader)

def new {S : Type} [Read S] [Zstd (BufReader S) Z] (reader : S)
    (compression : Cli.Compression) :
    Except Error (DynReader (BufReader S) Z) :=
  withBuffer (BufReader.new reader) compression

def newInferred {S : Type} [Read S] [Zstd (BufReader S) Z] (reader : S) :
    Except Error (DynReader (BufReader S) Z) :=
  inferredWithBuffer (BufReader.new reader)

/-!
## Calls
-/

section Calls

variable [Read R] [Read Z] [SeekRelative R]

omit [SeekRelative R] in
instance : Read (DynReader R Z) where
  read r space :=
    match r with
    | .uncompressed reader =>
        match Read.read reader space with
        | (res, reader) => (res, .uncompressed reader)
    | .zstd reader =>
        match Read.read reader space with
        | (res, reader) => (res, .zstd reader)

/-- The context of the errors of `skip_bytes`. -/
def seekingAhead (nBytes : Nat) : String :=
  "seeking ahead " ++ toString nBytes ++ " bytes"

/-- The error when the input ends before all bytes are skipped. -/
def seekEof (nBytes skipped : Nat) : Error :=
  Error.io .unexpectedEof (seekingAhead nBytes ++ ". Only able to seek " ++
    toString skipped ++ " bytes")

/-- The rounds that skip `nBytes`.  Each round skips a byte at least. -/
def skipLoop (nBytes : Nat) : Nat -> Nat -> Z -> Except Error Unit × Z
  | _, 0, z => (Except.ok (), z)
  | 0, remaining + 1, z =>
      (Except.error (seekEof nBytes (nBytes - (remaining + 1))), z)
  | rounds + 1, remaining + 1, z =>
      match Read.read z (min (remaining + 1) 1024) with
      | (Except.error e, z) =>
          (Except.error (Error.io e (seekingAhead nBytes)), z)
      | (Except.ok bytes, z) =>
          if bytes.length = 0 then
            (Except.error (seekEof nBytes (nBytes - (remaining + 1))), z)
          else skipLoop nBytes rounds (remaining + 1 - bytes.length) z

omit [Read R] in
/-- `skip_bytes`. -/
def skip (r : DynReader R Z) (nBytes : Nat) :
    Except Error Unit × DynReader R Z :=
  match r with
  | .uncompressed reader =>
      match SeekRelative.seekRelative reader (asI64 nBytes) with
      | (Except.ok (), reader) => (Except.ok (), .uncompressed reader)
      | (Except.error e, reader) =>
          (Except.error (Error.io e (seekingAhead nBytes)),
            .uncompressed reader)
  | .zstd reader =>
      match skipLoop nBytes nBytes nBytes reader with
      | (res, reader) => (res, .zstd reader)

omit [Read R] in
instance : SkipBytes (DynReader R Z) Error where
  skipBytes := skip

/-- A read or a skip. -/
inductive Call where
  | read (space : Nat)
  | skip (nBytes : Nat)
deriving DecidableEq, Repr

/-- What a call returns. -/
inductive Answer where
  | read (res : Except IoErrorKind (List UInt8))
  | skip (res : Except Error Unit)

/-- The answers of calls, one after the other. -/
def calls : List Call -> DynReader R Z ->
    List (Call × Answer) × DynReader R Z
  | [], r => ([], r)
  | .read space :: rest, r =>
      match Read.read r space with
      | (res, r) =>
          match calls rest r with
          | (answers, r) => ((.read space, .read res) :: answers, r)
  | .skip nBytes :: rest, r =>
      match r.skip nBytes with
      | (res, r) =>
          match calls rest r with
          | (answers, r) => ((.skip nBytes, .skip res) :: answers, r)

end Calls

/-!
## One skip
-/

section Skip

variable [Read Z] {holdsZstd : Z -> List UInt8 -> Prop} {bytes : List UInt8}

end Skip

/-!
## Runs of calls
-/

/--
The answers of calls on a reader of the bytes, which leave the rest.  A skip
past the end is an error only if the input is compressed.
-/
inductive Answers (isCompressed : Bool) : List UInt8 ->
    List (Call × Answer) -> List UInt8 -> Prop where
  | nil (bytes : List UInt8) : Answers isCompressed bytes [] bytes
  | read {bytes rest : List UInt8} {answers : List (Call × Answer)}
      {space n : Nat} (hspace : n ≤ space) (hbytes : n ≤ bytes.length)
      (hzero : n = 0 -> space = 0 ∨ bytes = [])
      (tail : Answers isCompressed (bytes.drop n) answers rest) :
      Answers isCompressed bytes
        ((.read space, .read (Except.ok (bytes.take n))) :: answers) rest
  | skip {bytes rest : List UInt8} {answers : List (Call × Answer)}
      {nBytes : Nat} (hinside : nBytes ≤ bytes.length ∨ isCompressed = false)
      (tail : Answers isCompressed (bytes.drop nBytes) answers rest) :
      Answers isCompressed bytes
        ((.skip nBytes, .skip (Except.ok ())) :: answers) rest
  | skipPastEnd {bytes rest : List UInt8} {answers : List (Call × Answer)}
      {nBytes : Nat} (hcompressed : isCompressed = true)
      (hpast : bytes.length < nBytes)
      (tail : Answers isCompressed [] answers rest) :
      Answers isCompressed bytes
        ((.skip nBytes,
          .skip (Except.error (seekEof nBytes bytes.length))) :: answers) rest

section Runs

variable [BufRead R] [SeekRelative R] [Read Z] [Zstd R Z]
  {holds : R -> List UInt8 -> Prop} {holdsZstd : Z -> List UInt8 -> Prop}
  {bytes stream : List UInt8}

/-- The calls have these answers. -/
def Replies (isCompressed : Bool) (stream : List UInt8) (cs : List Call)
    (d : DynReader R Z) : Prop :=
  exists answers d' rest, calls cs d = (answers, d') ∧
    answers.map Prod.fst = cs ∧ Answers isCompressed stream answers rest

omit [Zstd R Z] in
theorem Replies.read {isCompressed : Bool} {cs : List Call}
    {d d' : DynReader R Z} {space n : Nat} (hspace : n ≤ space)
    (hbytes : n ≤ stream.length) (hzero : n = 0 -> space = 0 ∨ stream = [])
    (hread : Read.read d space = (Except.ok (stream.take n), d'))
    (h : Replies isCompressed (stream.drop n) cs d') :
    Replies isCompressed stream (.read space :: cs) d := by
  rcases h with ⟨answers, d'', rest, hcalls, hmap, hanswers⟩
  refine ⟨_, d'', rest, ?_, ?_,
    Answers.read hspace hbytes hzero hanswers⟩
  · rw [calls, hread]
    dsimp only
    rw [hcalls]
  · rw [List.map_cons, hmap]

omit [Zstd R Z] in
theorem Replies.skip {isCompressed : Bool} {cs : List Call}
    {d d' : DynReader R Z} {nBytes : Nat}
    (hinside : nBytes ≤ stream.length ∨ isCompressed = false)
    (hskip : d.skip nBytes = (Except.ok (), d'))
    (h : Replies isCompressed (stream.drop nBytes) cs d') :
    Replies isCompressed stream (.skip nBytes :: cs) d := by
  rcases h with ⟨answers, d'', rest, hcalls, hmap, hanswers⟩
  refine ⟨_, d'', rest, ?_, ?_, Answers.skip hinside hanswers⟩
  · rw [calls, hskip]
    dsimp only
    rw [hcalls]
  · rw [List.map_cons, hmap]

omit [Zstd R Z] in
theorem Replies.skipPastEnd {cs : List Call} {d d' : DynReader R Z}
    {nBytes : Nat} (hpast : stream.length < nBytes)
    (hskip : d.skip nBytes =
      (Except.error (seekEof nBytes stream.length), d'))
    (h : Replies true [] cs d') :
    Replies true stream (.skip nBytes :: cs) d := by
  rcases h with ⟨answers, d'', rest, hcalls, hmap, hanswers⟩
  refine ⟨_, d'', rest, ?_, ?_, Answers.skipPastEnd rfl hpast hanswers⟩
  · rw [calls, hskip]
    dsimp only
    rw [hcalls]
  · rw [List.map_cons, hmap]

omit [SeekRelative R] [Read Z] in
/-- Input that does not start like a frame is returned as it is. -/
theorem inferred_uncompressed (hhonest : HonestBuf holds) {r : R}
    (h : holds r stream) (hmagic : leNat (stream.take 4) ≠ Zstd.magicNumber) :
    exists r', inferredWithBuffer (Z := Z) r = Except.ok (.uncompressed r') ∧
      holds r' stream := by
  rcases hhonest.fillBuf r stream h with ⟨k, r', hfill, hk, _, hr', _⟩
  refine ⟨r', ?_, hr'⟩
  have hstarts : Zstd.startsWithPrefix (stream.take k) = false := by
    unfold Zstd.startsWithPrefix
    split
    · rfl
    · next hlong =>
        rw [List.length_take_of_le hk, Nat.not_lt] at hlong
        rw [List.take_take, Nat.min_eq_left hlong]
        exact beq_false_of_ne (Ne.symm hmagic)
  unfold inferredWithBuffer
  rw [hfill]
  dsimp only
  rw [hstarts]
  rfl

omit [SeekRelative R] [Read Z] in
theorem inferred_compressed (hhonest : HonestBuf holds) {r : R}
    (h : holds r bytes) (hshows : Shows r 4)
    (hmagic : leNat (bytes.take 4) = Zstd.magicNumber)
    (hzstd : Zstd.Decompresses holds holdsZstd bytes stream) :
    exists z : Z, inferredWithBuffer r = Except.ok (.zstd z) ∧
      holdsZstd z stream := by
  rcases hshows.fillBuf hhonest h with ⟨k, r', hfill, hk, hle, hr', _⟩
  rcases hzstd r' hr' with ⟨z, hz, hstream⟩
  refine ⟨z, ?_, hstream⟩
  unfold inferredWithBuffer compressed
  rw [hfill]
  dsimp only
  rw [DynDecoder.zstd_startsWithPrefix hk hle hmagic, hz]
  rfl

end Runs

/-!
## A sample
-/

namespace Sample

open DynDecoder.Sample

/-- A seek drops what is read ahead first. -/
scoped instance : SeekRelative (BufReader ShortReader) where
  seekRelative r n :=
    (if n < 0 then Except.error (.other 0) else Except.ok (),
      { inner :=
          { r.inner with
            rest := r.inner.rest.drop (n.toNat - r.buffered.length) }
        buffered := r.buffered.drop n.toNat })

end Sample

end DynReader

end Dbn
