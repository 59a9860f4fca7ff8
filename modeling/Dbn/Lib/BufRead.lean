import Dbn.Lib.Reader

/-!
# Buffered readers

`io::BufRead` can show the next bytes without consuming them, and
`io::BufReader` adds that to a reader by reading ahead.  `read_exact` reads a
given number of bytes.
-/

namespace Dbn
namespace Lib

/-- `io::BufRead`: `fill_buf` shows bytes that the next read returns. -/
class BufRead (R : Type) extends Read R where
  fillBuf : R -> Except IoErrorKind (List UInt8) × R

/-- An honest reader that shows the next bytes, and returns them then. -/
structure HonestBuf {R : Type} [BufRead R]
    (holds : R -> List UInt8 -> Prop) : Prop where
  honest : Honest holds
  fillBuf : forall r bytes, holds r bytes -> exists n r',
    BufRead.fillBuf r = (Except.ok (bytes.take n), r') ∧
      n ≤ bytes.length ∧ (n = 0 -> bytes = []) ∧ holds r' bytes ∧
      forall space, exists r'',
        Read.read r' space = (Except.ok (bytes.take (min n space)), r'')

/-- `fill_buf` shows this many bytes at least. -/
def Shows {R : Type} [BufRead R] (r : R) (n : Nat) : Prop :=
  exists shown r', BufRead.fillBuf r = (Except.ok shown, r') ∧
    n ≤ shown.length

/-- What is shown are the first bytes, and the next read returns them. -/
theorem Shows.fillBuf {R : Type} [BufRead R]
    {holds : R -> List UInt8 -> Prop} {bytes : List UInt8} {r : R} {n : Nat}
    (h : Shows r n) (hhonest : HonestBuf holds) (hholds : holds r bytes) :
    exists k r', BufRead.fillBuf r = (Except.ok (bytes.take k), r') ∧
      n ≤ k ∧ k ≤ bytes.length ∧ holds r' bytes ∧
      forall space, exists r'',
        Read.read r' space = (Except.ok (bytes.take (min k space)), r'') := by
  rcases hhonest.fillBuf r bytes hholds with
    ⟨k, r', hfill, hk, _, hr', hread⟩
  rcases h with ⟨shown, r'', hshown, hlength⟩
  rw [hfill] at hshown
  injection hshown with hshown _
  injection hshown with hshown
  rw [← hshown, List.length_take_of_le hk] at hlength
  exact ⟨k, r', hfill, hlength, hk, hr', hread⟩

/-- `io::BufReader`, with the bytes it has read ahead. -/
structure BufReader (R : Type) where
  inner : R
  buffered : List UInt8

namespace BufReader

variable {R : Type} [Read R]

/-- The buffer size of `BufReader::new`. -/
def capacity : Nat := 8192

omit [Read R] in
def new (inner : R) : BufReader R := ⟨inner, []⟩

def fillBuf (r : BufReader R) :
    Except IoErrorKind (List UInt8) × BufReader R :=
  if r.buffered = [] then
    match Read.read r.inner capacity with
    | (Except.ok bytes, inner) => (Except.ok bytes, ⟨inner, bytes⟩)
    | (Except.error e, inner) => (Except.error e, ⟨inner, []⟩)
  else (Except.ok r.buffered, r)

/-- A read that is not smaller than the buffer goes past an empty buffer. -/
def readInto (r : BufReader R) (space : Nat) :
    Except IoErrorKind (List UInt8) × BufReader R :=
  if r.buffered = [] ∧ capacity ≤ space then
    match Read.read r.inner space with
    | (res, inner) => (res, ⟨inner, []⟩)
  else
    match r.fillBuf with
    | (Except.ok bytes, r) =>
        (Except.ok (bytes.take space), { r with buffered := bytes.drop space })
    | (Except.error e, r) => (Except.error e, r)

instance : BufRead (BufReader R) where
  read := readInto
  fillBuf := fillBuf

/-- What is read ahead, and then what the inner reader is still to return. -/
def Holds (holds : R -> List UInt8 -> Prop) (r : BufReader R)
    (bytes : List UInt8) : Prop :=
  exists rest, holds r.inner rest ∧ bytes = r.buffered ++ rest

variable {holds : R -> List UInt8 -> Prop} {bytes : List UInt8}

theorem fillBuf_honest (hhonest : Honest holds) {r : BufReader R}
    (h : r.Holds holds bytes) :
    exists n r', r.fillBuf = (Except.ok (bytes.take n), r') ∧
      n ≤ bytes.length ∧ (n = 0 -> bytes = []) ∧ r'.Holds holds bytes ∧
      r'.buffered = bytes.take n := by
  rcases h with ⟨rest, hrest, rfl⟩
  unfold fillBuf
  split
  · next hempty =>
      rcases hhonest _ _ capacity hrest with
        ⟨n, r', hread, _, hn, hzero, hr'⟩
      rw [hread, hempty, List.nil_append]
      refine ⟨n, ⟨r', rest.take n⟩, rfl, hn, ?_, ?_, rfl⟩
      · intro h0
        exact (hzero h0).resolve_left (by decide)
      · exact ⟨rest.drop n, hr', (List.take_append_drop n rest).symm⟩
  · next hempty =>
      have htake : (r.buffered ++ rest).take r.buffered.length =
          r.buffered := List.take_left
      refine ⟨r.buffered.length, r, ?_, ?_, ?_, ⟨rest, hrest, rfl⟩,
        htake.symm⟩
      · rw [htake]
      · rw [List.length_append]
        exact Nat.le_add_right _ _
      · intro h0
        exact absurd (List.length_eq_zero_iff.mp h0) hempty

/-- A buffer that is not empty serves the read. -/
theorem readInto_of_buffered {r : BufReader R} (h : r.buffered ≠ [])
    (space : Nat) :
    r.readInto space =
      (Except.ok (r.buffered.take space),
        { r with buffered := r.buffered.drop space }) := by
  unfold readInto fillBuf
  rw [if_neg (fun hempty => h hempty.1), if_neg h]

theorem readInto_honest (hhonest : Honest holds) {r : BufReader R}
    (h : r.Holds holds bytes) (space : Nat) :
    exists n r', r.readInto space = (Except.ok (bytes.take n), r') ∧
      n ≤ space ∧ n ≤ bytes.length ∧ (n = 0 -> space = 0 ∨ bytes = []) ∧
      r'.Holds holds (bytes.drop n) := by
  unfold readInto
  split
  · next hpast =>
      rcases h with ⟨rest, hrest, rfl⟩
      rcases hhonest _ _ space hrest with
        ⟨n, r', hread, hspace, hn, hzero, hr'⟩
      rw [hread, hpast.1, List.nil_append]
      exact ⟨n, ⟨r', []⟩, rfl, hspace, hn, hzero, rest.drop n, hr', rfl⟩
  · rcases fillBuf_honest hhonest h with
      ⟨n, r', hfill, hn, hzero, ⟨rest, hrest, hbytes⟩, hbuffered⟩
    rw [hfill]
    dsimp only
    refine ⟨min n space,
      { r' with buffered := (bytes.take n).drop space }, ?_, ?_, ?_, ?_,
      rest, hrest, ?_⟩
    · rw [List.take_take, Nat.min_comm]
    · exact Nat.min_le_right _ _
    · exact Nat.le_trans (Nat.min_le_left _ _) hn
    · intro h0
      rcases Nat.min_eq_zero_iff.mp h0 with hnone | hnone
      · exact Or.inr (hzero hnone)
      · exact Or.inl hnone
    · have hlength : (bytes.take n).length = n := List.length_take_of_le hn
      have hdrop : (bytes.take n).drop (min n space) =
          (bytes.take n).drop space := by
        rcases Nat.le_total n space with hle | hle
        · rw [Nat.min_eq_left hle, List.drop_of_length_le (by omega),
            List.drop_of_length_le (by omega)]
        · rw [Nat.min_eq_right hle]
      rw [hbuffered] at hbytes
      rw [← hdrop]
      nth_rewrite 1 [hbytes]
      exact List.drop_append_of_le_length (by omega)

/-- A buffered reader of an honest reader is honest. -/
theorem honestBuf (hhonest : Honest holds) :
    HonestBuf (Holds (R := R) holds) where
  honest _ _ space h := readInto_honest hhonest h space
  fillBuf r bytes h := by
    rcases fillBuf_honest hhonest h with
      ⟨n, r', hfill, hn, hzero, hr', hbuffered⟩
    refine ⟨n, r', hfill, hn, hzero, hr', ?_⟩
    intro space
    by_cases hempty : r'.buffered = []
    · -- the reader is exhausted, and so the next read returns nothing
      have h0 : n = 0 := by
        have hlength := congrArg List.length hbuffered
        rw [hempty, List.length_take_of_le hn] at hlength
        exact hlength.symm
      rcases readInto_honest hhonest hr' space with ⟨k, r'', hread, _⟩
      rw [hzero h0, List.take_nil] at hread ⊢
      exact ⟨r'', hread⟩
    · have hread := readInto_of_buffered hempty space
      rw [hbuffered, List.take_take, Nat.min_comm] at hread
      exact ⟨_, hread⟩

end BufReader

/-!
## Reading a number of bytes
-/

section ReadExact

variable {R : Type} [Read R]

/-- The rounds of `read_exact`.  Each round reads a byte at least. -/
def readExactLoop : Nat -> R -> Nat ->
    Except IoErrorKind (List UInt8) × R
  | _, r, 0 => (Except.ok [], r)
  | 0, r, _ + 1 => (Except.error .unexpectedEof, r)
  | rounds + 1, r, needed + 1 =>
      match Read.read r (needed + 1) with
      | (Except.error e, r) => (Except.error e, r)
      | (Except.ok bytes, r) =>
          if bytes = [] then (Except.error .unexpectedEof, r)
          else
            match readExactLoop rounds r (needed + 1 - bytes.length) with
            | (Except.ok rest, r) => (Except.ok (bytes ++ rest), r)
            | (Except.error e, r) => (Except.error e, r)

/-- `Read::read_exact`, with the bytes that it reads. -/
def readExact (r : R) (n : Nat) : Except IoErrorKind (List UInt8) × R :=
  readExactLoop n r n

variable {holds : R -> List UInt8 -> Prop} {bytes : List UInt8} {r : R}
  {n : Nat}

theorem readExactLoop_honest (hhonest : Honest holds) {rounds : Nat}
    (h : holds r bytes) (hrounds : n ≤ rounds) (hn : n ≤ bytes.length) :
    exists r', readExactLoop rounds r n = (Except.ok (bytes.take n), r') ∧
      holds r' (bytes.drop n) := by
  induction rounds generalizing r bytes n with
  | zero =>
      rw [Nat.le_zero.mp hrounds]
      exact ⟨r, rfl, h⟩
  | succ rounds ih =>
      cases n with
      | zero => exact ⟨r, rfl, h⟩
      | succ n =>
          rcases hhonest r bytes (n + 1) h with
            ⟨k, r', hread, hspace, hk, hzero, hr'⟩
          have hpos : k ≠ 0 := by
            intro h0
            rcases hzero h0 with hnone | hnil
            · exact Nat.succ_ne_zero n hnone
            · rw [hnil] at hn
              exact Nat.not_succ_le_zero n hn
          have hlength : (bytes.take k).length = k :=
            List.length_take_of_le hk
          have hnonempty : bytes.take k ≠ [] := by
            intro hnil
            rw [hnil] at hlength
            exact hpos hlength.symm
          have hround : n + 1 - k ≤ rounds := by omega
          rcases ih hr' hround (by rw [List.length_drop]; omega) with
            ⟨r'', hrest, hr''⟩
          refine ⟨r'', ?_, ?_⟩
          · rw [readExactLoop, hread]
            dsimp only
            rw [if_neg hnonempty, hlength, hrest]
            dsimp only
            rw [← List.take_add, Nat.add_sub_cancel' hspace]
          · rw [List.drop_drop, Nat.add_sub_cancel' hspace] at hr''
            exact hr''

theorem readExact_honest (hhonest : Honest holds) (h : holds r bytes)
    (hn : n ≤ bytes.length) :
    exists r', readExact r n = (Except.ok (bytes.take n), r') ∧
      holds r' (bytes.drop n) :=
  readExactLoop_honest hhonest h (Nat.le_refl n) hn

end ReadExact

end Lib
end Dbn
