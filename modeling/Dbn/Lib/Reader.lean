import Dbn.Lib.Io
import Dbn.Lib.Outcome

/-!
# Readers of a stream

An honest reader returns the next bytes of a stream, as many as it likes but at
least one, until the stream ends.  What a program does with such a reader it
does with a short reader of the same bytes and some schedule; so results about
short reads hold for all honest readers.
-/

namespace Dbn
namespace Lib

variable {R α β γ δ : Type} [Read R]

/-- The relation says which bytes a reader is still to return. -/
def Honest (holds : R -> List UInt8 -> Prop) : Prop :=
  forall r bytes space, holds r bytes -> exists n r',
    Read.read r space = (Except.ok (bytes.take n), r') ∧
      n ≤ space ∧ n ≤ bytes.length ∧ (n = 0 -> space = 0 ∨ bytes = []) ∧
      holds r' (bytes.drop n)

theorem honest_shortReader :
    Honest (fun (r : ShortReader) bytes => r.rest = bytes) := by
  intro r bytes space h
  subst h
  exact ⟨_, _, rfl, r.amount_le_space space, r.amount_le_rest space,
    ShortReader.amount_eq_zero.mp, rfl⟩

namespace ShortReader

/-- A reader that returns some number of bytes first. -/
def thatReturns (n : Nat) (bytes : List UInt8) (schedule : Nat -> Nat) :
    ShortReader where
  rest := bytes
  schedule k :=
    match k with
    | 0 => n
    | k + 1 => schedule k

theorem read_thatReturns {n space : Nat} {bytes : List UInt8}
    (hspace : n ≤ space) (hbytes : n ≤ bytes.length)
    (hzero : n = 0 -> space = 0 ∨ bytes = []) (schedule : Nat -> Nat) :
    Read.read (thatReturns n bytes schedule) space =
      (Except.ok (bytes.take n), ⟨bytes.drop n, schedule⟩) := by
  have hamount : (thatReturns n bytes schedule).amount space = n := by
    show min (max 1 n) (min space bytes.length) = n
    by_cases hn : n = 0
    · rcases hzero hn with hnone | hnil
      · omega
      · rw [hnil, List.length_nil]
        omega
    · omega
  rw [read_eq, hamount]
  rfl

end ShortReader

/-!
## Replays
-/

/--
A computation with a reader of some bytes is replayed with a short reader; what
the short reader does afterwards is free.
-/
def Replays (holds : R -> List UInt8 -> Prop) (bytes : List UInt8)
    (x : Outcome (α × R × β))
    (y : ShortReader -> Outcome (α × ShortReader × β)) : Prop :=
  match x with
  | .ret (a, r, b) => exists bytes', holds r bytes' ∧
      forall schedule, exists before,
        y ⟨bytes, before⟩ = .ret (a, ⟨bytes', schedule⟩, b)
  | .panic p => exists before, y ⟨bytes, before⟩ = .panic p
  | .timeout => exists before, y ⟨bytes, before⟩ = .timeout

variable {holds : R -> List UInt8 -> Prop} {bytes : List UInt8}

omit [Read R] in
theorem Replays.ret {r : R} (h : holds r bytes) (a : α) (b : β) :
    Replays holds bytes (.ret (a, r, b)) (fun s => .ret (a, s, b)) :=
  ⟨bytes, h, fun schedule => ⟨schedule, rfl⟩⟩

omit [Read R] in
theorem Replays.panic (p : Panic) :
    Replays holds bytes (.panic p : Outcome (α × R × β))
      (fun _ => .panic p) :=
  ⟨fun _ => 0, rfl⟩

omit [Read R] in
theorem Replays.timeout :
    Replays holds bytes (.timeout : Outcome (α × R × β))
      (fun _ => .timeout) :=
  ⟨fun _ => 0, rfl⟩

omit [Read R] in
/--
What is done first may be anything that every later schedule has a schedule
for.
-/
theorem Replays.of_before {bytes' : List UInt8} {x : Outcome (α × R × β)}
    {y y' : ShortReader -> Outcome (α × ShortReader × β)}
    (h : Replays holds bytes' x y')
    (hbefore : forall schedule, exists before,
      y ⟨bytes, before⟩ = y' ⟨bytes', schedule⟩) :
    Replays holds bytes x y := by
  cases x with
  | ret out =>
      rcases h with ⟨bytes'', hr, hreplay⟩
      refine ⟨bytes'', hr, ?_⟩
      intro schedule
      rcases hreplay schedule with ⟨between, hbetween⟩
      rcases hbefore between with ⟨before, heq⟩
      exact ⟨before, heq.trans hbetween⟩
  | panic p =>
      rcases h with ⟨schedule, hreplay⟩
      rcases hbefore schedule with ⟨before, heq⟩
      exact ⟨before, heq.trans hreplay⟩
  | timeout =>
      rcases h with ⟨schedule, hreplay⟩
      rcases hbefore schedule with ⟨before, heq⟩
      exact ⟨before, heq.trans hreplay⟩

omit [Read R] in
/-- Two computations, one after the other. -/
theorem Replays.bind {x : Outcome (α × R × β)}
    {y : ShortReader -> Outcome (α × ShortReader × β)}
    {f : α × R × β -> Outcome (γ × R × δ)}
    {g : α × ShortReader × β -> Outcome (γ × ShortReader × δ)}
    (first : Replays holds bytes x y)
    (next : forall a r b bytes', holds r bytes' ->
      Replays holds bytes' (f (a, r, b)) (fun s => g (a, s, b))) :
    Replays holds bytes (x >>= f) (fun s => y s >>= g) := by
  cases x with
  | ret out =>
      rcases first with ⟨bytes', hr, hy⟩
      apply (next out.1 out.2.1 out.2.2 bytes' hr).of_before
      intro schedule
      rcases hy schedule with ⟨before, hbefore⟩
      refine ⟨before, ?_⟩
      show y ⟨bytes, before⟩ >>= g = _
      rw [hbefore]
      rfl
  | panic p =>
      rcases first with ⟨before, hy⟩
      refine ⟨before, ?_⟩
      show y ⟨bytes, before⟩ >>= g = _
      rw [hy]
      rfl
  | timeout =>
      rcases first with ⟨before, hy⟩
      refine ⟨before, ?_⟩
      show y ⟨bytes, before⟩ >>= g = _
      rw [hy]
      rfl

omit [Read R] in
/-- What holds after all short reads holds after the reads of the reader. -/
theorem Replays.of_all {x : Outcome (α × R × β)}
    {y : ShortReader -> Outcome (α × ShortReader × β)}
    {P : α -> ShortReader -> β -> Prop} (h : Replays holds bytes x y)
    (hall : forall schedule, exists a s b,
      y ⟨bytes, schedule⟩ = .ret (a, s, b) ∧ P a s b) :
    exists a r b bytes', x = .ret (a, r, b) ∧ holds r bytes' ∧
      forall schedule, P a ⟨bytes', schedule⟩ b := by
  cases x with
  | ret out =>
      rcases h with ⟨bytes', hr, hreplay⟩
      refine ⟨out.1, out.2.1, out.2.2, bytes', rfl, hr, ?_⟩
      intro schedule
      rcases hreplay schedule with ⟨before, hbefore⟩
      rcases hall before with ⟨a, s, b, hret, hP⟩
      rw [hbefore] at hret
      cases hret
      exact hP
  | panic p =>
      rcases h with ⟨before, hbefore⟩
      rcases hall before with ⟨a, s, b, hret, _⟩
      rw [hbefore] at hret
      cases hret
  | timeout =>
      rcases h with ⟨before, hbefore⟩
      rcases hall before with ⟨a, s, b, hret, _⟩
      rw [hbefore] at hret
      cases hret

end Lib
end Dbn
