import Dbn.Lib.LittleEndian
import Dbn.Lib.Outcome

/-!
# Decoders with a cursor

A decoder that walks a buffer with a cursor is described by a grammar: the
relation between the bytes it passes over and the value it returns.
`Recognizes` ties a call to its grammar, and its rules follow the shape of the
decoder, so that a decoder is verified piece by piece.
-/

namespace Dbn
namespace Lib

variable {ε α β : Type}

/-- A relation between bytes and the value they stand for. -/
abbrev Grammar (α : Type) := List UInt8 -> α -> Prop

namespace Grammar

/-- No bytes, and a value that is known. -/
def value (a : α) : Grammar α :=
  fun bytes x => bytes = [] ∧ x = a

/-- One grammar after the other. -/
def seq (R : Grammar α) (S : α -> Grammar β) : Grammar β :=
  fun bytes b => exists front back a,
    bytes = front ++ back ∧ R front a ∧ S a back b

/-- An integer of `width` bytes. -/
def uint (width : Nat) : Grammar Nat :=
  fun bytes n => bytes.length = width ∧ n = leNat bytes

/-- A given number of elements. -/
def many (R : Grammar α) : Nat -> Grammar (List α)
  | 0 => value []
  | count + 1 => seq R (fun a => seq (many R count) (fun as => value (a :: as)))

/-- A list of elements after their number. -/
def counted (R : Grammar α) : Grammar (List α) :=
  seq (uint 4) (many R)

theorem length_many {R : Grammar α} {len : Nat}
    (hR : forall bytes a, R bytes a -> bytes.length = len) {count : Nat}
    {bytes : List UInt8} {as : List α} (h : many R count bytes as) :
    bytes.length = count * len := by
  induction count generalizing bytes as with
  | zero =>
      rw [h.1, Nat.zero_mul]
      rfl
  | succ count ih =>
      rcases h with ⟨front, back, a, rfl, hfront, mid, tail, rest, rfl, hmid,
        rfl, rfl⟩
      rw [List.length_append, List.length_append, hR front a hfront, ih hmid,
        Nat.succ_mul]
      simp
      omega

theorem length_eq_of_many {R : Grammar α} {count : Nat}
    {bytes : List UInt8} {as : List α} (h : many R count bytes as) :
    as.length = count := by
  induction count generalizing bytes as with
  | zero =>
      rw [h.2]
      rfl
  | succ count ih =>
      rcases h with ⟨_, _, a, rfl, _, _, _, rest, rfl, hrest, rfl, rfl⟩
      rw [List.length_cons, ih hrest]

theorem length_many_sum {R : Grammar α} {size : α -> Nat}
    (hR : forall bytes a, R bytes a -> bytes.length = size a) {count : Nat}
    {bytes : List UInt8} {as : List α} (h : many R count bytes as) :
    bytes.length = (as.map size).sum := by
  induction count generalizing bytes as with
  | zero =>
      rw [h.1, h.2]
      rfl
  | succ count ih =>
      rcases h with ⟨front, _, a, rfl, hfront, mid, _, rest, rfl, hrest, rfl,
        rfl⟩
      rw [List.map_cons, List.sum_cons, List.append_nil, List.length_append,
        hR front a hfront, ih hrest]

/-- Elements that have bytes for their sizes have bytes for the sum. -/
theorem sum_le_of_many {R : Grammar α} {size : α -> Nat}
    (hR : forall bytes a, R bytes a -> size a ≤ bytes.length) {count : Nat}
    {bytes : List UInt8} {as : List α} (h : many R count bytes as) :
    (as.map size).sum ≤ bytes.length := by
  induction count generalizing bytes as with
  | zero =>
      rw [h.2]
      exact Nat.zero_le _
  | succ count ih =>
      rcases h with ⟨front, _, a, rfl, hfront, mid, _, rest, rfl, hrest, rfl,
        rfl⟩
      have hle := Nat.add_le_add (hR front a hfront) (ih hrest)
      rw [List.map_cons, List.sum_cons, List.append_nil, List.length_append]
      exact hle

/-- Sequences are nested to the right. -/
theorem seq_seq {γ : Type} (R : Grammar α) (S : α -> Grammar β)
    (T : β -> Grammar γ) :
    seq (seq R S) T = seq R (fun a => seq (S a) T) := by
  funext bytes c
  apply propext
  constructor
  · rintro ⟨_, back, b, rfl, ⟨front, mid, a, rfl, hR, hS⟩, hT⟩
    exact ⟨front, mid ++ back, a, List.append_assoc _ _ _, hR, mid, back, b,
      rfl, hS, hT⟩
  · rintro ⟨front, _, a, rfl, hR, mid, back, b, rfl, hS, hT⟩
    exact ⟨front ++ mid, back, b, (List.append_assoc _ _ _).symm,
      ⟨front, mid, a, rfl, hR, hS⟩, hT⟩

theorem value_seq (a : α) (S : α -> Grammar β) : seq (value a) S = S a := by
  funext bytes b
  apply propext
  constructor
  · rintro ⟨_, back, _, rfl, ⟨rfl, rfl⟩, hS⟩
    exact hS
  · intro hS
    exact ⟨[], bytes, a, rfl, ⟨rfl, rfl⟩, hS⟩

/-- The encodings of the elements one after the other. -/
theorem many_flatMap {R : Grammar α} {encode : α -> List UInt8} {as : List α}
    (h : forall a, a ∈ as -> R (encode a) a) :
    many R as.length (as.flatMap encode) as := by
  induction as with
  | nil => exact ⟨rfl, rfl⟩
  | cons a rest ih =>
      refine ⟨encode a, rest.flatMap encode, a, rfl, h a List.mem_cons_self,
        rest.flatMap encode, [], rest, ?_, ?_, rfl, rfl⟩
      · rw [List.append_nil]
      · exact ih (fun b hb => h b (List.mem_cons_of_mem a hb))

/-- A list is encoded as its length and its elements. -/
theorem counted_flatMap {R : Grammar α} {encode : α -> List UInt8}
    {as : List α} (hlen : as.length < 2 ^ 32)
    (h : forall a, a ∈ as -> R (encode a) a) :
    counted R (leBytes 4 as.length ++ as.flatMap encode) as := by
  refine ⟨_, _, as.length, rfl, ⟨length_leBytes _ _, ?_⟩, many_flatMap h⟩
  exact (leNat_leBytes_of_lt hlen).symm

/-- Elements of known sizes are read from their own encodings. -/
theorem of_many_flatMap {R : Grammar α} {encode : α -> List UInt8}
    {size : α -> Nat} (hR : forall bytes a, R bytes a -> bytes.length = size a)
    {as : List α} (hsize : forall a, a ∈ as -> (encode a).length = size a)
    {count : Nat} (h : many R count (as.flatMap encode) as) :
    forall a, a ∈ as -> R (encode a) a := by
  induction as generalizing count with
  | nil =>
      intro a hin
      cases hin
  | cons a rest ih =>
      cases count with
      | zero => cases h.2
      | succ count =>
          rcases h with ⟨front, _, _, hbytes, hfront, back, _, _, rfl, hback,
            rfl, hlist⟩
          cases hlist
          rw [List.append_nil, List.flatMap_cons] at hbytes
          have hlen : (encode a).length = front.length := by
            rw [hR front a hfront, hsize a List.mem_cons_self]
          rcases List.append_inj hbytes hlen with ⟨hhead, htail⟩
          rw [← htail] at hback
          have hrest := ih
            (fun b hb => hsize b (List.mem_cons_of_mem a hb)) hback
          intro b hb
          rcases List.mem_cons.mp hb with hb | hb
          · rw [hb, hhead]
            exact hfront
          · exact hrest b hb

theorem of_counted_flatMap {R : Grammar α} {encode : α -> List UInt8}
    {size : α -> Nat} (hR : forall bytes a, R bytes a -> bytes.length = size a)
    {as : List α} (hsize : forall a, a ∈ as -> (encode a).length = size a)
    (h : counted R (leBytes 4 as.length ++ as.flatMap encode) as) :
    as.length < 2 ^ 32 ∧ forall a, a ∈ as -> R (encode a) a := by
  rcases h with ⟨front, back, count, hbytes, ⟨hfront, hcount⟩, hmany⟩
  rcases List.append_inj hbytes ((length_leBytes _ _).trans hfront.symm) with
    ⟨_, hback⟩
  rw [← hback] at hmany
  constructor
  · have hlt := leNat_lt front
    rw [hfront, ← hcount] at hlt
    rw [length_eq_of_many hmany]
    exact hlt
  · exact of_many_flatMap hR hsize hmany

end Grammar

/--
The call at position `pos` does not panic, and it returns exactly the values
of the grammar for the bytes at the cursor.
-/
structure Recognizes (buffer : List UInt8) (pos : Nat)
    (x : Res ε (α × Nat)) (R : Grammar α) : Prop where
  safe : ¬ x.IsPanic
  accepts : forall a stop, x = Res.ok (a, stop) <->
    exists piece, piece <+: buffer.drop pos ∧ R piece a ∧
      stop = pos + piece.length

namespace Recognizes

variable {buffer : List UInt8} {pos : Nat} {x : Res ε (α × Nat)}
  {R : Grammar α}

theorem stop_le (h : Recognizes buffer pos x R) (hpos : pos ≤ buffer.length)
    {a : α} {stop : Nat} (hx : x = Res.ok (a, stop)) :
    pos ≤ stop ∧ stop ≤ buffer.length := by
  obtain ⟨piece, hpiece, _, rfl⟩ := (h.accepts a stop).mp hx
  have hlen := hpiece.length_le
  rw [List.length_drop] at hlen
  omega

theorem inside {piece : List UInt8} (hpiece : piece <+: buffer.drop pos)
    (hpos : pos ≤ buffer.length) : pos + piece.length ≤ buffer.length := by
  have hlen := hpiece.length_le
  rw [List.length_drop] at hlen
  omega

/--
Two decoders of one format return the same value, or both return an error, when
the same bytes are left to them.
-/
theorem forget_eq {ε' : Type} {buffer' : List UInt8} {pos' : Nat}
    {y : Res ε' (α × Nat)} (hx : Recognizes buffer pos x R)
    (hy : Recognizes buffer' pos' y R)
    (hrest : buffer.drop pos = buffer'.drop pos') :
    (x >>= fun out => Res.ok out.1).forget =
      (y >>= fun out => Res.ok out.1).forget := by
  have hmoves : forall a, (exists stop, x = Res.ok (a, stop)) <->
      exists stop, y = Res.ok (a, stop) := by
    intro a
    simp only [hx.accepts, hy.accepts, hrest]
    constructor
    · rintro ⟨_, piece, hpiece, hR, _⟩
      exact ⟨_, piece, hpiece, hR, rfl⟩
    · rintro ⟨_, piece, hpiece, hR, _⟩
      exact ⟨_, piece, hpiece, hR, rfl⟩
  cases x with
  | panic p => exact absurd (Res.panic_isPanic p) hx.safe
  | ok out =>
      rcases (hmoves out.1).mp ⟨out.2, rfl⟩ with ⟨stop, rfl⟩
      rfl
  | err e =>
      cases y with
      | panic p => exact absurd (Res.panic_isPanic p) hy.safe
      | err e' => rfl
      | ok out =>
          rcases (hmoves out.1).mpr ⟨out.2, rfl⟩ with ⟨stop, hstop⟩
          cases hstop

/-- A decoder that returns without moving the cursor. -/
theorem ok (buffer : List UInt8) (pos : Nat) (a : α) :
    Recognizes buffer pos (Res.ok (a, pos) : Res ε (α × Nat))
      (Grammar.value a) where
  safe := Res.ok_not_isPanic _
  accepts := by
    intro a' stop
    constructor
    · intro h
      cases h
      exact ⟨[], List.nil_prefix, ⟨rfl, rfl⟩, rfl⟩
    · rintro ⟨piece, _, ⟨rfl, rfl⟩, rfl⟩
      rfl

/-- One decoder after the other. -/
theorem bind {f : α × Nat -> Res ε (β × Nat)} {S : α -> Grammar β}
    (hx : Recognizes buffer pos x R)
    (hf : forall a stop, x = Res.ok (a, stop) ->
      Recognizes buffer stop (f (a, stop)) (S a)) :
    Recognizes buffer pos (x >>= f) (Grammar.seq R S) where
  safe := by
    rw [Res.bind_isPanic]
    rintro (hpanic | ⟨⟨a, stop⟩, hok, hpanic⟩)
    · exact hx.safe hpanic
    · exact (hf a stop hok).safe hpanic
  accepts := by
    intro b stop
    rw [Res.bind_eq_ok]
    constructor
    · rintro ⟨⟨a, mid⟩, hok, hb⟩
      obtain ⟨back, hback, hS, rfl⟩ := ((hf a mid hok).accepts b stop).mp hb
      obtain ⟨front, hfront, hR, rfl⟩ := (hx.accepts a mid).mp hok
      refine ⟨front ++ back, ?_, ⟨front, back, a, rfl, hR, hS⟩, ?_⟩
      · obtain ⟨rest, hrest⟩ := hfront
        rw [← List.drop_drop, ← hrest, List.drop_left] at hback
        rw [← hrest]
        exact (List.prefix_append_right_inj front).mpr hback
      · rw [List.length_append, Nat.add_assoc]
    · rintro ⟨_, hpiece, ⟨front, back, a, rfl, hR, hS⟩, rfl⟩
      have hfront := List.IsPrefix.trans (List.prefix_append front back) hpiece
      have hok := (hx.accepts a (pos + front.length)).mpr
        ⟨front, hfront, hR, rfl⟩
      refine ⟨(a, pos + front.length), hok, ?_⟩
      refine ((hf a _ hok).accepts b _).mpr ⟨back, ?_, hS, ?_⟩
      · obtain ⟨rest, hrest⟩ := hfront
        rw [← List.drop_drop, ← hrest, List.drop_left]
        rw [← hrest] at hpiece
        exact (List.prefix_append_right_inj front).mp hpiece
      · rw [List.length_append, Nat.add_assoc]

/-- A check before a decoder that fails only where the grammar does. -/
theorem guard {cond : Prop} [Decidable cond] {e : ε}
    (hcond : forall piece a, piece <+: buffer.drop pos -> R piece a -> ¬ cond)
    (hx : ¬ cond -> Recognizes buffer pos x R) :
    Recognizes buffer pos (if cond then Res.err e else x) R := by
  by_cases h : cond
  · rw [if_pos h]
    refine ⟨Res.err_not_isPanic e, fun a stop => ⟨fun hok => ?_, ?_⟩⟩
    · cases hok
    · rintro ⟨piece, hpiece, hR, _⟩
      exact absurd h (hcond piece a hpiece hR)
  · rw [if_neg h]
    exact hx h

theorem mapErr {ε' : Type} {f : ε -> ε'} (h : Recognizes buffer pos x R) :
    Recognizes buffer pos (x.mapErr f) R where
  safe := by
    rw [Res.mapErr_isPanic]
    exact h.safe
  accepts := by
    intro a stop
    rw [Res.mapErr_eq_ok]
    exact h.accepts a stop

end Recognizes

/-- Two pieces at a cursor are one after the other. -/
theorem prefix_drop_append {buffer front back : List UInt8} {pos : Nat} :
    front ++ back <+: buffer.drop pos <->
      front <+: buffer.drop pos ∧ back <+: buffer.drop (pos + front.length) := by
  rw [← List.drop_drop]
  constructor
  · intro h
    have hfront := (List.prefix_append front back).trans h
    rcases hfront with ⟨rest, hrest⟩
    rw [← hrest] at h
    rw [← hrest, List.drop_left]
    exact ⟨List.prefix_append front rest,
      (List.prefix_append_right_inj front).mp h⟩
  · intro h
    rcases h with ⟨⟨rest, hrest⟩, hback⟩
    rw [← hrest, List.drop_left] at hback
    rw [← hrest]
    exact (List.prefix_append_right_inj front).mpr hback

/-- What is at the cursor of a cut buffer. -/
theorem prefix_drop_take {buffer piece : List UInt8} {pos len : Nat}
    (hpos : pos ≤ len) :
    piece <+: (buffer.take len).drop pos <->
      piece <+: buffer.drop pos ∧ pos + piece.length ≤ len := by
  rw [List.drop_take, List.prefix_take_iff]
  constructor
  · rintro ⟨hpiece, hle⟩
    exact ⟨hpiece, by omega⟩
  · rintro ⟨hpiece, hle⟩
    exact ⟨hpiece, by omega⟩

end Lib
end Dbn
