import Dbn.Decode.Futures

/-!
# Abandoned calls that decode metadata

At every await point the machine holds a part of the stream that does not
decide the result.  A call that starts there reads before it asks the machine,
and then is where the abandoned call would have been.
-/

namespace Dbn
namespace DbnFsm

open Lib Async

variable {B D : Type} [Buffer B] [CalendarDate D]

section Waiting

variable (policy : VersionUpgradePolicy) (stream : List UInt8)

/-- With fewer than `n` more bytes the prelude or the block is incomplete. -/
def IsShortOf (fed : List UInt8) (n : Nat) : Prop :=
  fed.length + n ≤ metadataPreludeLen ∨
    exists version length, AcceptsPrelude policy fed version length ∧
      fed.length + n ≤ metadataPreludeLen + length

/-- Before a call, and between calls that were abandoned. -/
def BetweenCalls (s : ShortReader × DbnFsm B) : Prop :=
  exists fed, Reading policy stream s.1 s.2 fed ∧ Incomplete policy fed

def WaitsForMetadata (point : MetadataAwait) (s : ShortReader × DbnFsm B) :
    Prop :=
  match point with
  | .first => BetweenCalls policy stream s
  | .more n totalRead =>
      exists fed, Reading policy stream s.1 s.2 fed ∧ totalRead < n ∧
        n - totalRead ≤ s.2.spaceLen ∧ IsShortOf policy fed (n - totalRead)

/-- The bytes that are left, and the read that may return none of them. -/
def leftToRead (point : MetadataAwait) (s : ShortReader × DbnFsm B) : Nat :=
  match point with
  | .first => s.1.rest.length + 1
  | .more _ _ => s.1.rest.length

end Waiting

variable {policy : VersionUpgradePolicy} {stream fed : List UInt8}
  {r : ShortReader} {fsm : DbnFsm B} {n : Nat}

theorem IsShortOf.incomplete (h : IsShortOf policy fed n) (hn : 0 < n) :
    Incomplete policy fed := by
  rcases h with hshort | ⟨version, length, haccept, hshort⟩
  · exact Or.inl (by omega)
  · exact Or.inr ⟨version, length, haccept, by omega⟩

theorem IsShortOf.append {more : List UInt8} {k : Nat} (h : IsShortOf policy fed n)
    (hmore : more.length + k ≤ n) : IsShortOf policy (fed ++ more) k := by
  rcases h with hshort | ⟨version, length, haccept, hshort⟩
  · left
    rw [List.length_append]
    omega
  · right
    refine ⟨version, length, (acceptsPrelude_append haccept.room).mpr haccept,
      ?_⟩
    rw [List.length_append]
    omega

/-- Incomplete metadata at the end of the stream. -/
theorem incomplete_of_rest_nil (h : Reading policy stream r fsm fed)
    (hrest : r.rest = []) (hfed : Incomplete policy fed) :
    Incomplete policy stream := by
  rw [← h.stream_eq, hrest, List.append_nil]
  exact hfed

/-- An await point is a state between calls when the call is abandoned. -/
theorem WaitsForMetadata.betweenCalls {point : MetadataAwait}
    {s : ShortReader × DbnFsm B} (h : WaitsForMetadata policy stream point s) :
    BetweenCalls policy stream s := by
  cases point with
  | first => exact h
  | more n totalRead =>
      rcases h with ⟨fed, hreading, hlt, _, hshort⟩
      exact ⟨fed, hreading, hshort.incomplete (Nat.sub_pos_of_lt hlt)⟩

variable [LawfulBuffer B]

/-- What decides the result of the calls on a stream. -/
structure DecidesMetadata (policy : VersionUpgradePolicy)
    (stream : List UInt8)
    (post : Except Error (Metadata D) -> ShortReader × DbnFsm B -> Prop) :
    Prop where
  final : forall r fsm fed, Reading policy stream r fsm fed ->
    ¬ Incomplete policy fed ->
      exists a s, processMetadata (D := D) r fsm = .ret (.ready a s) ∧
        post a s
  ended : Incomplete policy stream -> forall s,
    post (Except.error (MetadataDecoder.ioErr .unexpectedEof)) s

section Calls

variable
  {post : Except Error (Metadata D) -> ShortReader × DbnFsm B -> Prop}

theorem DecidesMetadata.processMetadata
    (h : DecidesMetadata policy stream post)
    (hreading : Reading policy stream r fsm fed) :
    (exists a s, processMetadata (D := D) r fsm = .ret (.ready a s) ∧
      post a s) ∨
    (exists n s, processMetadata (D := D) r fsm =
        .ret (.pending (.more n 0) s) ∧
      WaitsForMetadata policy stream (.more n 0) s ∧
      s.1 = r) := by
  rcases hreading.process_cases (D := D) with
    ⟨_, n, fsm', hret, hasks⟩ | ⟨hcomplete, _, _⟩
  · right
    refine ⟨n, (r, fsm'), ?_, ⟨fed, hasks.reading, hasks.pos, ?_, ?_⟩, rfl⟩
    · unfold Async.processMetadata
      rw [hret]
    · exact le_trans (Nat.sub_le n 0) hasks.room
    · rw [Nat.sub_zero]
      rcases hasks.target with ⟨_, htarget⟩ | ⟨v, l, _, haccept, htarget⟩
      · exact Or.inl (le_of_eq htarget)
      · exact Or.inr ⟨v, l, haccept, le_of_eq htarget⟩
  · exact Or.inl (h.final r fsm fed hreading hcomplete)

omit [LawfulBuffer B] in
/-- The read of an await point. -/
theorem resumeMetadata_eq (point : MetadataAwait) :
    resumeMetadata (D := D) point (r, fsm) =
      match point with
      | .first =>
          Async.processMetadata (r.advance (r.amount fsm.spaceLen))
            (afterRead r fsm)
      | .more n totalRead =>
          if r.amount fsm.spaceLen = 0 then
            .ret (.ready
              (Except.error (MetadataDecoder.ioErr .unexpectedEof))
              (r.advance (r.amount fsm.spaceLen),
                fsm.writeSpace (r.rest.take (r.amount fsm.spaceLen))))
          else if totalRead + r.amount fsm.spaceLen ≥ n then
            Async.processMetadata (r.advance (r.amount fsm.spaceLen))
              (afterRead r fsm)
          else
            .ret (.pending (.more n (totalRead + r.amount fsm.spaceLen))
              (r.advance (r.amount fsm.spaceLen), afterRead r fsm)) := by
  unfold resumeMetadata
  rw [readSpace_shortReader]
  cases point <;> rfl

theorem length_rest_advance (r : ShortReader) (space : Nat) :
    (r.advance (r.amount space)).rest.length =
      r.rest.length - r.amount space := by
  rw [ShortReader.rest_advance, List.length_drop]

/-- Every await point is followed by another one or by the result. -/
theorem DecidesMetadata.progresses
    (h : DecidesMetadata policy stream post) :
    (decodeMetadataFn ShortReader B D).Progresses
      (WaitsForMetadata policy stream) post leftToRead := by
  rintro point ⟨r, fsm⟩ hwait
  show (exists a s', resumeMetadata point (r, fsm) = _ ∧ _) ∨
    (exists f s', resumeMetadata point (r, fsm) = _ ∧ _)
  rw [resumeMetadata_eq]
  have hle := r.amount_le_rest fsm.spaceLen
  have hlength := length_rest_advance r fsm.spaceLen
  cases point with
  | first =>
      rcases hwait with ⟨fed, hreading, _⟩
      rcases h.processMetadata hreading.read with
        hready | ⟨n, s, hpending, hwait, hs⟩
      · exact Or.inl hready
      · refine Or.inr ⟨_, s, hpending, hwait, ?_⟩
        unfold leftToRead
        dsimp only
        rw [hs, hlength]
        omega
  | more n totalRead =>
      rcases hwait with ⟨fed, hreading, hlt, hroom, hshort⟩
      have hread := hreading.read
      dsimp only at hreading hroom ⊢
      by_cases hzero : r.amount fsm.spaceLen = 0
      · -- the stream has ended
        rw [if_pos hzero]
        left
        refine ⟨_, _, rfl, h.ended ?_ _⟩
        rcases ShortReader.amount_eq_zero.mp hzero with hspace | hrest
        · omega
        · exact incomplete_of_rest_nil hreading hrest
            (hshort.incomplete (Nat.sub_pos_of_lt hlt))
      rw [if_neg hzero]
      by_cases henough : totalRead + r.amount fsm.spaceLen ≥ n
      · rw [if_pos henough]
        rcases h.processMetadata hread with
          hready | ⟨k, s, hpending, hwait, hs⟩
        · exact Or.inl hready
        · refine Or.inr ⟨_, s, hpending, hwait, ?_⟩
          unfold leftToRead
          dsimp only
          rw [hs, hlength]
          omega
      · rw [if_neg henough]
        right
        have hspace := le_spaceLen_afterRead r fsm
        refine ⟨_, _, rfl, ⟨fed ++ r.rest.take (r.amount fsm.spaceLen), hread,
          by omega, ?_, hshort.append ?_⟩, ?_⟩
        · dsimp only
          omega
        · rw [ShortReader.length_take_amount]
          omega
        · unfold leftToRead
          dsimp only
          rw [hlength]
          omega

/-- A call between abandoned calls. -/
theorem DecidesMetadata.meets (h : DecidesMetadata policy stream post)
    {s : ShortReader × DbnFsm B} (hs : BetweenCalls policy stream s) :
    (decodeMetadataFn ShortReader B D).Meets s
      (WaitsForMetadata policy stream) post :=
  h.progresses.meets (Or.inr ⟨.first, s, rfl, hs⟩)

end Calls
end DbnFsm
end Dbn
