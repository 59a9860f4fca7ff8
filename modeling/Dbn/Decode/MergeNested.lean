import Dbn.Decode.MergeDecoder
import Dbn.Decode.MergeOrder
import Dbn.Lib.MergeNested
import Dbn.Metadata.MergeRange

/-!
# Merging decoders that merge

A merging decoder is a decoder, and so it can be merged with others.  Merging
decoders of groups of decoders return, one after the other, what one merging
decoder of all of them returns.
-/

namespace Dbn
namespace Merge
namespace RecordDecoder

open Lib

variable {D Q R : Type} [DecodeRecordRef D R] [Record R]
  [PriorityQueue Q StreamHead]

/-- `last_record` looks at a decoder that is there unless there are none. -/
instance : DecodeRecordRef (RecordDecoder D Q) R where
  decodeRecordRef := RecordDecoder.decodeRecordRef
  lastRecord m :=
    match m.lastRecord with
    | .ret rec => rec
    | _ => none

omit [PriorityQueue Q StreamHead] in
/-- The hint is a lower bound for the first record of the decoder. -/
def HintFits (d : D) (ts : Nat) : Prop :=
  forall x d', DecodeRecordRef.decodeRecordRef d =
    .ret (Except.ok (some x), d') -> ts ≤ Record.rawIndexTs x

/-- A decoder that was made from others, with or without hints. -/
def Made (decoders : List D) (m : RecordDecoder D Q) : Prop :=
  new decoders = .ret (Except.ok m) ∨
    exists hints, withHints decoders hints = Except.ok m ∧
      forall (i : Nat) d ts, decoders[i]? = some d -> hints[i]? = some ts ->
        HintFits d ts

variable [LawfulPriorityQueue Q StreamHead] {decoders : List D}
  {streams : List (List R)} {m : RecordDecoder D Q}

/-- The streams that are left are those of the decoders. -/
theorem Made.remaining (h : Made decoders m)
    (hyields : List.Forall₂ (fun d s => Yields d s none) decoders streams) :
    exists heads, Remaining m heads (streamAt streams)
        (stopAt (decoders.map (fun _ => none))) ∧
      HintsBelow heads (streamAt streams) := by
  have hstreams := streams_of_yields hyields
  rcases h with hnew | ⟨hints, hnew, hfits⟩
  · have hne : decoders ≠ [] := by
      intro hnil
      rw [hnil] at hnew
      cases hnew
    rcases hstreams.new (Q := Q) hne with ⟨e, i, _, _, hstop⟩ |
      ⟨m', heads, hnew', hremaining, _, hheads⟩
    · rw [stopAt_none] at hstop
      cases hstop
    · rw [hnew] at hnew'
      cases hnew'
      exact ⟨heads, hremaining,
        fun i ts _ _ hhint _ => absurd hhint (hheads i ts)⟩
  · rcases withHints_eq_ok hnew with ⟨hne, hlen⟩
    rcases hstreams.withHints (Q := Q) hne hlen with
      ⟨m', hnew', hremaining, _⟩
    rw [hnew] at hnew'
    cases hnew'
    refine ⟨_, hremaining, ?_⟩
    intro i ts x tail hhint hrest
    rcases Option.map_eq_some_iff.mp hhint with ⟨ts', hts, heq⟩
    cases heq
    rcases List.getElem?_eq_some_iff.mp hts with ⟨hi, _⟩
    rw [hlen] at hi
    have hd := List.getElem?_eq_getElem hi
    have hyields := hstreams.2.2 i _ hd
    rw [hrest] at hyields
    cases hyields with
    | record call _ _ => exact hfits i _ _ hd hts x _ call

/-- The calls return the merge of the streams of the decoders. -/
theorem Made.returns (h : Made decoders m)
    (hyields : List.Forall₂ (fun d s => Yields d s none) decoders streams)
    {out : List (Nat × R)}
    (hmerges : Merges Record.rawIndexTs (streamAt streams) out) :
    Returns m out := by
  rcases h.remaining hyields with ⟨heads, hremaining, hbelow⟩
  exact hremaining.returns stopAt_none hbelow hmerges

/-- What is left is the stream of the merging decoder. -/
theorem Remaining.yields {heads : Nat -> Option IndexTs}
    {todo : Nat -> List R} {stops : Nat -> Option Error}
    {out : List (Nat × R)} (h : Remaining m heads todo stops)
    (hstops : forall i, stops i = none) (hbelow : HintsBelow heads todo)
    (hmerges : Merges Record.rawIndexTs todo out) :
    Yields m (out.map Prod.snd) none := by
  induction out generalizing m heads todo with
  | nil =>
      rcases h.decodeRecordRef with
        ⟨res, m', heads', todo', hcall, hresolves, _, hanswers⟩
      rcases hanswers.merges hstops hbelow hresolves hmerges with ⟨hnext, _⟩
      have hres : res = Except.ok none := hnext.1
      rw [hres] at hcall
      exact Yields.done hcall
  | cons e out ih =>
      rcases h.decodeRecordRef with
        ⟨res, m', heads', todo', hcall, hresolves, hremaining, hanswers⟩
      rcases hanswers.merges hstops hbelow hresolves hmerges with
        ⟨hnext, hbelow', hmerges'⟩
      have hres : res = Except.ok (some e.2) := hnext.1
      have hlast : m'.lastRecord = .ret (some e.2) := hnext.2.2
      rw [hres] at hcall
      refine Yields.record hcall ?_ (ih hremaining hbelow' hmerges')
      show (match m'.lastRecord with
        | .ret rec => rec
        | _ => none) = some e.2
      rw [hlast]

theorem Made.yields (h : Made decoders m)
    (hyields : List.Forall₂ (fun d s => Yields d s none) decoders streams)
    {out : List (Nat × R)}
    (hmerges : Merges Record.rawIndexTs (streamAt streams) out) :
    Yields m (out.map Prod.snd) none := by
  rcases h.remaining hyields with ⟨heads, hremaining, hbelow⟩
  exact hremaining.yields stopAt_none hbelow hmerges

/-!
## The merge of all streams
-/

omit [LawfulPriorityQueue Q StreamHead] in
/-- Calls that return the same records. -/
theorem Returns.results_eq {D' : Type} [DecodeRecordRef D' R]
    {m' : RecordDecoder D' Q} {out out' : List (Nat × R)}
    (h : Returns m out) (h' : Returns m' out')
    (hout : out.map Prod.snd = out'.map Prod.snd) (n : Nat) :
    exists cs cs', m.calls n = .ret cs ∧ m'.calls n = .ret cs' ∧
      cs.map Prod.fst = cs'.map Prod.fst := by
  rcases h n with ⟨cs, hcalls, hlen, hall⟩
  rcases h' n with ⟨cs', hcalls', hlen', hall'⟩
  refine ⟨cs, cs', hcalls, hcalls', ?_⟩
  apply List.ext_getElem
  · rw [List.length_map, List.length_map, hlen, hlen']
  · intro k hk hk'
    rw [List.length_map] at hk hk'
    rw [List.getElem_map, List.getElem_map]
    have hnext := hall k _ (List.getElem?_eq_getElem hk)
    have hnext' := hall' k _ (List.getElem?_eq_getElem hk')
    have hsame : out[k]?.map Prod.snd = out'[k]?.map Prod.snd := by
      rw [← List.getElem?_map, ← List.getElem?_map, hout]
    cases hk : out[k]? with
    | none =>
        rw [hk] at hnext hsame
        rw [Option.map_eq_none_iff.mp hsame.symm] at hnext'
        exact hnext.1.trans hnext'.1.symm
    | some e =>
        rw [hk] at hnext hsame
        rcases Option.map_eq_some_iff.mp hsame.symm with ⟨e', he', heq⟩
        rw [he'] at hnext'
        have hres : cs[k].1 = Except.ok (some e.2) := hnext.1
        have hres' : cs'[k].1 = Except.ok (some e'.2) := hnext'.1
        rw [hres, hres', heq]

/-- The streams of a group; behind the last group there are none. -/
def groupAt (groups : List (List (List R))) (g : Nat) : Nat -> List R :=
  streamAt (groups.getD g [])

/-- The places of the streams of groups. -/
def places (groups : List (List (List R))) : Set (Lex (Nat × Nat)) :=
  {p | exists group, groups[(ofLex p).1]? = some group ∧
    (ofLex p).2 < group.length}

/-- Where a stream of a group is among all of them. -/
def flatPlace (groups : List (List (List R))) (p : Lex (Nat × Nat)) : Nat :=
  offsetOf groups (ofLex p).1 + (ofLex p).2

omit [DecodeRecordRef D R] [Record R] in
theorem groupAt_eq {groups : List (List (List R))} {g : Nat}
    {group : List (List R)} (h : groups[g]? = some group) :
    groupAt groups g = streamAt group := by
  unfold groupAt
  rw [List.getD_eq_getElem?_getD, h]
  rfl

omit [DecodeRecordRef D R] [Record R] in
theorem strictMonoOn_flatPlace (groups : List (List (List R))) :
    StrictMonoOn (flatPlace groups) (places groups) := by
  intro p hp p' _ hlt
  rcases hp with ⟨group, hgroup, hj⟩
  rcases List.getElem?_eq_some_iff.mp hgroup with ⟨hg, rfl⟩
  unfold flatPlace
  rcases Prod.Lex.lt_iff.mp hlt with hlt' | ⟨heq, hlt'⟩
  · have hnext := offsetOf_succ hg
    have hmono := offsetOf_mono groups (Nat.succ_le_of_lt hlt')
    rw [Nat.succ_eq_add_one] at hmono
    omega
  · rw [heq]
    exact Nat.add_lt_add_left hlt' _

/-- The merge of groups is, apart from the names, that of all streams. -/
theorem merges_flatten {groups : List (List (List R))}
    {out : List (Lex (Nat × Nat) × R)}
    (h : Merges Record.rawIndexTs (Merges.ungroup (groupAt groups)) out) :
    Merges Record.rawIndexTs (streamAt groups.flatten)
      (out.map (fun e => (flatPlace groups e.1, e.2))) := by
  have hplace : forall p group, groups[(ofLex p).1]? = some group ->
      (ofLex p).2 < group.length ->
      streamAt groups.flatten (flatPlace groups p) =
        Merges.ungroup (groupAt groups) p := by
    intro p group hgroup hj
    unfold Merges.ungroup flatPlace
    rw [groupAt_eq hgroup]
    unfold streamAt
    rw [List.getD_eq_getElem?_getD, List.getD_eq_getElem?_getD,
      getElem?_flatten hgroup hj]
  apply h.relabel (strictMonoOn_flatPlace groups)
  · intro p hp
    rcases hp with ⟨group, hgroup, hj⟩
    exact hplace p group hgroup hj
  · intro p hp
    unfold Merges.ungroup groupAt streamAt at hp
    cases hgroup : groups[(ofLex p).1]? with
    | none =>
        rw [List.getD_eq_getElem?_getD, List.getD_eq_getElem?_getD, hgroup]
          at hp
        exact absurd rfl hp
    | some group =>
        refine ⟨group, hgroup, ?_⟩
        by_contra hj
        rw [List.getD_eq_getElem?_getD, List.getD_eq_getElem?_getD, hgroup,
          Option.getD_some, List.getElem?_eq_none (Nat.not_lt.mp hj)] at hp
        exact hp rfl
  · intro k hk
    have hlt : k < groups.flatten.length := by
      by_contra hge
      exact hk (streamAt_of_ge (Nat.not_lt.mp hge))
    rcases exists_offsetOf hlt with ⟨g, j, group, hgroup, hj, heq⟩
    exact ⟨toLex (g, j), ⟨group, hgroup, hj⟩, heq⟩

/-- Every group has a merge, and these have one. -/
theorem exists_nested (groups : List (List (List R))) :
    exists (merged : Nat -> List (Nat × R)) (out : List (Nat × Nat × R)),
      (forall g, Merges Record.rawIndexTs (groupAt groups g) (merged g)) ∧
      Merges (fun e => Record.rawIndexTs e.2) merged out := by
  have hgroups : forall g, exists out,
      Merges Record.rawIndexTs (groupAt groups g) out :=
    fun g => exists_merge_streamAt (groups.getD g [])
  choose merged hmerged using hgroups
  have hends : forall g, g ∉ Finset.range groups.length ->
      merged g = [] := by
    intro g hg
    rw [Finset.mem_range, Nat.not_lt] at hg
    apply (hmerged g).eq_nil
    intro j
    unfold groupAt streamAt
    rw [List.getD_eq_getElem?_getD, List.getD_eq_getElem?_getD,
      List.getElem?_eq_none hg]
    rfl
  rcases Merges.exists_merge (fun e : Nat × R => Record.rawIndexTs e.2)
    (Finset.range groups.length) hends with ⟨out, hout⟩
  exact ⟨merged, out, hmerged, hout⟩

omit [PriorityQueue Q StreamHead] [LawfulPriorityQueue Q StreamHead]
  [Record R] in
/-- Decoders that do not fail have streams. -/
theorem exists_streams {groups : List (List D)}
    (h : forall group, group ∈ groups -> forall d, d ∈ group ->
      exists s, Yields d s none) :
    exists streams, List.Forall₂ (List.Forall₂ (fun d s => Yields d s none))
      groups streams := by
  induction groups with
  | nil => exact ⟨[], List.Forall₂.nil⟩
  | cons group groups ih =>
      rw [List.forall_mem_cons] at h
      rcases ih h.2 with ⟨streams, hstreams⟩
      have hgroup : exists ss, List.Forall₂ (fun d s => Yields d s none)
          group ss := by
        have hall := h.1
        clear h
        induction group with
        | nil => exact ⟨[], List.Forall₂.nil⟩
        | cons d ds ih =>
            rw [List.forall_mem_cons] at hall
            rcases hall.1 with ⟨s, hs⟩
            rcases ih hall.2 with ⟨ss, hss⟩
            exact ⟨s :: ss, List.Forall₂.cons hs hss⟩
      rcases hgroup with ⟨ss, hss⟩
      exact ⟨ss :: streams, List.Forall₂.cons hss hstreams⟩

/-- The streams of the merging decoders of groups are their merges. -/
theorem yields_merged {groups : List (List D)}
    {streams : List (List (List R))}
    (hyields : List.Forall₂ (List.Forall₂ (fun d s => Yields d s none))
      groups streams) {inner : List (RecordDecoder D Q)}
    (hinner : List.Forall₂ Made groups inner)
    {merged : Nat -> List (Nat × R)}
    (hmerged : forall g, Merges Record.rawIndexTs (groupAt streams g)
      (merged g)) :
    List.Forall₂ (fun m s => Yields m s none) inner
      ((List.range groups.length).map (fun g =>
        (merged g).map Prod.snd)) := by
  rw [List.forall₂_iff_get]
  have hlen := hinner.length_eq
  refine ⟨by rw [List.length_map, List.length_range, hlen], ?_⟩
  intro g hg hg'
  rw [← hlen] at hg
  have hg2 := hg
  rw [hyields.length_eq] at hg2
  have hgroup := (List.forall₂_iff_get.mp hyields).2 g hg hg2
  have hmade := (List.forall₂_iff_get.mp hinner).2 g hg (by
    rw [← hlen]
    exact hg)
  have hmerges := hmerged g
  rw [groupAt_eq (List.getElem?_eq_getElem hg2)] at hmerges
  rw [List.get_eq_getElem, List.get_eq_getElem, List.getElem_map,
    List.getElem_range]
  exact hmade.yields hgroup hmerges

/-- The merge of decoders that yield the merges of groups. -/
theorem nested_results {D' : Type} [DecodeRecordRef D' R]
    {groups : List (List D)} {streams : List (List (List R))}
    (hyields : List.Forall₂ (List.Forall₂ (fun d s => Yields d s none))
      groups streams)
    {merged : Nat -> List (Nat × R)} {out : List (Nat × Nat × R)}
    (hmerged : forall g, Merges Record.rawIndexTs (groupAt streams g)
      (merged g))
    (hout : Merges (fun e => Record.rawIndexTs e.2) merged out)
    {inner : List D'}
    (hinner : List.Forall₂ (fun m s => Yields m s none) inner
      ((List.range groups.length).map (fun g =>
        (merged g).map Prod.snd)))
    {outer : RecordDecoder D' Q} (houter : Made inner outer)
    {flat : RecordDecoder D Q} (hflat : Made groups.flatten flat) (n : Nat) :
    exists cs cs', outer.calls n = .ret cs ∧ flat.calls n = .ret cs' ∧
      cs.map Prod.fst = cs'.map Prod.fst := by
  have hends : forall g, groups.length ≤ g -> merged g = [] := by
    intro g hg
    apply (hmerged g).eq_nil
    intro j
    rw [hyields.length_eq] at hg
    unfold groupAt streamAt
    rw [List.getD_eq_getElem?_getD, List.getD_eq_getElem?_getD,
      List.getElem?_eq_none hg]
    rfl
  have hfamily : streamAt ((List.range groups.length).map (fun g =>
      (merged g).map Prod.snd)) = fun g => (merged g).map Prod.snd := by
    funext g
    unfold streamAt
    rw [List.getD_eq_getElem?_getD, List.getElem?_map]
    by_cases hg : g < groups.length
    · rw [List.getElem?_range hg]
      rfl
    · rw [List.getElem?_eq_none (by rw [List.length_range]; omega),
        hends g (Nat.not_lt.mp hg)]
      rfl
  have houterReturns : Returns outer (out.map (fun e => (e.1, e.2.2))) := by
    apply houter.returns hinner
    rw [hfamily]
    exact hout.map
  have hflatReturns := hflat.returns (List.rel_flatten hyields)
    (merges_flatten (Merges.ungroup_merges hmerged hout))
  apply houterReturns.results_eq hflatReturns
  rw [List.map_map, List.map_map, List.map_map]
  rfl

/--
For decoders that do not fail, in any groups, a merging decoder of merging
decoders of the groups returns what a merging decoder of all of them returns,
however the merging decoders were made.
-/
theorem nested_calls {groups : List (List D)}
    (hyields : forall group, group ∈ groups -> forall d, d ∈ group ->
      exists s, Yields d s none)
    {inner : List (RecordDecoder D Q)}
    (hinner : List.Forall₂ Made groups inner)
    {outer : RecordDecoder (RecordDecoder D Q) Q} (houter : Made inner outer)
    {flat : RecordDecoder D Q} (hflat : Made groups.flatten flat) (n : Nat) :
    exists cs cs', outer.calls n = .ret cs ∧ flat.calls n = .ret cs' ∧
      cs.map Prod.fst = cs'.map Prod.fst := by
  rcases exists_streams hyields with ⟨streams, hstreams⟩
  rcases exists_nested streams with ⟨merged, out, hmerged, hout⟩
  exact nested_results hstreams hmerged hout
    (yields_merged hstreams hinner hmerged) houter hflat n

end RecordDecoder

/-!
## Decoders with metadata
-/

namespace Decoder

open Lib RecordDecoder

variable {F D Q R : Type} [DecodeRecordRef F R] [Record R]
  [PriorityQueue Q StreamHead] [LinearOrder D] [DebugText D] [DebugText Str]
  [HashOrder]

omit [Record R] [LinearOrder D] [DebugText D] [DebugText Str]
  [HashOrder] in
theorem yields_withMetadata {decoder : F} {s : List R} {stop : Option Error}
    (h : Yields decoder s stop) (metadata : Metadata D) :
    Yields (⟨metadata, decoder⟩ : WithMetadata F D) s stop := by
  have hcall : forall {d d' : F} {res : Except Error (Option R)},
      DecodeRecordRef.decodeRecordRef d = .ret (res, d') ->
      DecodeRecordRef.decodeRecordRef (⟨metadata, d⟩ : WithMetadata F D) =
        .ret (res, ⟨metadata, d'⟩) := by
    intro d d' res h
    show (DecodeRecordRef.decodeRecordRef d >>= _) = _
    rw [h]
    rfl
  induction h with
  | done call => exact Yields.done (hcall call)
  | fail call => exact Yields.fail (hcall call)
  | record call last _ ih => exact Yields.record (hcall call) last ih

/-- The start of the metadata is not after the first record. -/
def StartFits (d : WithMetadata F D) : Prop :=
  HintFits d d.metadata.start.toNat

omit [DecodeRecordRef F R] [Record R] in
theorem new_eq_ok {decoders : List (WithMetadata F D)}
    {m : WithMetadata (RecordDecoder (WithMetadata F D) Q) D}
    (h : new decoders = Except.ok m) :
    withHints decoders (decoders.map (fun d => d.metadata.start.toNat)) =
        Except.ok m.decoder ∧
      forall d, d ∈ decoders ->
        m.metadata.start.toNat ≤ d.metadata.start.toNat := by
  unfold new at h
  cases decoders with
  | nil => cases h
  | cons first rest =>
      dsimp only at h
      cases hmerge : first.metadata.merge
        (rest.map WithMetadata.metadata) with
      | error e =>
          rw [hmerge] at h
          cases h
      | ok metadata =>
          rw [hmerge] at h
          cases hhints : (withHints (first :: rest)
            ((first :: rest).map (fun d => d.metadata.start.toNat)) :
              Except Error (RecordDecoder (WithMetadata F D) Q)) with
          | error e =>
              rw [hhints] at h
              cases h
          | ok decoder =>
              rw [hhints] at h
              cases h
              refine ⟨rfl, ?_⟩
              intro d hd
              apply (MetadataMerger.spans_merge hmerge).start_le
              rw [← List.map_cons]
              exact List.mem_map_of_mem hd

theorem made_of_new {decoders : List (WithMetadata F D)}
    {m : WithMetadata (RecordDecoder (WithMetadata F D) Q) D}
    (h : new decoders = Except.ok m)
    (hfits : forall d, d ∈ decoders -> StartFits d) :
    Made decoders m.decoder := by
  refine Or.inr ⟨_, (new_eq_ok h).1, ?_⟩
  intro i d ts hd hts
  rw [List.getElem?_map, hd] at hts
  cases hts
  exact hfits d (List.mem_of_getElem? hd)

omit [Record R] [DebugText Str] [HashOrder] in
theorem exists_of_yields {d d' : F} {s : List R} {stop : Option Error} {x : R}
    (h : Yields d s stop) (call : DecodeRecordRef.decodeRecordRef d =
      .ret (Except.ok (some x), d')) : exists rest, s = x :: rest := by
  cases h with
  | done call' =>
      rw [call] at call'
      cases call'
  | fail call' =>
      rw [call] at call'
      cases call'
  | record call' _ _ =>
      rw [call] at call'
      cases call'
      exact ⟨_, rfl⟩

variable [LawfulPriorityQueue Q StreamHead]

/-- The start of merged metadata is not after the first merged record. -/
theorem startFits_of_new {decoders : List (WithMetadata F D)}
    {m : WithMetadata (RecordDecoder (WithMetadata F D) Q) D}
    {streams : List (List R)}
    (hyields : List.Forall₂ (fun d s => Yields d s none) decoders streams)
    (h : new decoders = Except.ok m)
    (hfits : forall d, d ∈ decoders -> StartFits d) : StartFits m := by
  intro x m' hcall
  rcases exists_merge_streamAt streams with ⟨out, hmerges⟩
  have hstream : Yields m (out.map Prod.snd) none :=
    yields_withMetadata ((made_of_new h hfits).yields hyields hmerges)
      m.metadata
  rcases exists_of_yields hstream hcall with ⟨rest, hrest⟩
  rcases List.map_eq_cons_iff.mp hrest with ⟨e, out', rfl, rfl, _⟩
  cases hmerges with
  | @pick _ i x tail _ head _ _ =>
      have hi : i < streams.length := by
        by_contra hge
        rw [streamAt_of_ge (Nat.not_lt.mp hge)] at head
        cases head
      unfold streamAt at head
      rw [List.getD_eq_getElem?_getD, List.getElem?_eq_getElem hi] at head
      have hi' := hi
      rw [← hyields.length_eq] at hi'
      have hdecoder := (List.forall₂_iff_get.mp hyields).2 i hi' hi
      rw [List.get_eq_getElem, List.get_eq_getElem,
        show streams[i] = x :: tail from head] at hdecoder
      have hmem := List.getElem_mem hi'
      cases hdecoder with
      | record call _ _ =>
          exact Nat.le_trans ((new_eq_ok h).2 _ hmem)
            (hfits _ hmem _ _ call)

/--
Merging decoders with metadata may be merged again: they return what one
merging decoder of all the decoders returns.  The starts of the streams, and
those of the merged metadata, are the hints, so no stream may start with a
record before its start.
-/
theorem nested_records {groups : List (List (WithMetadata F D))}
    (hyields : forall group, group ∈ groups -> forall d, d ∈ group ->
      StartFits d ∧ exists s, Yields d s none)
    {inner : List (WithMetadata (RecordDecoder (WithMetadata F D) Q) D)}
    (hinner : List.Forall₂ (fun group m => new group = Except.ok m) groups
      inner)
    {outer : WithMetadata (RecordDecoder (WithMetadata
      (RecordDecoder (WithMetadata F D) Q) D) Q) D}
    (houter : new inner = Except.ok outer)
    {flat : WithMetadata (RecordDecoder (WithMetadata F D) Q) D}
    (hflat : new groups.flatten = Except.ok flat) (n : Nat) :
    exists cs cs', outer.decoder.calls n = .ret cs ∧
      flat.decoder.calls n = .ret cs' ∧
      cs.map Prod.fst = cs'.map Prod.fst := by
  rcases exists_streams (fun group hgroup d hd =>
    (hyields group hgroup d hd).2) with ⟨streams, hstreams⟩
  rcases exists_nested streams with ⟨merged, out, hmerged, hout⟩
  have hfits : forall g (hg : g < groups.length), forall d,
      d ∈ groups[g] -> StartFits d :=
    fun g hg d hd => (hyields _ (List.getElem_mem hg) d hd).1
  have hlen := hinner.length_eq
  have hnew := (List.forall₂_iff_get.mp hinner).2
  have hmade : List.Forall₂ Made groups
      (inner.map WithMetadata.decoder) := by
    rw [List.forall₂_map_right_iff, List.forall₂_iff_get]
    refine ⟨hlen, ?_⟩
    intro g hg hg'
    exact made_of_new (hnew g hg hg') (hfits g hg)
  have hmergedYields := List.forall₂_map_left_iff.mp
    (yields_merged hstreams hmade hmerged)
  have hinnerYields := hmergedYields.imp
    (fun m _ h => yields_withMetadata h m.metadata)
  have houterMade : Made inner outer.decoder := by
    apply made_of_new houter
    intro m hm
    rcases List.getElem_of_mem hm with ⟨g, hg', rfl⟩
    have hg : g < groups.length := by
      rw [hlen]
      exact hg'
    have hg2 := hg
    rw [hstreams.length_eq] at hg2
    exact startFits_of_new ((List.forall₂_iff_get.mp hstreams).2 g hg hg2)
      (hnew g hg hg') (hfits g hg)
  have hflatMade : Made groups.flatten flat.decoder := by
    apply made_of_new hflat
    intro d hd
    rcases List.mem_flatten.mp hd with ⟨group, hgroup, hd⟩
    exact (hyields group hgroup d hd).1
  exact nested_results hstreams hmerged hout hinnerYields houterMade
    hflatMade n

end Decoder

namespace Decoder

open Lib RecordDecoder

/-- A decoder of a list yields the list. -/
theorem yields_vecStream {R : Type} (vec : List R) (next : Nat) :
    Yields (⟨vec, next⟩ : VecStream R) (vec.drop next) none := by
  have hcall : DecodeRecordRef.decodeRecordRef (⟨vec, next⟩ : VecStream R) =
      .ret (Except.ok vec[next]?, ⟨vec, next + 1⟩) := rfl
  induction h : vec.drop next generalizing next with
  | nil =>
      rw [← List.head?_drop, h, List.head?_nil] at hcall
      exact Yields.done hcall
  | cons x rest ih =>
      have hsome : vec[next]? = some x := by
        rw [← List.head?_drop, h, List.head?_cons]
      have htail : vec.drop (next + 1) = rest := by
        rw [← List.tail_drop, h, List.tail_cons]
      rw [hsome] at hcall
      exact Yields.record hcall hsome (ih (next + 1) rfl htail)

/-- A decoder of ticks whose metadata starts at the epoch. -/
def tickDecoder (ticks : List Tick) :
    WithMetadata (VecStream Tick) GregorianDate :=
  ⟨MetadataMerger.endedMetadata, ⟨ticks, 0⟩⟩

theorem tickDecoder_fits (ticks : List Tick) :
    StartFits (tickDecoder ticks) ∧
      exists s, Yields (tickDecoder ticks) s none :=
  ⟨fun _ _ _ => Nat.zero_le _, ticks,
    yields_withMetadata (yields_vecStream ticks 0) _⟩

/-- A merging decoder of decoders with dates. -/
abbrev Merged (F : Type) : Type :=
  WithMetadata (RecordDecoder (WithMetadata F GregorianDate)
    (SortedQueue StreamHead)) GregorianDate

theorem nested_records_ticks :
    exists (m m' flat : Merged (VecStream Tick))
        (outer : Merged (RecordDecoder (WithMetadata (VecStream Tick)
          GregorianDate) (SortedQueue StreamHead))),
      new [tickDecoder [⟨10, 0⟩, ⟨12, 1⟩], tickDecoder [⟨11, 2⟩]] =
        Except.ok m ∧
      new [tickDecoder [⟨10, 3⟩]] = Except.ok m' ∧
      new [m, m'] = Except.ok outer ∧
      new [tickDecoder [⟨10, 0⟩, ⟨12, 1⟩], tickDecoder [⟨11, 2⟩],
        tickDecoder [⟨10, 3⟩]] = Except.ok flat ∧
      forall n, exists cs cs', outer.decoder.calls n = .ret cs ∧
        flat.decoder.calls n = .ret cs' ∧
        cs.map Prod.fst = cs'.map Prod.fst := by
  refine ⟨_, _, _, _, rfl, rfl, rfl, rfl, ?_⟩
  intro n
  have hinner : List.Forall₂
      (fun group (m : Merged (VecStream Tick)) => new group = Except.ok m)
      [[tickDecoder [⟨10, 0⟩, ⟨12, 1⟩], tickDecoder [⟨11, 2⟩]],
        [tickDecoder [⟨10, 3⟩]]] [_, _] := .cons rfl (.cons rfl .nil)
  apply nested_records _ hinner rfl rfl
  intro group hgroup d hd
  rcases List.mem_pair.mp hgroup with rfl | rfl
  · rcases List.mem_pair.mp hd with rfl | rfl
    · exact tickDecoder_fits _
    · exact tickDecoder_fits _
  · rw [List.mem_singleton.mp hd]
    exact tickDecoder_fits _

end Decoder
end Merge
end Dbn
