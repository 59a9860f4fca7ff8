import Dbn.Python.DbnDecoder

/-!
# Runs of the decoder of the Python package

However a stream is written and whenever it is decoded, the lists that are
returned are the items of the stream one after the other; a call that fails
loses those that it had taken.
-/

namespace Dbn

open Lib

namespace ValidStream

variable {D : Type} [CalendarDate D] {policy : VersionUpgradePolicy}

/-- In front of the records is the metadata. -/
theorem lead_le_of_record (s : ValidStream D policy) {k : Nat}
    {bytes : List UInt8} (h : s.items[k]? = some (.record bytes)) :
    s.lead ≤ k := by
  by_contra hlt
  have hk : k < (s.metadata.toList.map (fun m =>
      Item.metadata (m.upgrade policy))).length := by
    rw [List.length_map]
    exact Nat.not_le.mp hlt
  unfold items at h
  rw [List.getElem?_append_left hk, List.getElem?_map] at h
  rcases Option.map_eq_some_iff.mp h with ⟨m, _, heq⟩
  cases heq

theorem Holding.tsOut_of_lead_le {B : Type} [Buffer B]
    {s : ValidStream D policy} {n k : Nat} {fsm : DbnFsm B}
    (h : s.Holding n k fsm) (hk : s.lead ≤ k) : fsm.tsOut = s.tsOut := by
  cases h with
  | metadata hm le holds =>
      rw [(s.head_of_some hm).2] at hk
      cases hk
  | records hj start le inRecords => exact inRecords.tsOut

end ValidStream

namespace DBNDecoder

variable {B D : Type} [Buffer B] [CalendarDate D]
  {policy : VersionUpgradePolicy}

/-!
## What is done with an item
-/

omit [CalendarDate D] in
theorem pushRec_whole {r : RecordRef}
    (h : RecordStruct.headerLen ≤ r.asRef.length) (tsOut : Bool) :
    (pushRec tsOut r.whole : WriteM (List (PyObject D)) PyErr Unit) =
      pushRec tsOut r := by
  unfold pushRec
  rw [RecordRef.rtype_whole h, RecordRef.recordSize_whole h]
  simp only [RecordRef.getAs_whole h]

/-- How an item of the stream is added to the list. -/
def act (s : ValidStream D policy) :
    Item D -> WriteM (List (PyObject D)) PyErr Unit
  | .metadata m => push (.metadata m)
  | .record bytes => pushRec s.tsOut ⟨bytes⟩

/-- `decode` with the variables for a stream. -/
structure Taking (s : ValidStream D policy) (n k : Nat)
    (decoding : Decoding B D) : Prop where
  holding : s.Holding n k decoding.fsm
  tsOut : s.lead ≤ k -> decoding.tsOut = s.tsOut

variable [LawfulBuffer B] [LawfulCalendarDate D]

/-- The loop of `decode` acts on the items of the stream. -/
theorem serves (B : Type) [Buffer B] [LawfulBuffer B]
    (s : ValidStream D policy) (hmax : s.bytes.length ≤ isizeMax) :
    s.release.Serves (decodeRound : Decoding B D -> _) (act s)
      Decoding.pyRecs (Taking s) where
  taken_le _ _ _ h := h.holding.taken_le
  item n k self item h hk hitem := by
    rcases h.holding.process_item hmax hk hitem with
      ⟨res, fsm', hret, hgives, hholding⟩
    have hts := hholding.settings.2.2
    unfold decodeRound
    rw [hret]
    cases hgives with
    | metadata m =>
        exact ⟨⟨fsm', fsm'.tsOut, self.pyRecs ++ [.metadata m]⟩, rfl, rfl,
          hholding, fun _ => hts⟩
    | @record image _ last =>
        have hlead := s.lead_le_of_record hitem
        unfold DbnFsm.lastBytes at last
        rcases Option.map_eq_some_iff.mp last with ⟨rec, hlast, himage⟩
        have hheader : RecordStruct.headerLen ≤ rec.asRef.length := by
          rw [himage]
          exact s.headerLen_le_item (List.mem_of_getElem? hitem)
        have hact : act s (.record image) = pushRec self.tsOut rec := by
          have hwhole : (⟨image⟩ : RecordRef) = rec.whole := by
            unfold RecordRef.whole
            rw [himage]
          show pushRec s.tsOut ⟨image⟩ = _
          rw [hwhole, pushRec_whole hheader, h.tsOut hlead]
        rw [hact]
        dsimp only
        rw [hlast]
        exact ⟨⟨fsm', self.tsOut, (pushRec self.tsOut rec self.pyRecs).2⟩,
          rfl, rfl, hholding,
          fun _ => h.tsOut hlead⟩
  more n k self h hk := by
    rcases h.holding.process_more hk with ⟨more, fsm', hret, hholding⟩
    refine ⟨{ self with fsm := fsm' }, ?_, rfl, hholding, h.tsOut⟩
    unfold decodeRound
    rw [hret]

/-!
## Items as objects
-/

section Convert

variable (s : ValidStream D policy)

/-- The object for an item. -/
def convert : Item D -> Res PyErr (PyObject D)
  | .metadata m => Res.ok (.metadata m)
  | .record bytes =>
      match HasRtype.rtype (⟨bytes⟩ : RecordRef) with
      | Except.error e => Res.err (.dbn e)
      | Except.ok rtype =>
          let t := rtype.dispatch (recordSize bytes)
          if (⟨bytes⟩ : RecordRef).Fits rtype s.tsOut then
            Res.ok (.record t s.tsOut
              (bytes.take (t.size + tsOutLen s.tsOut)))
          else Res.panic .assertion

/-- The objects for items, up to the first that has none. -/
def convertAll : List (Item D) -> Res PyErr (List (PyObject D))
  | [] => Res.ok []
  | item :: rest => do
      let o ← convert s item
      let os ← convertAll rest
      Res.ok (o :: os)

omit [Buffer B] [LawfulBuffer B] [LawfulCalendarDate D] in
theorem act_eq (item : Item D) (pyRecs : List (PyObject D)) :
    act s item pyRecs =
      match convert s item with
      | Res.ok o => (Res.ok (), pyRecs ++ [o])
      | Res.err e => (Res.err e, pyRecs)
      | Res.panic p => (Res.panic p, pyRecs) := by
  cases item with
  | metadata m => rfl
  | record bytes =>
      unfold act pushRec convert
      dsimp only
      cases hrtype : HasRtype.rtype (⟨bytes⟩ : RecordRef) with
      | error e => rfl
      | ok rtype =>
          dsimp only
          rw [RecordRef.getAs_dispatch hrtype]
          by_cases hfits : (⟨bytes⟩ : RecordRef).Fits rtype s.tsOut
          · rw [if_pos hfits, if_pos hfits]
            rfl
          · rw [if_neg hfits, if_neg hfits]
            rfl

omit [Buffer B] [LawfulBuffer B] [LawfulCalendarDate D] in
/-- What a call without a failure adds to the list. -/
theorem convertAll_of_tried {items : List (Item D)}
    {pyRecs pyRecs' : List (PyObject D)} {es : List PyErr}
    (tried : Tried (act s) items pyRecs es pyRecs') (hes : es = []) :
    exists os, convertAll s items = Res.ok os ∧ pyRecs' = pyRecs ++ os := by
  induction tried with
  | nil => exact ⟨[], rfl, (List.append_nil _).symm⟩
  | @ok item items h h' h'' es call _ ih =>
      rw [act_eq] at call
      unfold convertAll
      cases hconvert : convert s item with
      | ok o =>
          rw [hconvert] at call
          cases call
          rcases ih hes with ⟨os, hos, rfl⟩
          refine ⟨o :: os, ?_, ?_⟩
          · rw [hos]
            rfl
          · rw [List.append_assoc]
            rfl
      | err e =>
          rw [hconvert] at call
          cases call
      | panic p =>
          rw [hconvert] at call
          cases call
  | err _ _ _ => cases hes

omit [Buffer B] [LawfulBuffer B] [LawfulCalendarDate D] in
/-- One more item. -/
theorem convertAll_concat {items : List (Item D)} {os : List (PyObject D)}
    (h : convertAll s items = Res.ok os) (item : Item D) :
    convertAll s (items ++ [item]) =
      (convert s item).bind (fun o => Res.ok (os ++ [o])) := by
  induction items generalizing os with
  | nil =>
      cases h
      rfl
  | cons first rest ih =>
      unfold convertAll at h
      rcases Res.bind_eq_ok.mp h with ⟨o, hfirst, hrest⟩
      rcases Res.bind_eq_ok.mp hrest with ⟨os', hos', heq⟩
      cases heq
      rw [List.cons_append, convertAll, hfirst, Res.ok_bind, ih hos']
      cases convert s item <;> rfl

/-- All but the last of the items have objects. -/
def LastFails (items : List (Item D)) : Prop :=
  exists before item os, items = before ++ [item] ∧
    convertAll s before = Res.ok os ∧
    forall o, convert s item ≠ Res.ok o

end Convert

/-!
## Runs
-/

/-- The calls on a decoder. -/
inductive Call where
  | write (bytes : List UInt8)
  | decode

/-- What a call writes. -/
def Call.bytes : Call -> List UInt8
  | write bytes => bytes
  | decode => []

/-- Whether a call returns a list. -/
def Call.isDecode : Call -> Bool
  | write _ => false
  | decode => true

/-- The results of the calls of `decode`; a panic is the end. -/
def runAll (D : Type) [CalendarDate D] :
    List Call -> DbnFsm B ->
      Outcome (List (Res PyErr (List (PyObject D))) × DbnFsm B)
  | [], fsm => .ret ([], fsm)
  | .write bytes :: calls, fsm => runAll D calls (fsm.writeAll bytes)
  | .decode :: calls, fsm => do
      let (res, fsm) ← decode D fsm
      match res with
      | Res.panic p => .ret ([Res.panic p], fsm)
      | res => do
          let (results, fsm) ← runAll D calls fsm
          .ret (res :: results, fsm)

/-- A call of `decode` takes the next items. -/
theorem decode_takes {s : ValidStream D policy}
    (hmax : s.bytes.length ≤ isizeMax) {n k : Nat} {fsm : DbnFsm B}
    (h : s.Holding n k fsm) :
    exists k' fsm', decode D fsm =
        .ret (convertAll s (s.release.slice k k'), fsm') ∧
      k ≤ k' ∧ s.Holding n k' fsm' ∧
      (LastFails s (s.release.slice k k') ∨
        k' = s.complete n ∧ exists os,
          convertAll s (s.release.slice k k') = Res.ok os) := by
  have hstart : Taking s n k (⟨fsm, fsm.tsOut, []⟩ : Decoding B D) :=
    ⟨h, h.tsOut_of_lead_le⟩
  have hrounds : s.release.complete n < k + (fsm.data.length + 1) :=
    Nat.lt_succ_of_le h.complete_le
  rcases (serves B s hmax).pump hstart hrounds with
    ⟨res, self', k', hret, htaking, hle, htried, hok, hfail⟩
  refine ⟨k', self'.fsm, ?_, hle, htaking.holding, ?_⟩
  · unfold decode
    dsimp only
    rw [hret, Outcome.ret_bind]
    by_cases hres : res = Res.ok ()
    · cases hres
      have htried := htried (Res.ok_not_isPanic ())
      rcases convertAll_of_tried s htried rfl with ⟨os, hos, hlist⟩
      rw [List.nil_append] at hlist
      rw [hos, ← hlist]
      rfl
    rcases hfail hres with ⟨j, item, pyRecs, rfl, hj, hitem, hbefore, hlast⟩
    rcases List.getElem?_eq_some_iff.mp hitem with ⟨hlt, rfl⟩
    rcases convertAll_of_tried s hbefore rfl with ⟨os, hos, _⟩
    rw [s.release.slice_succ hj hlt, convertAll_concat s hos]
    replace hlast := congrArg Prod.fst hlast
    rw [act_eq] at hlast
    cases hconvert : convert s s.release.items[j] with
    | ok o =>
        rw [hconvert] at hlast
        exact absurd hlast.symm hres
    | err e =>
        rw [hconvert] at hlast
        cases hlast
        rfl
    | panic p =>
        rw [hconvert] at hlast
        cases hlast
        rfl
  · by_cases hres : res = Res.ok ()
    · cases hres
      have htried := htried (Res.ok_not_isPanic ())
      rcases convertAll_of_tried s htried rfl with ⟨os, hos, _⟩
      exact Or.inr ⟨hok rfl, os, hos⟩
    left
    rcases hfail hres with ⟨j, item, pyRecs, rfl, hj, hitem, hbefore, hlast⟩
    rcases List.getElem?_eq_some_iff.mp hitem with ⟨hlt, rfl⟩
    rcases convertAll_of_tried s hbefore rfl with ⟨os, hos, _⟩
    refine ⟨_, _, os, s.release.slice_succ hj hlt, hos, ?_⟩
    intro o hconvert
    replace hlast := congrArg Prod.fst hlast
    rw [act_eq, hconvert] at hlast
    exact hres hlast.symm

/--
What was taken by some calls: the items of each call of `decode`, all of which
have objects, but for the last one of a call that failed.
-/
structure Decoded (s : ValidStream D policy) (n : Nat)
    (taken : List (List (Item D))) (fsm : DbnFsm B) : Prop where
  holding : s.Holding n taken.flatten.length fsm
  items : taken.flatten <+: s.items
  each : forall items, items ∈ taken ->
    LastFails s items ∨ exists os, convertAll s items = Res.ok os

variable {s : ValidStream D policy} {n : Nat} {taken : List (List (Item D))}
  {fsm : DbnFsm B}

omit [LawfulCalendarDate D] in
theorem Decoded.write (h : Decoded s n taken fsm) {bytes : List UInt8}
    (hbytes : s.bytes.take n ++ bytes <+: s.bytes) :
    Decoded s (n + bytes.length) taken (fsm.writeAll bytes) :=
  ⟨h.holding.writeAll hbytes, h.items, h.each⟩

/-- A call of `decode` returns the objects for the next items. -/
theorem Decoded.decode (hmax : s.bytes.length ≤ isizeMax)
    (h : Decoded s n taken fsm) : exists items fsm',
    DBNDecoder.decode D fsm = .ret (convertAll s items, fsm') ∧
      Decoded s n (taken ++ [items]) fsm' ∧
      ((exists os, convertAll s items = Res.ok os) ->
        (taken ++ [items]).flatten.length = s.complete n) := by
  rcases decode_takes hmax h.holding with
    ⟨k', fsm', hret, hle, hholding, hresult⟩
  have hflat : (taken ++ [s.release.slice taken.flatten.length k']).flatten =
      s.items.take k' := by
    rw [List.flatten_append, List.flatten_singleton]
    have hsplit := s.release.take_append_slice hle
    rwa [show s.release.items = s.items from rfl,
      ← List.prefix_iff_eq_take.mp h.items] at hsplit
  have hlen : (taken ++ [s.release.slice taken.flatten.length
      k']).flatten.length = k' := by
    rw [hflat, List.length_take, Nat.min_eq_left]
    exact Nat.le_trans hholding.taken_le (s.release.complete_le n)
  refine ⟨_, fsm', hret, ⟨?_, ?_, ?_⟩, ?_⟩
  · rwa [hlen]
  · rw [hflat]
    exact List.take_prefix _ _
  · rw [List.forall_mem_append]
    refine ⟨h.each, ?_⟩
    intro items hitems
    rw [List.mem_singleton.mp hitems]
    rcases hresult with hfails | ⟨_, hok⟩
    · exact Or.inl hfails
    · exact Or.inr hok
  · intro hok
    rw [hlen]
    rcases hresult with hfails | ⟨hcomplete, _⟩
    swap
    · exact hcomplete
    rcases hfails with ⟨before, item, os, heq, hbefore, hitem⟩
    rcases hok with ⟨os', hos'⟩
    rw [heq, convertAll_concat s hbefore] at hos'
    rcases Res.bind_eq_ok.mp hos' with ⟨o, ho, _⟩
    exact absurd ho (hitem o)

omit [LawfulBuffer B] [LawfulCalendarDate D] in
/-- A call of `decode` that panics is the last one. -/
theorem runAll_decode_panic {calls : List Call} {fsm' : DbnFsm B} {p : Panic}
    (h : decode D fsm = .ret (Res.panic p, fsm')) :
    runAll D (.decode :: calls) fsm = .ret ([Res.panic p], fsm') := by
  unfold runAll
  rw [h]
  rfl

omit [LawfulBuffer B] [LawfulCalendarDate D] in
theorem runAll_decode {calls : List Call} {fsm' fsm'' : DbnFsm B}
    {res : Res PyErr (List (PyObject D))}
    {results : List (Res PyErr (List (PyObject D)))}
    (h : decode D fsm = .ret (res, fsm')) (hpanic : ¬ res.IsPanic)
    (hrest : runAll D calls fsm' = .ret (results, fsm'')) :
    runAll D (.decode :: calls) fsm = .ret (res :: results, fsm'') := by
  unfold runAll
  rw [h, Outcome.ret_bind]
  cases res with
  | ok os =>
      dsimp only
      rw [hrest]
      rfl
  | err e =>
      dsimp only
      rw [hrest]
      rfl
  | panic p => exact absurd (Res.panic_isPanic p) hpanic

/-- With no more calls, or with a last call that returns a list. -/
theorem getLast?_of_cons {call : Call} {calls : List Call}
    (h : (call :: calls).getLast? = some .decode) :
    (calls = [] ∧ call = .decode) ∨
      (calls.getLast? = some .decode ∧ 0 < calls.countP Call.isDecode) := by
  rw [List.getLast?_cons] at h
  cases hlast : calls.getLast? with
  | none =>
      rw [hlast] at h
      cases h
      exact Or.inl ⟨List.getLast?_eq_none_iff.mp hlast, rfl⟩
  | some c =>
      rw [hlast] at h
      cases h
      refine Or.inr ⟨rfl, List.countP_pos_iff.mpr ?_⟩
      exact ⟨.decode, List.mem_of_getLast? hlast, rfl⟩

/-- Calls return the objects for the next items. -/
theorem Decoded.runAll (hmax : s.bytes.length ≤ isizeMax)
    (h : Decoded s n taken fsm) (calls : List Call)
    (hcalls : s.bytes.take n ++ calls.flatMap Call.bytes <+: s.bytes) :
    exists next fsm',
      DBNDecoder.runAll D calls fsm = .ret (next.map (convertAll s), fsm') ∧
      (exists m, Decoded s m (taken ++ next) fsm') ∧
      ((forall items, items ∈ next -> ¬ (convertAll s items).IsPanic) ->
        next.length = calls.countP Call.isDecode ∧
        (calls.getLast? = some .decode -> forall items os,
          next.getLast? = some items -> convertAll s items = Res.ok os ->
          (taken ++ next).flatten.length =
            s.complete (n + (calls.flatMap Call.bytes).length))) := by
  induction calls generalizing n taken fsm with
  | nil =>
      refine ⟨[], fsm, rfl, ⟨n, ?_⟩, fun _ => ⟨rfl, fun hlast => ?_⟩⟩
      · rwa [List.append_nil]
      · cases hlast
  | cons call rest ih =>
      rw [List.flatMap_cons, ← List.append_assoc] at hcalls
      cases call with
      | write bytes =>
          have hcall := (List.prefix_append _ _).trans hcalls
          have hrest : s.bytes.take (n + bytes.length) ++
              rest.flatMap Call.bytes <+: s.bytes := by
            have htake := List.prefix_iff_eq_take.mp hcall
            rw [List.length_append, List.length_take,
              Nat.min_eq_left h.holding.le] at htake
            rwa [← show _ = s.bytes.take (n + bytes.length) from htake]
          rcases ih (h.write hcall) hrest with
            ⟨next, fsm', hrun, hdecoded, hall⟩
          refine ⟨next, fsm', hrun, hdecoded, ?_⟩
          intro hpanics
          rcases hall hpanics with ⟨hcount, hlast⟩
          refine ⟨hcount, ?_⟩
          intro hdecode items os hitems hos
          rw [List.flatMap_cons, List.length_append, ← Nat.add_assoc]
          rcases getLast?_of_cons hdecode with ⟨_, heq⟩ | ⟨hdecode, _⟩
          · cases heq
          · exact hlast hdecode items os hitems hos
      | decode =>
          have hrest : s.bytes.take n ++ rest.flatMap Call.bytes <+: s.bytes := by
            rwa [show Call.decode.bytes = [] from rfl, List.append_nil]
              at hcalls
          rcases h.decode hmax with ⟨items, fsm₁, hret, hdecoded, hdrained⟩
          by_cases hpanic : (convertAll s items).IsPanic
          · refine ⟨[items], fsm₁, ?_, ⟨n, hdecoded⟩, ?_⟩
            · rcases hpanic with ⟨p, hp⟩
              rw [hp] at hret
              rw [runAll_decode_panic hret, List.map_singleton, hp]
            · intro hpanics
              exact absurd hpanic (hpanics items List.mem_cons_self)
          rcases ih hdecoded hrest with ⟨next, fsm', hrun, hmore, hall⟩
          rw [List.append_assoc, List.singleton_append] at hmore hall
          refine ⟨items :: next, fsm', runAll_decode hret hpanic hrun, hmore, ?_⟩
          intro hpanics
          rw [List.forall_mem_cons] at hpanics
          rcases hall hpanics.2 with ⟨hcount, hlast⟩
          refine ⟨?_, ?_⟩
          · rw [List.length_cons, hcount, List.countP_cons_of_pos rfl]
          intro hdecode items' os hitems hos
          rw [List.getLast?_cons] at hitems
          rcases getLast?_of_cons hdecode with ⟨rfl, _⟩ | ⟨hdecode, hpos⟩
          · rw [List.eq_nil_of_length_eq_zero hcount] at hitems ⊢
            cases hitems
            exact hdrained ⟨os, hos⟩
          · have hsome : next.getLast? = some items' := by
              cases hnext : next.getLast? with
              | none =>
                  rw [List.getLast?_eq_none_iff.mp hnext] at hcount
                  rw [← hcount] at hpos
                  cases hpos
              | some last =>
                  rw [hnext] at hitems
                  exact hitems
            exact hlast hdecode items' os hsome hos

/-!
## New decoders
-/

/--
However a stream is written and whenever it is decoded, the lists that are
returned are the objects for its first items, one after the other: nothing is
lost and nothing comes twice.  A call fails only at an item that has no object
and loses the items that it had taken.  After a call that succeeds no complete
item is left.
-/
theorem decodes_items_once {hasMetadata tsOut : Bool}
    {inputVersion : Option Nat} {start : DbnFsm B}
    (hnew : new hasMetadata tsOut inputVersion policy = Res.ok start)
    {s : ValidStream D policy} (hmetadata : hasMetadata = s.metadata.isSome)
    (hfragment : s.metadata = none ->
      inputVersion = some s.version ∧ tsOut = s.tsOut)
    (hmax : s.bytes.length ≤ isizeMax) (calls : List Call)
    (hcalls : calls.flatMap Call.bytes <+: s.bytes) :
    exists (taken : List (List (Item D))) (fsm : DbnFsm B),
      runAll D calls start = .ret (taken.map (convertAll s), fsm) ∧
      taken.flatten <+: s.items ∧
      (forall items, items ∈ taken ->
        LastFails s items ∨ exists os, convertAll s items = Res.ok os) ∧
      ((forall items, items ∈ taken -> ¬ (convertAll s items).IsPanic) ->
        taken.length = calls.countP Call.isDecode ∧
        (calls.getLast? = some .decode -> forall items os,
          taken.getLast? = some items -> convertAll s items = Res.ok os ->
          taken.flatten.length =
            s.complete (calls.flatMap Call.bytes).length)) := by
  have hholding : s.Holding 0 0 start := by
    rcases Res.bind_eq_ok.mp hnew with ⟨b, hversion, hbuild⟩
    rcases ValidStream.withInputDbnVersion_eq_ok
      (Res.mapErr_eq_ok.mp hversion) with ⟨version, hinput, rfl⟩
    have hskip : (!hasMetadata) = s.metadata.isNone := by
      rw [hmetadata]
      cases s.metadata <;> rfl
    apply ValidStream.holding_build (Res.mapErr_eq_ok.mp hbuild) hskip
    intro hnone
    rcases hfragment hnone with ⟨hversion, hts⟩
    exact ⟨hinput.trans hversion, hts⟩
  have hstart : Decoded s 0 [] start :=
    ⟨hholding, List.nil_prefix, fun _ hitems => by cases hitems⟩
  have hpiece : s.bytes.take 0 ++ calls.flatMap Call.bytes <+: s.bytes := by
    rwa [List.take_zero, List.nil_append]
  rcases hstart.runAll hmax calls hpiece with
    ⟨taken, fsm, hrun, ⟨m, hdecoded⟩, hall⟩
  rw [Nat.zero_add] at hall
  exact ⟨taken, fsm, hrun, hdecoded.items, hdecoded.each, hall⟩

/-- Decoded in the middle and at the end. -/
theorem decodes_items_once_heartbeats :
    exists (taken : List (List (Item GregorianDate)))
        (fsm : DbnFsm VecBuffer),
      runAll GregorianDate
          [.write (ValidStream.heartbeats.bytes.take 200), .decode,
            .write (ValidStream.heartbeats.bytes.drop 200), .decode]
          (DbnFsm.new DbnFsm.defaultBufSize DbnFsm.defaultBufSize) =
        .ret (taken.map (convertAll ValidStream.heartbeats), fsm) ∧
      taken.flatten <+: ValidStream.heartbeats.items ∧
      (forall items, items ∈ taken ->
        LastFails ValidStream.heartbeats items ∨
          exists os, convertAll ValidStream.heartbeats items = Res.ok os) ∧
      ((forall items, items ∈ taken ->
          ¬ (convertAll ValidStream.heartbeats items).IsPanic) ->
        taken.length = 2 ∧
        (some Call.decode = some .decode -> forall items os,
          taken.getLast? = some items ->
          convertAll ValidStream.heartbeats items = Res.ok os ->
          taken.flatten.length = ValidStream.heartbeats.complete
            ValidStream.heartbeats.bytes.length)) := by
  have hbytes : [Call.write (ValidStream.heartbeats.bytes.take 200), .decode,
      .write (ValidStream.heartbeats.bytes.drop 200),
      .decode].flatMap Call.bytes = ValidStream.heartbeats.bytes := by
    show ValidStream.heartbeats.bytes.take 200 ++ ([] ++
      (ValidStream.heartbeats.bytes.drop 200 ++ ([] ++ []))) = _
    rw [List.nil_append, List.append_nil, List.append_nil,
      List.take_append_drop]
  have hpiece : [Call.write (ValidStream.heartbeats.bytes.take 200), .decode,
      .write (ValidStream.heartbeats.bytes.drop 200),
      .decode].flatMap Call.bytes <+: ValidStream.heartbeats.bytes :=
    ⟨[], (List.append_nil _).trans hbytes⟩
  have hnew : new true false none .upgradeToV3 = Res.ok
      (DbnFsm.new DbnFsm.defaultBufSize DbnFsm.defaultBufSize :
        DbnFsm VecBuffer) := rfl
  have h := decodes_items_once hnew (s := ValidStream.heartbeats) rfl
    (fun hnone => by cases hnone) (by decide +kernel) _ hpiece
  rw [hbytes] at h
  exact h

end DBNDecoder
end Dbn
