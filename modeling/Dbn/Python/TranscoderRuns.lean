import Dbn.Decode.StreamRelease
import Dbn.Python.WholeRecord
import Mathlib.Data.List.ReduceOption

/-!
# Runs of the transcoder

Whatever pieces a stream is written in, wherever it is flushed and whichever
calls fail, the transcoder encodes each item of the stream once, in order.
-/

namespace Dbn
namespace Transcoder

open Lib
open Cli (Encoding)
open Lib.WriteM (mapErr)

variable {B W C D : Type} [Buffer B] [FlushWrite W] [DropCsvWriter W C]
  [DebugRecord] [TimeFormat] [JsonWriter] [CalendarDate D] [LinearOrder D]
  [DayCalendar D] {policy : VersionUpgradePolicy}

/-!
## Calls
-/

/-- The calls that encode. -/
inductive Call where
  | write (bytes : List UInt8)
  | flush

namespace Call

def run (C : Type) [DropCsvWriter W C] (outputEnc : Encoding) :
    Call -> LoopM (Inner B W D) PyErr
  | write bytes => Inner.write C outputEnc bytes
  | flush => Inner.flush C outputEnc

/-- What a call writes to the machine. -/
def bytes : Call -> List UInt8
  | write bytes => bytes
  | flush => []

/-- Calls one after the other, also after an error; a panic is the end. -/
def runAll (C : Type) [DropCsvWriter W C] (outputEnc : Encoding) :
    List Call -> Inner B W D ->
      Outcome (List (Res PyErr Unit) × Inner B W D)
  | [], self => .ret ([], self)
  | call :: calls, self => do
      let (res, self) ← call.run C outputEnc self
      match res with
      | Res.panic p => .ret ([Res.panic p], self)
      | res =>
          let (results, self) ← runAll C outputEnc calls self
          .ret (res :: results, self)

end Call

/-!
## What is done with an item
-/

/-- How an item of the stream is encoded; `none` stands for a flush. -/
def act (C : Type) [DropCsvWriter W C] (outputEnc : Encoding)
    (s : ValidStream D policy) :
    Option (Item D) -> WriteM (Target W D) PyErr Unit
  | some (.metadata m) =>
      Target.encodeMetadata C outputEnc s.tsOut policy (some s.version) m
  | some (.record bytes) =>
      mapErr .dbn (Target.encodeRecord C outputEnc s.tsOut ⟨bytes⟩)
  | none => Target.onOutput (WriteM.calling .io FlushWrite.flush)

section Round

variable {s : ValidStream D policy} {self : Inner B W D} {n k : Nat}
  [LawfulBuffer B] [LawfulCalendarDate D]

omit [LawfulCalendarDate D] in
theorem encodeRound_of_more (outputEnc : Encoding)
    (h : s.Holding n k self.fsm) (hk : k = s.complete n) :
    exists self', Inner.encodeRound C outputEnc self =
        .ret (.done (Res.ok ()) self') ∧
      self'.target = self.target ∧ s.Holding n k self'.fsm := by
  rcases h.process_more hk with ⟨more, fsm', hret, hholding⟩
  refine ⟨{ self with fsm := fsm' }, ?_, rfl, hholding⟩
  unfold Inner.encodeRound
  rw [hret]

/-- A round encodes the next item. -/
theorem encodeRound_of_item (outputEnc : Encoding) (hdebug : ShowsRecord)
    (hmax : s.bytes.length ≤ isizeMax) (h : s.Holding n k self.fsm)
    (hk : k < s.complete n) {item : Item D} (hitem : s.items[k]? = some item) :
    exists self', Inner.encodeRound C outputEnc self = .ret (.after
        ((act C outputEnc s (some item) self.target).1, self')) ∧
      self'.target = (act C outputEnc s (some item) self.target).2 ∧
      s.Holding n (k + 1) self'.fsm := by
  rcases h.process_item hmax hk hitem with
    ⟨res, fsm', hret, hgives, hholding⟩
  rcases hholding.settings with ⟨hversion, hpolicy, hts⟩
  refine ⟨⟨fsm', (act C outputEnc s (some item) self.target).2⟩, ?_, rfl,
    hholding⟩
  unfold Inner.encodeRound
  rw [hret]
  cases hgives with
  | metadata m =>
      dsimp only
      unfold Inner.encodeMetadata
      rw [hversion, hpolicy, hts]
      rfl
  | @record image _ last =>
      unfold DbnFsm.lastBytes at last
      rcases Option.map_eq_some_iff.mp last with ⟨rec, hlast, himage⟩
      have hheader : RecordStruct.headerLen ≤ rec.asRef.length := by
        rw [himage]
        exact s.headerLen_le_item (List.mem_of_getElem? hitem)
      have hact : act C outputEnc s (some (.record image)) =
          (mapErr PyErr.dbn (Target.encodeRecord C outputEnc s.tsOut rec) :
            WriteM (Target W D) PyErr Unit) := by
        have hwhole : (⟨image⟩ : RecordRef) = rec.whole := by
          unfold RecordRef.whole
          rw [himage]
        show mapErr PyErr.dbn
          (Target.encodeRecord C outputEnc s.tsOut ⟨image⟩) = _
        rw [hwhole, Target.encodeRecord_whole hheader hdebug]
      rw [hact]
      dsimp only
      unfold Inner.encodeRecord
      rw [hlast, hts]
      rfl

/-- The loop of `encode` acts on the items of the stream. -/
theorem serves (C : Type) [DropCsvWriter W C] (outputEnc : Encoding)
    (hdebug : ShowsRecord) (hmax : s.bytes.length ≤ isizeMax) :
    s.release.Serves (Inner.encodeRound C outputEnc)
      (fun item => act C outputEnc s (some item))
      (Inner.target : Inner B W D -> Target W D)
      (fun n k self => s.Holding n k self.fsm) where
  taken_le _ _ _ h := h.taken_le
  item _ _ _ _ h hk hitem :=
    encodeRound_of_item outputEnc hdebug hmax h hk hitem
  more _ _ _ h hk := encodeRound_of_more outputEnc h hk

end Round

/-!
## Calls act on items
-/

section Runs

variable [LawfulBuffer B] [LawfulCalendarDate D]
  {s : ValidStream D policy} {self : Inner B W D} {n k : Nat}
  {outputEnc : Encoding}

/-- A result of encoding an item of the stream, or of a flush. -/
def Arises (C : Type) [DropCsvWriter W C] (outputEnc : Encoding)
    (s : ValidStream D policy) (res : Res PyErr Unit) : Prop :=
  res = Res.ok () ∨ exists (item : Option (Item D)) (target : Target W D),
    (forall i, item = some i -> i ∈ s.items) ∧
      (act C outputEnc s item target).1 = res

/--
After some calls that wrote `n` bytes: the first `k` items were encoded, with
flushes in between, and failures were reported.
-/
structure Encoded (C : Type) [DropCsvWriter W C] (outputEnc : Encoding)
    (s : ValidStream D policy) (start : Target W D) (n k : Nat)
    (errors : List PyErr) (inner : Inner B W D) : Prop where
  holding : s.Holding n k inner.fsm
  tried : exists trace : List (Option (Item D)),
    trace.reduceOption = s.items.take k ∧
    Tried (act C outputEnc s) trace start errors inner.target

omit [Buffer B] [FlushWrite W] [DropCsvWriter W C] [DebugRecord] [TimeFormat]
  [JsonWriter] [CalendarDate D] [LinearOrder D] [DayCalendar D]
  [LawfulBuffer B] [LawfulCalendarDate D] in
theorem reduceOption_map_some {α : Type} (as : List α) :
    (as.map some).reduceOption = as := by
  rw [List.reduceOption, List.filterMap_map]
  exact List.filterMap_some

/-- A call of `encode`. -/
theorem Encoded.encode {start : Target W D} {errors : List PyErr}
    (hdebug : ShowsRecord) (hmax : s.bytes.length ≤ isizeMax)
    (h : Encoded C outputEnc s start n k errors self) :
    exists res self' k', Inner.encode C outputEnc self = .ret (res, self') ∧
      Arises C outputEnc s res ∧ (res = Res.ok () -> k' = s.complete n) ∧
      (¬ res.IsPanic ->
        Encoded C outputEnc s start n k' (errors ++ res.errors) self') := by
  have hrounds : s.release.complete n < k + (self.fsm.data.length + 1) :=
    Nat.lt_succ_of_le h.holding.complete_le
  have hpump := (serves C outputEnc hdebug hmax).pump h.holding hrounds
  rcases hpump with
    ⟨res, self', k', hret, hholding, hle, htried, hok, hfail⟩
  refine ⟨res, self', k', hret, ?_, hok, ?_⟩
  · by_cases hne : res = Res.ok ()
    · exact Or.inl hne
    rcases hfail hne with ⟨j, item, target, _, _, hitem, _, hres⟩
    refine Or.inr ⟨some item, target, ?_, congrArg Prod.fst hres⟩
    intro i hi
    cases hi
    exact List.mem_of_getElem? hitem
  intro hpanic
  refine ⟨hholding, ?_⟩
  rcases h.tried with ⟨trace, htrace, htried'⟩
  refine ⟨trace ++ (s.release.slice k k').map some, ?_, ?_⟩
  · rw [List.reduceOption_append, htrace, reduceOption_map_some]
    exact s.release.take_append_slice hle
  · exact htried'.append ((htried hpanic).map (fun _ _ => rfl))

theorem Encoded.run {start : Target W D} {errors : List PyErr}
    (hdebug : ShowsRecord) (hmax : s.bytes.length ≤ isizeMax)
    (h : Encoded C outputEnc s start n k errors self) (call : Call)
    (hcall : s.bytes.take n ++ call.bytes <+: s.bytes) :
    exists res self' k', call.run C outputEnc self = .ret (res, self') ∧
      Arises C outputEnc s res ∧
      (res = Res.ok () -> k' = s.complete (n + call.bytes.length)) ∧
      (¬ res.IsPanic -> Encoded C outputEnc s start
        (n + call.bytes.length) k' (errors ++ res.errors) self') := by
  cases call with
  | write bytes =>
      have hwritten : Encoded C outputEnc s start (n + bytes.length) k errors
          { self with fsm := self.fsm.writeAll bytes } :=
        ⟨h.holding.writeAll hcall, h.tried⟩
      exact hwritten.encode hdebug hmax
  | flush =>
      rcases h.encode hdebug hmax with
        ⟨res, self', k', hret, harises, hok, hdone⟩
      have hrun : Call.flush.run C outputEnc self =
          .ret (((fun _ => (res, self')) >>= fun _ =>
            Inner.onTarget (act C outputEnc s none) :
              WriteM (Inner B W D) PyErr Unit) self) :=
        LoopM.andThen_of_ret hret
      rw [hrun]
      cases res with
      | ok u =>
          have hdone := hdone (Res.ok_not_isPanic u)
          generalize hflush : act C outputEnc s none self'.target = flushed
          rcases flushed with ⟨res, target⟩
          have harises : Arises C outputEnc s res := by
            refine Or.inr ⟨none, self'.target, ?_, by rw [hflush]⟩
            intro i hi
            cases hi
          refine ⟨res, { self' with target := target }, k', ?_, harises,
            fun _ => hok rfl, ?_⟩
          · show Outcome.ret (Inner.onTarget (act C outputEnc s none) self') = _
            unfold Inner.onTarget WriteM.focus
            rw [hflush]
          · intro hpanic
            rcases hdone.tried with ⟨trace, htrace, htried⟩
            refine ⟨hdone.holding, trace ++ [none], ?_, ?_⟩
            · rw [List.reduceOption_append, htrace]
              exact List.append_nil _
            · rw [show (Res.ok u : Res PyErr Unit).errors = [] from rfl,
                List.append_nil] at htried
              exact htried.append (Tried.single hflush hpanic)
      | err e => exact ⟨Res.err e, self', k', rfl, harises, hok, hdone⟩
      | panic p => exact ⟨Res.panic p, self', k', rfl, harises, hok, hdone⟩

/-- `last` stands for the result of the call before. -/
theorem Encoded.runAll {start : Target W D} {errors : List PyErr}
    (hdebug : ShowsRecord) (hmax : s.bytes.length ≤ isizeMax)
    (h : Encoded C outputEnc s start n k errors self) (last : Res PyErr Unit)
    (hlast : last = Res.ok () -> k = s.complete n) (calls : List Call)
    (hcalls : s.bytes.take n ++ calls.flatMap Call.bytes <+: s.bytes) :
    exists results self', Call.runAll C outputEnc calls self =
        .ret (results, self') ∧
      (forall res, res ∈ results -> Arises C outputEnc s res) ∧
      ((forall res, res ∈ results -> ¬ res.IsPanic) ->
        results.length = calls.length ∧
        exists k', Encoded C outputEnc s start
          (n + (calls.flatMap Call.bytes).length) k'
          (errors ++ results.flatMap Res.errors) self' ∧
        (results.getLast?.getD last = Res.ok () ->
          k' = s.complete (n + (calls.flatMap Call.bytes).length))) := by
  induction calls generalizing n k errors self last with
  | nil =>
      refine ⟨[], self, rfl, (fun _ hres => by cases hres), ?_⟩
      intro _
      refine ⟨rfl, k, ?_, hlast⟩
      rw [show ([] : List (Res PyErr Unit)).flatMap Res.errors = [] from rfl,
        List.append_nil]
      exact h
  | cons call calls ih =>
      rw [List.flatMap_cons, ← List.append_assoc] at hcalls
      have hcall := (List.prefix_append _ _).trans hcalls
      rcases h.run hdebug hmax call hcall with
        ⟨res, self₁, k₁, hret, harises, hok, hdone⟩
      have hrest : s.bytes.take (n + call.bytes.length) ++
          calls.flatMap Call.bytes <+: s.bytes := by
        have htake := List.prefix_iff_eq_take.mp hcall
        rw [List.length_append, List.length_take,
          Nat.min_eq_left h.holding.le] at htake
        rwa [← htake]
      have hlen : n + (call.bytes ++ calls.flatMap Call.bytes).length =
          n + call.bytes.length + (calls.flatMap Call.bytes).length := by
        rw [List.length_append, Nat.add_assoc]
      by_cases hpanic : res.IsPanic
      · rcases hpanic with ⟨p, rfl⟩
        refine ⟨[Res.panic p], self₁, ?_, ?_, ?_⟩
        · unfold Call.runAll
          rw [hret]
          rfl
        · intro res hres
          rwa [List.mem_singleton.mp hres]
        · intro hall
          exact absurd (Res.panic_isPanic p)
            (hall (Res.panic p) List.mem_cons_self)
      rcases ih (hdone hpanic) res hok hrest with
        ⟨results, self', hrun, hresults, hall⟩
      refine ⟨res :: results, self', ?_,
        List.forall_mem_cons.mpr ⟨harises, hresults⟩, ?_⟩
      · unfold Call.runAll
        rw [hret, Outcome.ret_bind]
        cases res with
        | panic p => exact absurd (Res.panic_isPanic p) hpanic
        | ok u =>
            dsimp only
            rw [hrun]
            rfl
        | err e =>
            dsimp only
            rw [hrun]
            rfl
      · intro hpanics
        rw [List.forall_mem_cons] at hpanics
        rcases hall hpanics.2 with ⟨hcount, k', hencoded, hlast'⟩
        rw [List.flatMap_cons, List.flatMap_cons, hlen, ← List.append_assoc,
          List.getLast?_cons]
        exact ⟨congrArg Nat.succ hcount, k', hencoded, hlast'⟩

end Runs

/-!
## New transcoders
-/

section New

open Transcoder.Inner (Settings)

/-- The settings say what the stream is. -/
structure Describes (settings : Settings D)
    (s : ValidStream D settings.upgradePolicy) : Prop where
  hasMetadata : settings.hasMetadata = s.metadata.isSome
  fragment : s.metadata = none ->
    settings.inputVersion = some s.version ∧ settings.tsOut = s.tsOut

omit [DebugRecord] [TimeFormat] [JsonWriter] [CalendarDate D]
  [DayCalendar D] in
theorem fsmBuilder_eq_ok {settings : Settings D} {b : DbnFsmBuilder}
    (h : settings.fsmBuilder = Res.ok b) : exists version,
      version.map Subtype.val = settings.inputVersion ∧
      b = { (default : DbnFsmBuilder) with
            skipMetadata := !settings.hasMetadata
            inputDbnVersion := version
            upgradePolicy := settings.upgradePolicy
            tsOut := settings.tsOut } := by
  rcases Res.bind_eq_ok.mp h with ⟨b', hversion, heq⟩
  rcases ValidStream.withInputDbnVersion_eq_ok hversion with
    ⟨version, hinput, rfl⟩
  cases heq
  exact ⟨version, hinput, rfl⟩

variable [LawfulBuffer B]

omit [FlushWrite W] [DebugRecord] [TimeFormat] [JsonWriter]
  [DayCalendar D] in
/-- A new transcoder waits for the stream that its settings describe. -/
theorem holding_new {outputEnc : Encoding} {output : W}
    {settings : Settings D} {self : Inner B W D}
    (hnew : Inner.new C outputEnc output settings = Res.ok self)
    {s : ValidStream D settings.upgradePolicy}
    (hdescribes : Describes settings s) : s.Holding 0 0 self.fsm := by
  unfold Inner.new at hnew
  split at hnew
  · cases hnew
  rcases Res.bind_eq_ok.mp hnew with ⟨b, hbuilder, hnew⟩
  rcases Res.bind_eq_ok.mp hnew with ⟨fsm, hbuild, hnew⟩
  have hfsm : self.fsm = fsm := by
    dsimp only at hnew
    split at hnew
    · rcases Res.bind_eq_ok.mp hnew with ⟨_, _, heq⟩
      cases heq
      rfl
    · cases hnew
      rfl
  rcases fsmBuilder_eq_ok (Res.mapErr_eq_ok.mp hbuilder) with
    ⟨version, hversion, rfl⟩
  rw [hfsm]
  apply ValidStream.holding_build (Res.mapErr_eq_ok.mp hbuild)
  · show (!settings.hasMetadata) = _
    rw [hdescribes.hasMetadata]
    cases s.metadata <;> rfl
  · intro hmetadata
    rcases hdescribes.fragment hmetadata with ⟨hinput, hts⟩
    exact ⟨hversion.trans hinput, hts⟩

omit [CalendarDate D] [LawfulBuffer B] [FlushWrite W] [DebugRecord]
  [TimeFormat] [JsonWriter] [DayCalendar D] in
/-- Only a CSV without metadata in front has a header from the beginning. -/
theorem target_new {outputEnc : Encoding}
    (hcsv : outputEnc ≠ .csv) {output : W} {settings : Inner.Settings D}
    {self : Inner B W D}
    (hnew : Inner.new C outputEnc output settings = Res.ok self) :
    self.target = settings.target output := by
  have hheader : Target.encodeHeaderIfCsv C outputEnc settings.prettyPx
      settings.prettyTs settings.tsOut (settings.target output).mapSymbols
      settings.upgradePolicy settings.inputVersion settings.schema = pure ()
      := by
    unfold Target.encodeHeaderIfCsv
    cases outputEnc <;> first | rfl | contradiction
  unfold Inner.new at hnew
  split at hnew
  · cases hnew
  rcases Res.bind_eq_ok.mp hnew with ⟨b, _, hnew⟩
  rcases Res.bind_eq_ok.mp hnew with ⟨fsm, _, hnew⟩
  dsimp only at hnew
  split at hnew
  · rw [hheader] at hnew
    cases hnew
    rfl
  · cases hnew
    rfl

variable [LawfulCalendarDate D]

/-- Calls of a new transcoder; what they return says how far they came. -/
theorem runAll_new (hdebug : ShowsRecord) {outputEnc : Encoding}
    {output : W} {settings : Settings D} {self : Inner B W D}
    (hnew : Inner.new C outputEnc output settings = Res.ok self)
    {s : ValidStream D settings.upgradePolicy}
    (hdescribes : Describes settings s) (hmax : s.bytes.length ≤ isizeMax)
    (calls : List Call) (hcalls : calls.flatMap Call.bytes <+: s.bytes) :
    exists results self', Call.runAll C outputEnc calls self =
        .ret (results, self') ∧
      (forall res, res ∈ results -> Arises C outputEnc s res) ∧
      ((forall res, res ∈ results -> ¬ res.IsPanic) ->
        results.length = calls.length ∧
        exists k, Encoded C outputEnc s self.target
          (calls.flatMap Call.bytes).length k (results.flatMap Res.errors)
          self' ∧
        (results.getLast?.getD (Res.ok ()) = Res.ok () ->
          k = s.complete (calls.flatMap Call.bytes).length)) := by
  have hstart : Encoded C outputEnc s self.target 0 0 [] self :=
    ⟨holding_new hnew hdescribes, [], rfl, Tried.nil⟩
  have hpiece : s.bytes.take 0 ++ calls.flatMap Call.bytes <+: s.bytes := by
    rwa [List.take_zero, List.nil_append]
  have hrun := hstart.runAll hdebug hmax (Res.ok ())
    (fun _ => s.complete_zero.symm) calls hpiece
  rw [Nat.zero_add] at hrun
  exact hrun

/--
For every encoding and all settings, a stream that they describe may be written
in any pieces and flushed anywhere: every call returns.  Unless one of them
panics, each of the first so many items was encoded once, in order, with the
flushes in between; the calls fail with the errors of these and with no others,
and after a call that succeeds no complete item is left.  A panic is one of
encoding an item.
-/
theorem encodes_items_once (hdebug : ShowsRecord) (outputEnc : Encoding)
    (output : W) {settings : Settings D} {self : Inner B W D}
    (hnew : Inner.new C outputEnc output settings = Res.ok self)
    {s : ValidStream D settings.upgradePolicy}
    (hdescribes : Describes settings s) (hmax : s.bytes.length ≤ isizeMax)
    (calls : List Call) (hcalls : calls.flatMap Call.bytes <+: s.bytes) :
    exists results self', Call.runAll C outputEnc calls self =
        .ret (results, self') ∧
      (forall res, res ∈ results -> Arises C outputEnc s res) ∧
      ((forall res, res ∈ results -> ¬ res.IsPanic) ->
        results.length = calls.length ∧
        exists (k : Nat) (trace : List (Option (Item D))),
          trace.reduceOption = s.items.take k ∧
          Tried (act C outputEnc s) trace self.target
            (results.flatMap Res.errors) self'.target ∧
          k ≤ s.complete (calls.flatMap Call.bytes).length ∧
          (results.getLast?.getD (Res.ok ()) = Res.ok () ->
            k = s.complete (calls.flatMap Call.bytes).length)) := by
  rcases runAll_new hdebug hnew hdescribes hmax calls hcalls with
    ⟨results, self', hrun, hresults, hall⟩
  refine ⟨results, self', hrun, hresults, ?_⟩
  intro hpanics
  rcases hall hpanics with ⟨hcount, k, hencoded, hlast⟩
  rcases hencoded.tried with ⟨trace, htrace, htried⟩
  exact ⟨hcount, k, trace, htrace, htried, hencoded.holding.taken_le, hlast⟩

end New
end Transcoder

/-!
## A run
-/

namespace Transcoder

/-! Prices and times that are not pretty, and outputs that take all. -/
namespace Sample

open Lib

scoped instance : DebugRecord where
  record _ _ _ := ""
  recordRef _ := ""
  symbol _ := ""

scoped instance : TimeFormat where
  format _ := none

scoped instance : JsonWriter where
  json _ := compact

scoped instance : DropCsvWriter (List UInt8) (List UInt8) where
  fromWriter _ out := out
  writeField out _ := (Except.ok (), out)
  endRecord out := (Except.ok (), out)
  flush out := (Except.ok (), out)
  drop out := out

end Sample

section Example

open Lib Sample
open ValidStream (heartbeats)

local instance : FlushWrite Unit where
  writeAll out _ := (Except.ok (), out)
  flush out := (Except.ok (), out)

local instance : DropCsvWriter Unit Rows where
  drop _ := ()

/-- The settings with metadata in front and the default policy. -/
def withMetadata (D : Type) [LinearOrder D] : Inner.Settings D where
  prettyPx := true
  prettyTs := true
  mapSymbols := none
  hasMetadata := true
  tsOut := false
  symbolMap := none
  schema := none
  inputVersion := none
  upgradePolicy := .upgradeToV3

/-- Written in two pieces with a flush in between. -/
theorem encodes_items_once_heartbeats :
    exists results self', Call.runAll Rows .json
        [.write (heartbeats.bytes.take 100), .flush,
          .write (heartbeats.bytes.drop 100)]
        (⟨(DbnFsm.new DbnFsm.defaultBufSize 0 : DbnFsm VecBuffer),
          (withMetadata GregorianDate).target ()⟩) = .ret (results, self') ∧
      (forall res, res ∈ results -> Arises Rows .json heartbeats res) ∧
      ((forall res, res ∈ results -> ¬ res.IsPanic) ->
        results.length = 3 ∧
        exists (k : Nat) (trace : List (Option (Item GregorianDate))),
          trace.reduceOption = heartbeats.items.take k ∧
          Tried (act Rows .json heartbeats) trace
            ((withMetadata GregorianDate).target ())
            (results.flatMap Res.errors) self'.target ∧
          k ≤ heartbeats.complete heartbeats.bytes.length ∧
          (results.getLast?.getD (Res.ok ()) = Res.ok () ->
            k = heartbeats.complete heartbeats.bytes.length)) := by
  have hbytes : [Call.write (heartbeats.bytes.take 100), .flush,
      .write (heartbeats.bytes.drop 100)].flatMap Call.bytes =
      heartbeats.bytes := by
    show heartbeats.bytes.take 100 ++ ([] ++
      (heartbeats.bytes.drop 100 ++ [])) = _
    rw [List.nil_append, List.append_nil, List.take_append_drop]
  have hnew : Inner.new Rows .json () (withMetadata GregorianDate) =
      Res.ok (⟨(DbnFsm.new DbnFsm.defaultBufSize 0 : DbnFsm VecBuffer),
        (withMetadata GregorianDate).target ()⟩ : Inner _ _ _) := rfl
  have hdescribes : Describes (withMetadata GregorianDate) heartbeats :=
    ⟨rfl, fun hnone => by cases hnone⟩
  have hdebug : ShowsRecord := fun _ _ => rfl
  have hpiece : [Call.write (heartbeats.bytes.take 100), .flush,
      .write (heartbeats.bytes.drop 100)].flatMap Call.bytes <+:
      heartbeats.bytes :=
    ⟨[], (List.append_nil _).trans hbytes⟩
  have h := encodes_items_once hdebug .json () hnew hdescribes
    (by decide +kernel) _ hpiece
  rw [hbytes] at h
  exact h

end Example
end Transcoder
end Dbn
