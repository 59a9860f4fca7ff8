import Dbn.Metadata.LiveSymbols
import Dbn.Python.TranscodeText

/-!
# Transcoding to JSON

Each record becomes a line.  In a live stream the line of a record has the last
symbol that was announced for its instrument.
-/

namespace Dbn
namespace Transcoder

open Lib
open Cli (Encoding)
open Lib.WriteM (mapErr focus)

variable {B C D : Type}

/-!
## Lines
-/

section Json

variable [DebugRecord] [TimeFormat] [JsonWriter] [LinearOrder D]
  [DayCalendar D]

/-- The line of a struct. -/
def jsonStruct (usePrettyPx usePrettyTs tsOut : Bool)
    (column : Option (Option Str)) (t : RecordType) (memory : List UInt8) :
    Json.Text :=
  let symbol :=
    match column with
    | none => []
    | some symbol => [("symbol",
        ((symbol.map Str.bytes).map Json.Doc.string).getD .null)]
  JsonWriter.json false (.object (Json.Members.ofList
    (JsonSerialize.toJson usePrettyPx usePrettyTs t tsOut memory ++ symbol)))
    ++ [0x0A]

/-- The line of a record; one of an unknown type has none. -/
def jsonLine (usePrettyPx usePrettyTs tsOut : Bool)
    (column : Option (Option Str)) (bytes : List UInt8) : Json.Text :=
  match HasRtype.rtype (⟨bytes⟩ : RecordRef) with
  | Except.error _ => []
  | Except.ok rtype =>
      let t := rtype.dispatch (recordSize bytes)
      jsonStruct usePrettyPx usePrettyTs tsOut column t
        (bytes.take (t.size + tsOutLen tsOut))

def jsonTexts (usePrettyPx usePrettyTs tsOut : Bool) : Texts UInt8 where
  header _ := []
  record _ := jsonLine usePrettyPx usePrettyTs tsOut

/-- The call that encodes a struct, with a symbol or without. -/
def encodeJsonStruct (column : Option (Option Str)) :
    RecordType -> Bool -> List UInt8 ->
      WriteM (JsonEncoder.Encoder (List UInt8)) Error Unit :=
  match column with
  | none => JsonEncoder.encodeRecord
  | some symbol => JsonEncoder.encodeRecordWithSym (symbol.map Str.bytes)

theorem encodeJsonStruct_new (column : Option (Option Str)) (t : RecordType)
    (tsOut : Bool) (memory out : List UInt8)
    (usePrettyPx usePrettyTs : Bool) :
    (encodeJsonStruct column t tsOut memory
      (JsonEncoder.Encoder.new out false usePrettyPx usePrettyTs)) =
      (Res.ok (), JsonEncoder.Encoder.new (out ++
        jsonStruct usePrettyPx usePrettyTs tsOut column t memory) false
          usePrettyPx usePrettyTs) := by
  cases column with
  | none =>
      unfold jsonStruct
      dsimp only
      rw [List.append_nil]
      rfl
  | some symbol => rfl

/-- A new encoder over the output, which gets it back. -/
def encodingJson (call : WriteM (JsonEncoder.Encoder (List UInt8)) Error Unit) :
    WriteM (Target (List UInt8) D) Error Unit :=
  focus (fun self => JsonEncoder.Encoder.new self.output false
      self.usePrettyPx self.usePrettyTs)
    (fun self encoder => { self with output := encoder.writer }) call

omit [DayCalendar D] in
theorem encodingJson_cases (column : Option (Option Str)) {tsOut : Bool}
    {bytes : List UInt8} {target target' : Target (List UInt8) D}
    {res : Result Unit}
    (h : encodingJson (rtypeDispatch (encodeJsonStruct column) tsOut ⟨bytes⟩)
      target = (res, target')) (hpanic : ¬ res.IsPanic) :
    target' = { target with
      output := target.output ++ jsonLine target.usePrettyPx
        target.usePrettyTs tsOut column bytes } := by
  unfold encodingJson focus at h
  generalize hcall : rtypeDispatch (encodeJsonStruct column) tsOut ⟨bytes⟩
    (JsonEncoder.Encoder.new target.output false target.usePrettyPx
      target.usePrettyTs) = call at h
  rcases call with ⟨res', encoder⟩
  cases h
  unfold jsonLine
  rcases rtypeDispatch_cases hcall hpanic with
    ⟨e, hrtype, rfl⟩ | ⟨rtype, hrtype, hencode⟩
  · rw [hrtype]
    dsimp only
    rw [List.append_nil]
    rfl
  · rw [encodeJsonStruct_new] at hencode
    cases hencode
    rw [hrtype]
    rfl

theorem encodeJson_view {usePrettyPx usePrettyTs mapSymbols tsOut : Bool}
    {bytes : List UInt8} {target target' : Target (List UInt8) D}
    {res : Result Unit}
    (huses : Uses usePrettyPx usePrettyTs mapSymbols target)
    (h : Target.encodeJson tsOut ⟨bytes⟩ target = (res, target'))
    (hpanic : ¬ res.IsPanic) :
    Uses usePrettyPx usePrettyTs mapSymbols target' ∧
      viewOf id target' = (viewOf id target).step
        (jsonTexts usePrettyPx usePrettyTs tsOut) mapSymbols
        (.record bytes) := by
  cases huses with
  | mk hpx hts hmap =>
  subst hpx hts hmap
  unfold Target.encodeJson at h
  dsimp only at h
  by_cases hmap : target.mapSymbols = true
  swap
  · have hfalse := Bool.eq_false_iff.mpr hmap
    rw [if_neg hmap] at h
    have heq := encodingJson_cases none h hpanic
    subst heq
    refine ⟨⟨rfl, rfl, rfl⟩, ?_⟩
    unfold viewOf View.step SymbolMap.next SymbolMap.column
    rw [hfalse]
    rfl
  rw [if_pos hmap] at h
  rcases WriteM.bind_cases h with ⟨_, target₁, hupdate, hencode⟩ |
    ⟨e, hupdate, rfl⟩ | ⟨p, hupdate, rfl⟩
  · unfold Target.onSymbolMap focus at hupdate
    generalize hlive : (SymbolMap.updateLive ⟨bytes⟩ target.symbolMap :
      Result Unit × SymbolMap D) = updated at hupdate
    rcases updated with ⟨res', map⟩
    cases hupdate
    rcases updateLive_cases hlive (Res.ok_not_isPanic _) with ⟨_, rfl⟩
    dsimp only at hencode
    cases hget : (target.symbolMap.next true bytes).getForRec ⟨bytes⟩ with
    | error p =>
        rw [hget] at hencode
        cases hencode
        exact absurd (Res.panic_isPanic p) hpanic
    | ok symbol =>
        rw [hget] at hencode
        have heq := encodingJson_cases (some symbol) hencode hpanic
        subst heq
        refine ⟨⟨rfl, rfl, rfl⟩, ?_⟩
        have hcolumn : (target.symbolMap.next true bytes).column true bytes =
            some symbol := by
          unfold SymbolMap.column
          rw [if_pos rfl, hget]
          rfl
        unfold viewOf View.step
        dsimp only
        rw [hmap, hcolumn]
        rfl
  · unfold Target.onSymbolMap focus at hupdate
    generalize hlive : (SymbolMap.updateLive ⟨bytes⟩ target.symbolMap :
      Result Unit × SymbolMap D) = updated at hupdate
    rcases updated with ⟨res', map⟩
    cases hupdate
    rcases updateLive_cases hlive (Res.err_not_isPanic e) with ⟨hok, _⟩
    cases hok
  · exact absurd (Res.panic_isPanic p) hpanic

variable [CalendarDate D] [DropCsvWriter (List UInt8) C]
  {policy : VersionUpgradePolicy}

theorem act_json_view (s : ValidStream D policy)
    {usePrettyPx usePrettyTs mapSymbols : Bool} {item : Option (Item D)}
    {target target' : Target (List UInt8) D} {res : Res PyErr Unit}
    (h : act C .json s item target = (res, target'))
    (hpanic : ¬ res.IsPanic)
    (huses : Uses usePrettyPx usePrettyTs mapSymbols target) :
    Uses usePrettyPx usePrettyTs mapSymbols target' ∧
      viewOf id target' = (viewOf id target).stepOption
        (jsonTexts usePrettyPx usePrettyTs s.tsOut) mapSymbols item := by
  cases item with
  | none =>
      cases h
      exact ⟨huses, rfl⟩
  | some item =>
  cases item with
  | record bytes =>
      have hcall : mapErr PyErr.dbn (Target.encodeJson s.tsOut ⟨bytes⟩)
          target = (res, target') := h
      unfold mapErr at hcall
      generalize hout : Target.encodeJson s.tsOut ⟨bytes⟩ target = out
        at hcall
      rcases out with ⟨res', target''⟩
      cases hcall
      exact encodeJson_view huses hout
        (fun hp => hpanic (Res.mapErr_isPanic.mpr hp))
  | metadata m =>
      cases huses with
      | mk hpx hts hmap =>
      subst hpx hts hmap
      have hcall : Target.encodeMetadata C .json s.tsOut policy
          (some s.version) m target = (res, target') := h
      unfold View.stepOption View.step viewOf
      dsimp only [Option.elim]
      rcases encodeMetadata_cases (by decide) hcall hpanic with
        ⟨map, hmap, hheader⟩ | ⟨e, hmap, rfl⟩
      · cases hheader
        refine ⟨⟨rfl, rfl, rfl⟩, ?_⟩
        rw [hmap]
        dsimp only
        rw [show (jsonTexts target.usePrettyPx target.usePrettyTs
          s.tsOut).header (target.schema.or m.schema) = [] from rfl,
          List.append_nil]
        rfl
      · refine ⟨⟨rfl, rfl, rfl⟩, ?_⟩
        rw [hmap]

end Json

/-!
## Live streams
-/

section Live

variable [Buffer B] [LawfulBuffer B] [DebugRecord] [TimeFormat] [JsonWriter]
  [CalendarDate D] [LawfulCalendarDate D] [LinearOrder D] [DayCalendar D]
  [DropCsvWriter (List UInt8) C]

/-- The records of a live stream: their symbols end inside their fields. -/
def LiveRecords {policy : VersionUpgradePolicy} (s : ValidStream D policy) :
    Prop :=
  forall rec, rec ∈ s.records ->
    DbnFsm.VersionRecord s.version s.tsOut rec ∧ SymbolEnds rec

/--
A live stream that is transcoded to JSON with symbols, written in any pieces
and flushed anywhere: every call returns, and unless one panics the output
grows by one line for each record that was tried and has a known type.  Its
symbol is the last one that the records up to it announced for the instrument.
No complete record is left after a call that succeeds.
-/
theorem json_live_output (hdebug : ShowsRecord) (output : List UInt8)
    {settings : Inner.Settings D} {self : Inner B (List UInt8) D}
    (hnew : Inner.new C .json output settings = Res.ok self)
    (hmapSymbols : settings.mapSymbols.getD true = true)
    {s : ValidStream D settings.upgradePolicy}
    (hdescribes : Describes settings s) {m : Metadata D}
    (hmetadata : s.metadata = some m) (hlive : m.schema = none)
    (hrecords : LiveRecords s) (hmax : s.bytes.length ≤ isizeMax)
    (calls : List Call) (hcalls : calls.flatMap Call.bytes <+: s.bytes) :
    exists results self', Call.runAll C .json calls self =
        .ret (results, self') ∧
      ((forall res, res ∈ results -> ¬ res.IsPanic) -> exists j,
        self'.target.output = output ++
          (liveSymbols [] (s.records.take j)).flatMap (fun record =>
            jsonLine settings.prettyPx settings.prettyTs s.tsOut
              (some record.1) (s.image record.2)) ∧
        (results.getLast?.getD (Res.ok ()) = Res.ok () ->
          j = ValidStream.completeRecords s.records
            ((calls.flatMap Call.bytes).length - s.head.length))) := by
  rcases runAll_new hdebug hnew hdescribes hmax calls hcalls with
    ⟨results, self', hrun, _, hall⟩
  refine ⟨results, self', hrun, ?_⟩
  intro hpanics
  rcases hall hpanics with ⟨_, k, hencoded, hlast⟩
  rcases hencoded.tried with ⟨trace, htrace, htried⟩
  have htarget := target_new (by decide) hnew
  have huses : Uses settings.prettyPx settings.prettyTs true self.target := by
    rw [htarget]
    exact ⟨rfl, rfl, hmapSymbols⟩
  have hview := (htried.foldl_view (fun item _ target res target' h hpanic
    hP => act_json_view s h hpanic hP) huses).2
  rw [View.foldl_stepOption, htrace] at hview
  have hlead := (s.head_of_some hmetadata).2
  refine ⟨k - 1, ?_, fun hok => by
    rw [hlast hok, ← hlead, s.complete_sub_lead]⟩
  have houtput : (viewOf id self.target).seen = output := by
    rw [htarget]
    rfl
  show (viewOf id self'.target).seen = _
  rw [hview]
  cases k with
  | zero =>
      rw [List.take_zero, Nat.zero_sub, List.take_zero, List.foldl_nil,
        houtput]
      exact (List.append_nil _).symm
  | succ j =>
      have hsymbols : View.symbolsOf s true self.target.symbolMap =
          Res.ok (.live ∅ : SymbolMap D) := by
        rw [View.symbolsOf_some hmetadata]
        unfold symbolsAfter
        rw [Metadata.upgrade_schema, hlive]
        rfl
      have hlive : withSymbols (D := D) true (.live ∅)
          ((s.records.take j).map s.image) =
          (liveSymbols [] (s.records.take j)).map
            (fun record => (some record.1, s.image record.2)) :=
        withSymbols_live (fun iid => rfl) (fun rec hrec => by
          rcases hrecords rec (List.mem_of_mem_take hrec) with ⟨hrec, hends⟩
          exact ⟨fitsMapping_upgradedImage hrec _,
            announced_upgradedImage hrec _ hends,
            instrumentId_upgradedImage hrec _⟩)
      have hseen := View.foldl_items s (jsonTexts settings.prettyPx
        settings.prettyTs s.tsOut) true (viewOf id self.target) hsymbols j
      have hheader : (if s.metadata.isSome then
          (jsonTexts settings.prettyPx settings.prettyTs s.tsOut).header
            ((viewOf id self.target).schemaOf s) else []) = [] := by
        split <;> rfl
      rw [hlead, Nat.add_comm, houtput, hheader, List.append_nil, hlive,
        List.flatMap_map] at hseen
      exact hseen

end Live
end Transcoder

namespace Transcoder

section Example

open Sample
open Lib

theorem liveRecords_liveStream : LiveRecords liveStream := by
  unfold LiveRecords
  decide +kernel

theorem json_live_output_mappingAndTrade :
    exists results self', Call.runAll (List UInt8) .json
        [.write liveStream.bytes]
        (⟨(DbnFsm.new DbnFsm.defaultBufSize 0 : DbnFsm VecBuffer),
          (withMetadata GregorianDate).target []⟩) = .ret (results, self') ∧
      ((forall res, res ∈ results -> ¬ res.IsPanic) -> exists j,
        self'.target.output = [] ++
          (liveSymbols [] (liveStream.records.take j)).flatMap (fun record =>
            jsonLine true true false (some record.1)
              (liveStream.image record.2)) ∧
        (results.getLast?.getD (Res.ok ()) = Res.ok () ->
          j = ValidStream.completeRecords liveStream.records
            (liveStream.bytes.length - liveStream.head.length))) := by
  have hdebug : ShowsRecord := fun _ _ => rfl
  have hnew : Inner.new (List UInt8) .json [] (withMetadata GregorianDate) =
      Res.ok (⟨(DbnFsm.new DbnFsm.defaultBufSize 0 : DbnFsm VecBuffer),
        (withMetadata GregorianDate).target []⟩ : Inner _ _ _) := rfl
  have hdescribes : Describes (withMetadata GregorianDate) liveStream :=
    ⟨rfl, fun hnone => by cases hnone⟩
  have hbytes : [Call.write liveStream.bytes].flatMap Call.bytes =
      liveStream.bytes := List.append_nil _
  have hpiece : [Call.write liveStream.bytes].flatMap Call.bytes <+:
      liveStream.bytes :=
    ⟨[], (List.append_nil _).trans hbytes⟩
  have h := json_live_output hdebug [] hnew rfl hdescribes rfl rfl
    liveRecords_liveStream (by decide +kernel) _ hpiece
  rw [hbytes] at h
  exact h

end Example
end Transcoder
end Dbn
