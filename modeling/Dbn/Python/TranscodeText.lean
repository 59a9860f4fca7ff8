import Dbn.Metadata.LiveSymbols
import Dbn.Python.TranscoderRuns

/-!
# Transcoding to text

Each record that is transcoded adds a text to the output, and metadata may add
a header.  The text has the symbol that the map has for the record after the
map was updated from it.
-/

namespace Dbn

theorem Metadata.upgrade_schema {D : Type} (m : Metadata D)
    (policy : VersionUpgradePolicy) : (m.upgrade policy).schema = m.schema := by
  unfold upgrade
  split
  · cases policy <;> rfl
  · split <;> rfl

namespace Transcoder

open Lib
open Cli (Encoding)
open Lib.WriteM (mapErr focus)

variable {B W C D β : Type}

/-!
## Symbols of records
-/

section Symbols

variable [LinearOrder D] [DayCalendar D]

/-- The map after a record. -/
def SymbolMap.next (mapSymbols : Bool) (map : SymbolMap D)
    (bytes : List UInt8) : SymbolMap D :=
  if mapSymbols then
    (SymbolMap.updateLive ⟨bytes⟩ map : Result Unit × SymbolMap D).2
  else map

/-- The value of the symbol column, if there is one. -/
def SymbolMap.column (mapSymbols : Bool) (map : SymbolMap D)
    (bytes : List UInt8) : Option (Option Str) :=
  if mapSymbols then some (map.getForRec ⟨bytes⟩).toOption.join else none

/-- The records with their symbol columns. -/
def withSymbols (mapSymbols : Bool) :
    SymbolMap D -> List (List UInt8) ->
      List (Option (Option Str) × List UInt8)
  | _, [] => []
  | map, bytes :: rest =>
      let map := map.next mapSymbols bytes
      (map.column mapSymbols bytes, bytes) :: withSymbols mapSymbols map rest

/-- The map after the metadata. -/
def symbolsAfter (mapSymbols : Bool) (map : SymbolMap D)
    (metadata : Metadata D) : Result (SymbolMap D) :=
  if mapSymbols then
    if metadata.schema.isSome then
      if map.isEmpty then SymbolMap.ofMetadata metadata else Res.ok map
    else Res.ok (.live ∅)
  else Res.ok map

end Symbols

/-!
## What is seen of an output
-/

/-- What the items have made of the output. -/
structure View (D β : Type) [LinearOrder D] where
  schema : Option Schema
  symbolMap : SymbolMap D
  seen : List β

/-- The texts of an encoding. -/
structure Texts (β : Type) where
  header : Option Schema -> List β
  record : Option Schema -> Option (Option Str) -> List UInt8 -> List β

namespace View

variable [LinearOrder D] [DayCalendar D]

/-- What an item adds. -/
def step (texts : Texts β) (mapSymbols : Bool) (view : View D β) :
    Item D -> View D β
  | .metadata m =>
      let schema := view.schema.or m.schema
      match symbolsAfter mapSymbols view.symbolMap m with
      | Res.ok map =>
          { schema := schema
            symbolMap := map
            seen := view.seen ++ texts.header schema }
      | _ => { view with schema := schema }
  | .record bytes =>
      let map := view.symbolMap.next mapSymbols bytes
      { view with
        symbolMap := map
        seen := view.seen ++
          texts.record view.schema (map.column mapSymbols bytes) bytes }

def stepOption (texts : Texts β) (mapSymbols : Bool) (view : View D β)
    (item : Option (Item D)) : View D β :=
  item.elim view (view.step texts mapSymbols)

theorem foldl_stepOption (texts : Texts β) (mapSymbols : Bool)
    (view : View D β) (trace : List (Option (Item D))) :
    trace.foldl (stepOption texts mapSymbols) view =
      trace.reduceOption.foldl (step texts mapSymbols) view := by
  induction trace generalizing view with
  | nil => rfl
  | cons item rest ih =>
      cases item with
      | none =>
          rw [List.reduceOption_cons_of_none]
          exact ih view
      | some item =>
          rw [List.reduceOption_cons_of_some]
          exact ih _

theorem foldl_records (texts : Texts β) (mapSymbols : Bool)
    (view : View D β) (records : List (List UInt8)) :
    ((records.map Item.record).foldl (step texts mapSymbols) view).seen =
      view.seen ++ (withSymbols mapSymbols view.symbolMap records).flatMap
        (fun record => texts.record view.schema record.1 record.2) := by
  induction records generalizing view with
  | nil => exact (List.append_nil _).symm
  | cons bytes rest ih =>
      have hsplit : withSymbols mapSymbols view.symbolMap (bytes :: rest) =
          ((view.symbolMap.next mapSymbols bytes).column mapSymbols bytes,
            bytes) :: withSymbols mapSymbols
              (view.symbolMap.next mapSymbols bytes) rest := rfl
      rw [List.map_cons, List.foldl_cons, ih, hsplit, List.flatMap_cons,
        ← List.append_assoc]
      rfl

variable [CalendarDate D] {policy : VersionUpgradePolicy}

/-- The schema after the metadata. -/
def schemaOf (s : ValidStream D policy) (view : View D β) : Option Schema :=
  view.schema.or (s.metadata.bind Metadata.schema)

/-- The map after the metadata. -/
def symbolsOf (s : ValidStream D policy) (mapSymbols : Bool)
    (map : SymbolMap D) : Result (SymbolMap D) :=
  match s.metadata with
  | none => Res.ok map
  | some m => symbolsAfter mapSymbols map (m.upgrade policy)

theorem symbolsOf_none {s : ValidStream D policy}
    (hmetadata : s.metadata = none) (mapSymbols : Bool) (map : SymbolMap D) :
    symbolsOf s mapSymbols map = Res.ok map := by
  unfold symbolsOf
  rw [hmetadata]

theorem symbolsOf_some {s : ValidStream D policy} {m : Metadata D}
    (hmetadata : s.metadata = some m) (mapSymbols : Bool)
    (map : SymbolMap D) :
    symbolsOf s mapSymbols map =
      symbolsAfter mapSymbols map (m.upgrade policy) := by
  unfold symbolsOf
  rw [hmetadata]

/-- What the first items of a stream make of an output. -/
theorem foldl_items (s : ValidStream D policy) (texts : Texts β)
    (mapSymbols : Bool) (view : View D β) {map : SymbolMap D}
    (hmap : symbolsOf s mapSymbols view.symbolMap = Res.ok map) (j : Nat) :
    ((s.items.take (s.lead + j)).foldl (step texts mapSymbols) view).seen =
      view.seen ++
        (if s.metadata.isSome then texts.header (schemaOf s view) else []) ++
        (withSymbols mapSymbols map ((s.records.take j).map s.image)).flatMap
          (fun record =>
            texts.record (schemaOf s view) record.1 record.2) := by
  have hitems : s.items.take (s.lead + j) =
      s.metadata.toList.map (fun m => .metadata (m.upgrade policy)) ++
        ((s.records.take j).map s.image).map .record := by
    unfold ValidStream.items ValidStream.lead
    rw [← List.length_map (fun m => Item.metadata (m.upgrade policy)),
      List.take_length_add_append, ← List.map_take, List.map_map]
    rfl
  rw [hitems, List.foldl_append, foldl_records]
  unfold schemaOf
  cases hmetadata : s.metadata with
  | none =>
      rw [symbolsOf_none hmetadata] at hmap
      cases hmap
      simp
  | some m =>
      rw [symbolsOf_some hmetadata] at hmap
      have hstep : view.step texts mapSymbols (.metadata (m.upgrade policy)) =
          { schema := view.schema.or m.schema
            symbolMap := map
            seen := view.seen ++ texts.header (view.schema.or m.schema) } := by
        unfold step
        dsimp only
        rw [hmap, Metadata.upgrade_schema]
      have hfirst : (Option.toList (some m)).map (fun m =>
          Item.metadata (m.upgrade policy)) =
          [.metadata (m.upgrade policy)] := rfl
      rw [hfirst, List.foldl_cons, List.foldl_nil, hstep]
      rfl

end View

/-!
## Targets
-/

section Targets

variable [LinearOrder D]

/-- The settings of a target that do not change. -/
structure Uses (usePrettyPx usePrettyTs mapSymbols : Bool)
    (target : Target W D) : Prop where
  usePrettyPx : target.usePrettyPx = usePrettyPx
  usePrettyTs : target.usePrettyTs = usePrettyTs
  mapSymbols : target.mapSymbols = mapSymbols

/-- What is seen of a target. -/
def viewOf (seen : W -> List β) (target : Target W D) : View D β where
  schema := target.schema
  symbolMap := target.symbolMap
  seen := seen target.output

variable [DayCalendar D]

/-- The maps of a target that takes the symbols of metadata. -/
theorem takeSymbols_cases {metadata : Metadata D} {res : Res PyErr Unit}
    {target target' : Target W D}
    (h : Target.takeSymbols metadata target = (res, target'))
    (hpanic : ¬ res.IsPanic) :
    (exists map, symbolsAfter target.mapSymbols target.symbolMap metadata =
        Res.ok map ∧ res = Res.ok () ∧
        target' = { target with symbolMap := map }) ∨
    (exists e, symbolsAfter target.mapSymbols target.symbolMap metadata =
        Res.err e ∧ res = Res.err (.dbn e) ∧ target' = target) := by
  unfold Target.takeSymbols at h
  unfold symbolsAfter
  split at h
  swap
  · next hmap =>
      rw [if_neg hmap]
      cases h
      exact Or.inl ⟨_, rfl, rfl, rfl⟩
  next hmap =>
  rw [if_pos hmap]
  split at h
  swap
  · next hschema =>
      rw [if_neg hschema]
      cases h
      exact Or.inl ⟨_, rfl, rfl, rfl⟩
  next hschema =>
  rw [if_pos hschema]
  split at h
  swap
  · next hempty =>
      rw [if_neg hempty]
      cases h
      exact Or.inl ⟨_, rfl, rfl, rfl⟩
  next hempty =>
  rw [if_pos hempty]
  unfold Target.onSymbolMap focus at h
  cases hread : SymbolMap.ofMetadata metadata with
  | ok map =>
      rw [hread] at h
      cases h
      exact Or.inl ⟨map, rfl, rfl, rfl⟩
  | err e =>
      rw [hread] at h
      cases h
      exact Or.inr ⟨e, rfl, rfl, rfl⟩
  | panic p =>
      rw [hread] at h
      cases h
      exact absurd (Res.panic_isPanic p) hpanic

/-- Metadata that is transcoded to text. -/
theorem encodeMetadata_cases [FlushWrite W] [DropCsvWriter W C]
    [CalendarDate D] {outputEnc : Encoding} (hdbn : outputEnc ≠ .dbn)
    {tsOut : Bool} {policy : VersionUpgradePolicy} {version : Option Nat}
    {metadata : Metadata D} {res : Res PyErr Unit}
    {target target' : Target W D}
    (h : Target.encodeMetadata C outputEnc tsOut policy version metadata
      target = (res, target')) (hpanic : ¬ res.IsPanic) :
    (exists map, symbolsAfter target.mapSymbols target.symbolMap metadata =
        Res.ok map ∧
      Target.onOutput (Target.encodeHeaderIfCsv C outputEnc
        target.usePrettyPx target.usePrettyTs tsOut target.mapSymbols policy
        version (target.schema.or metadata.schema))
        { target with
          schema := target.schema.or metadata.schema
          symbolMap := map } = (res, target')) ∨
    (exists e, symbolsAfter target.mapSymbols target.symbolMap metadata =
        Res.err e ∧
      target' =
        { target with schema := target.schema.or metadata.schema }) := by
  have hschema : Target.setSchema metadata.schema target = (Res.ok (),
      { target with schema := target.schema.or metadata.schema }) := rfl
  unfold Target.encodeMetadata at h
  have hrest : (Target.takeSymbols metadata >>= fun _ self =>
      Target.onOutput (Target.encodeHeaderIfCsv C outputEnc self.usePrettyPx
        self.usePrettyTs tsOut self.mapSymbols policy version self.schema)
        self) { target with schema := target.schema.or metadata.schema } =
      (res, target') := by
    cases outputEnc with
    | dbn => exact absurd rfl hdbn
    | csv => exact (WriteM.bind_of_ok hschema).symm.trans h
    | json => exact (WriteM.bind_of_ok hschema).symm.trans h
  rcases WriteM.bind_cases hrest with ⟨_, target₁, htake, hheader⟩ |
    ⟨e, htake, rfl⟩ | ⟨p, htake, rfl⟩
  · rcases takeSymbols_cases htake (Res.ok_not_isPanic _) with
      ⟨map, hmap, _, rfl⟩ | ⟨e, _, hres, _⟩
    · exact Or.inl ⟨map, hmap, hheader⟩
    · cases hres
  · rcases takeSymbols_cases htake (Res.err_not_isPanic _) with
      ⟨map, _, hres, _⟩ | ⟨e, hmap, _, rfl⟩
    · cases hres
    · exact Or.inr ⟨e, hmap, rfl⟩
  · exact absurd (Res.panic_isPanic p) hpanic

omit [DayCalendar D] in
/-- The map of a target that is updated from a record. -/
theorem updateLive_cases {ε : Type} {record : RecordRef} {res : Res ε Unit}
    {map map' : SymbolMap D}
    (h : SymbolMap.updateLive record map = (res, map'))
    (hpanic : ¬ res.IsPanic) :
    res = Res.ok () ∧ map' = map.next true record.bytes := by
  unfold SymbolMap.next
  rw [if_pos rfl]
  cases map with
  | historical map =>
      cases h
      exact ⟨rfl, rfl⟩
  | live map =>
      unfold SymbolMap.updateLive at h ⊢
      dsimp only at h ⊢
      cases hcall : PitSymbolMap.onRecord record map with
      | mk res' after =>
          rw [hcall] at h
          cases res' with
          | panic p =>
              cases h
              exact absurd (Res.panic_isPanic p) hpanic
          | ok u =>
              cases h
              exact ⟨rfl, rfl⟩
          | err e =>
              cases h
              exact ⟨rfl, rfl⟩

end Targets

/-!
## Records by their type
-/

/-- A record of a known type is as long as its struct, or the call panics. -/
theorem rtypeDispatch_cases {E : Type}
    {encodeRecord : RecordType -> Bool -> List UInt8 -> WriteM E Error Unit}
    {tsOut : Bool} {record : RecordRef} {res : Result Unit} {self self' : E}
    (h : rtypeDispatch encodeRecord tsOut record self = (res, self'))
    (hpanic : ¬ res.IsPanic) :
    (exists e, HasRtype.rtype record = Except.error e ∧ self' = self) ∨
    exists rtype, HasRtype.rtype record = Except.ok rtype ∧
      encodeRecord (rtype.dispatch (recordSize record.bytes)) tsOut
        (record.bytes.take ((rtype.dispatch (recordSize record.bytes)).size +
          tsOutLen tsOut)) self = (res, self') := by
  unfold rtypeDispatch at h
  cases hrtype : HasRtype.rtype record with
  | error e =>
      rw [hrtype] at h
      cases h
      exact Or.inl ⟨e, rfl, rfl⟩
  | ok rtype =>
      rw [hrtype] at h
      dsimp only at h
      rw [RecordRef.getAs_dispatch hrtype] at h
      by_cases hfits : record.Fits rtype tsOut
      · rw [if_pos hfits] at h
        exact Or.inr ⟨rtype, rfl, h⟩
      · rw [if_neg hfits] at h
        cases h
        exact absurd (Res.panic_isPanic _) hpanic

/-!
## Symbols of a live stream
-/

section Live

variable [LinearOrder D] [DayCalendar D]

/-- The last symbol that was announced for an instrument. -/
def lastSymbol (records : List (List UInt8)) (iid : UInt32) : Option Str :=
  HashMap.lastValue (records.flatMap (fun rec => (announced rec).toList)) iid

/-- Each record with the last symbol that was announced up to it. -/
def liveSymbols (before : List (List UInt8)) :
    List (List UInt8) -> List (Option Str × List UInt8)
  | [] => []
  | rec :: rest =>
      (lastSymbol (before ++ [rec]) (RecordRef.instrumentId ⟨rec⟩), rec) ::
        liveSymbols (before ++ [rec]) rest

omit [DayCalendar D] in
theorem next_live (map : PitSymbolMap) (bytes : List UInt8) :
    (SymbolMap.live map : SymbolMap D).next true bytes =
      .live (PitSymbolMap.onRecord ⟨bytes⟩ map).2 := by
  unfold SymbolMap.next SymbolMap.updateLive
  rw [if_pos rfl]
  dsimp only
  cases PitSymbolMap.onRecord ⟨bytes⟩ map with
  | mk res after => cases res <;> rfl

theorem lastSymbol_append (before : List (List UInt8)) (rec : List UInt8)
    (iid : UInt32) : lastSymbol (before ++ [rec]) iid =
      (HashMap.lastValue (announced rec).toList iid).or
        (lastSymbol before iid) := by
  unfold lastSymbol
  rw [List.flatMap_append, HashMap.lastValue_append, List.flatMap_cons,
    List.flatMap_nil, List.append_nil]

/-- The symbols of a live map are those that the records announce. -/
theorem withSymbols_live {image : List UInt8 -> List UInt8}
    {before records : List (List UInt8)} {map : PitSymbolMap}
    (hmap : forall iid, map.get iid = lastSymbol before iid)
    (hrecords : forall rec, rec ∈ records -> FitsMapping (image rec) ∧
      announced (image rec) = announced rec ∧
      Conversion.instrumentId (image rec) = Conversion.instrumentId rec) :
    withSymbols (D := D) true (.live map) (records.map image) =
      (liveSymbols before records).map
        (fun record => (some record.1, image record.2)) := by
  induction records generalizing before map with
  | nil => rfl
  | cons rec rest ih =>
      rw [List.forall_mem_cons] at hrecords
      rcases hrecords.1 with ⟨hfits, hannounced, hid⟩
      have hnext : forall iid,
          (PitSymbolMap.onRecord ⟨image rec⟩ map).2.get iid =
            lastSymbol (before ++ [rec]) iid := by
        intro iid
        rw [PitSymbolMap.get_onRecord hfits, hmap, lastSymbol_append,
          hannounced]
      have hiid : RecordRef.instrumentId ⟨image rec⟩ =
          RecordRef.instrumentId ⟨rec⟩ := congrArg UInt32.ofNat hid
      have hcolumn : SymbolMap.column (D := D) true
          (.live (PitSymbolMap.onRecord ⟨image rec⟩ map).2) (image rec) =
          some (lastSymbol (before ++ [rec])
            (RecordRef.instrumentId ⟨rec⟩)) := by
        rw [← hiid, ← hnext]
        rfl
      rw [List.map_cons]
      unfold withSymbols liveSymbols
      dsimp only
      rw [next_live, hcolumn, ih hnext hrecords.2]
      rfl

end Live
/-!
## A stream
-/

/-- A live stream, which has no schema. -/
def liveStream :
    ValidStream GregorianDate (withMetadata GregorianDate).upgradePolicy where
  metadata := some { DbnFsm.sampleMetadata 1 22 with schema := none }
  version := 1
  tsOut := false
  records := mappingAndTrade
  encodable m hm := by
    cases hm
    decide +kernel
  compatible := by decide
  wellFormed := by decide +kernel

end Transcoder
end Dbn
