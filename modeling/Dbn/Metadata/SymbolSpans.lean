import Dbn.Metadata.SymbolIndex
import Dbn.Metadata.SymbolMapAgreement

/-!
# The timeseries map of metadata

The map has an entry for each day of each interval.  What it stands for is a
list of spans, in the order of the mappings: on a date an instrument has the
symbol of the last span that covers it.  The map is built for all metadata
whose spans can be read, and else the error is that of the first span that
cannot.
-/

namespace Dbn

open Lib

/-- Dates on which an instrument has a symbol. -/
structure Span (D : Type) where
  dates : HalfOpen D
  instrumentId : UInt32
  symbol : Str

variable {D : Type} [LinearOrder D]

/-- The symbol of the last span of an instrument that a date is in. -/
def lastSpan (spans : List (Span D)) (date : D) (instrumentId : UInt32) :
    Option Str :=
  HashMap.lastValue ((spans.filter (fun span => date ∈ span.dates)).map
    (fun span => (span.instrumentId, span.symbol))) instrumentId

theorem lastSpan_append (spans spans' : List (Span D)) (date : D)
    (iid : UInt32) : lastSpan (spans ++ spans') date iid =
      (lastSpan spans' date iid).or (lastSpan spans date iid) := by
  unfold lastSpan
  rw [List.filter_append, List.map_append, HashMap.lastValue_append]

theorem lastSpan_singleton (span : Span D) (date : D) (iid : UInt32) :
    lastSpan [span] date iid =
      if date ∈ span.dates ∧ iid = span.instrumentId then some span.symbol
      else none := by
  unfold lastSpan
  rw [List.filter_singleton]
  by_cases hdate : date ∈ span.dates
  · rw [decide_eq_true hdate, cond_true, List.map_singleton,
      HashMap.lastValue_cons]
    apply if_congr _ rfl rfl
    rw [and_iff_right hdate]
    exact eq_comm
  · rw [decide_eq_false hdate, if_neg (fun h => hdate h.1)]
    rfl

/-!
## The spans of metadata
-/

/-- The span of an interval; without a symbol it has none. -/
def SymbolMapping.span (inverse : Bool) (mapping : SymbolMapping D)
    (interval : MappingInterval D) : Except Error (List (Span D)) :=
  if interval.symbol.bytes = [] then Except.ok []
  else do
    let e ← mapping.entry inverse interval
    if interval.startDate ≤ interval.endDate then
      Except.ok [⟨interval.dates, e.1, e.2⟩]
    else Except.error (Error.badArgument "start_date"
      "start_date cannot come after end_date")

/-- The spans of some parts, one after the other. -/
def spansOf {α : Type} (spans : α -> Except Error (List (Span D)))
    (as : List α) : Except Error (List (Span D)) := do
  let parts ← as.mapM spans
  Except.ok parts.flatten

def SymbolMapping.spans (inverse : Bool) (mapping : SymbolMapping D) :
    Except Error (List (Span D)) :=
  if inverse then do
    let _ ← parseInstrumentId mapping.rawSymbol
    spansOf (mapping.span inverse) mapping.intervals
  else spansOf (mapping.span inverse) mapping.intervals

def Metadata.spans (metadata : Metadata D) : Except Error (List (Span D)) := do
  let inverse ← isInverse metadata
  spansOf (SymbolMapping.spans inverse) metadata.mappings

omit [LinearOrder D] in
theorem spansOf_cons {α : Type} (spans : α -> Except Error (List (Span D)))
    (a : α) (as : List α) : spansOf spans (a :: as) = (do
      let first ← spans a
      let rest ← spansOf spans as
      Except.ok (first ++ rest)) := by
  unfold spansOf
  rw [List.mapM_cons]
  cases spans a with
  | error e => rfl
  | ok first =>
      cases as.mapM spans with
      | error e => rfl
      | ok parts => rfl

/-!
## Adding spans to a map
-/

namespace TsSymbolMap

/-- A computation adds spans to a map, or fails with their error. -/
def Adds (self : TsSymbolMap D) :
    Except Error (List (Span D)) -> ExceptT Error Outcome (TsSymbolMap D) ->
      Prop
  | Except.ok spans, out => exists res, out = pure res ∧
      forall date iid, res.get date iid =
        (lastSpan spans date iid).or (self.get date iid)
  | Except.error e, out => out = throw e

variable {self : TsSymbolMap D}

theorem adds_nil (self : TsSymbolMap D) : Adds self (Except.ok []) (pure self) :=
  ⟨self, rfl, fun _ _ => rfl⟩

/-- Spans are read, and the rest is computed, in order. -/
theorem Adds.bind {spans spans' : Except Error (List (Span D))}
    {out : ExceptT Error Outcome (TsSymbolMap D)}
    {next : TsSymbolMap D -> ExceptT Error Outcome (TsSymbolMap D)}
    (first : Adds self spans out)
    (rest : forall res, Adds res spans' (next res)) :
    Adds self (do
      let a ← spans
      let b ← spans'
      Except.ok (a ++ b)) (out >>= next) := by
  cases spans with
  | error e =>
      rw [show out = throw e from first]
      rfl
  | ok a =>
      rcases first with ⟨res, rfl, hget⟩
      have hrest := rest res
      cases spans' with
      | error e => exact hrest
      | ok b =>
          rcases hrest with ⟨res', hret, hget'⟩
          refine ⟨res', hret, ?_⟩
          intro date iid
          rw [hget', hget, lastSpan_append, Option.or_assoc]

/-- A loop adds the spans of its rounds. -/
theorem adds_foldlM {α : Type} {spans : α -> Except Error (List (Span D))}
    {step : TsSymbolMap D -> α -> ExceptT Error Outcome (TsSymbolMap D)}
    (hstep : forall a res, Adds res (spans a) (step res a)) (as : List α) :
    Adds self (spansOf spans as) (as.foldlM step self) := by
  induction as generalizing self with
  | nil => exact adds_nil self
  | cons a as ih =>
      rw [List.foldlM_cons, spansOf_cons]
      exact (hstep a self).bind (fun res => ih)

/-- Something is parsed before the spans. -/
theorem Adds.parse {α : Type} {x : Except Error α}
    {spans : α -> Except Error (List (Span D))}
    {next : α -> ExceptT Error Outcome (TsSymbolMap D)}
    (h : forall a, x = Except.ok a -> Adds self (spans a) (next a)) :
    Adds self (x >>= spans) (liftM x >>= next) := by
  cases x with
  | error e => rfl
  | ok a => exact h a rfl

variable [DayCalendar D] [LawfulDayCalendar D]

/-- Whatever the dates are, the loop over the days comes to its end. -/
theorem adds_insert (self : TsSymbolMap D) (instrumentId : UInt32)
    (startDate endDate : D) (symbol : Str) :
    Adds self (if startDate ≤ endDate then
        Except.ok [⟨⟨startDate, endDate⟩, instrumentId, symbol⟩]
      else Except.error (Error.badArgument "start_date"
        "start_date cannot come after end_date"))
      (self.insert instrumentId startDate endDate symbol) := by
  have hget : forall res, self.insert instrumentId startDate endDate symbol =
      pure res -> forall date iid, res.get date iid =
        (lastSpan [⟨⟨startDate, endDate⟩, instrumentId, symbol⟩] date iid).or
          (self.get date iid) := by
    intro res hres date iid
    rw [get_of_insert hres, lastSpan_singleton]
    split
    · rfl
    · rfl
  by_cases hle : startDate ≤ endDate
  · rw [if_pos hle]
    rcases lt_or_eq_of_le hle with hlt | heq
    · rcases insertDays_spec self instrumentId symbol hlt with ⟨res, hres, _⟩
      have hret : self.insert instrumentId startDate endDate symbol =
          pure res := by
        unfold insert
        rw [if_pos hlt, hres]
        rfl
      exact ⟨res, hret, hget res hret⟩
    · have hret : self.insert instrumentId startDate endDate symbol =
          pure self := by
        unfold insert
        rw [if_neg (not_lt_of_ge (ge_of_eq heq)), if_pos heq]
      exact ⟨self, hret, hget self hret⟩
  · rw [if_neg hle]
    have hgt := not_le.mp hle
    unfold insert
    rw [if_neg (not_lt_of_gt hgt), if_neg (ne_of_gt hgt)]
    rfl

variable {mapping : SymbolMapping D} {instrumentId : UInt32}

theorem adds_insertInverse
    (hparse : parseInstrumentId mapping.rawSymbol = Except.ok instrumentId)
    (interval : MappingInterval D) (res : TsSymbolMap D) :
    Adds res (mapping.span true interval)
      (insertInverse instrumentId res interval) := by
  unfold SymbolMapping.span insertInverse SymbolMapping.entry
  by_cases hempty : interval.symbol.bytes = []
  · rw [if_pos hempty, if_pos hempty]
    exact adds_nil res
  · rw [if_neg hempty, if_neg hempty, hparse]
    exact adds_insert res instrumentId _ _ _

theorem adds_insertNormal (mapping : SymbolMapping D)
    (interval : MappingInterval D) (res : TsSymbolMap D) :
    Adds res (mapping.span false interval)
      (insertNormal mapping.rawSymbol res interval) := by
  unfold SymbolMapping.span insertNormal SymbolMapping.entry
  by_cases hempty : interval.symbol.bytes = []
  · rw [if_pos hempty, if_pos hempty]
    exact adds_nil res
  · rw [if_neg hempty, if_neg hempty]
    cases parseInstrumentId interval.symbol with
    | error e => rfl
    | ok instrumentId => exact adds_insert res instrumentId _ _ _

theorem adds_addMapping (inverse : Bool) (mapping : SymbolMapping D)
    (res : TsSymbolMap D) :
    Adds res (mapping.spans inverse) (addMapping inverse res mapping) := by
  cases inverse with
  | false => exact adds_foldlM (adds_insertNormal mapping) mapping.intervals
  | true =>
      apply Adds.parse
      intro instrumentId hparse
      exact adds_foldlM (adds_insertInverse hparse) mapping.intervals

theorem adds_fromMetadata (metadata : Metadata D) :
    Adds ∅ metadata.spans (fromMetadata metadata) := by
  apply Adds.parse
  intro inverse _
  exact adds_foldlM (adds_addMapping inverse) metadata.mappings

/--
The map of metadata has on each date, for each instrument, the symbol of the
last span that covers the date.  It is always built unless a span cannot be
read; then the error is the one of the first such span.
-/
theorem fromMetadata_spans (metadata : Metadata D) :
    (forall spans, metadata.spans = Except.ok spans -> exists ts,
      fromMetadata metadata = pure ts ∧
      forall date iid, ts.get date iid = lastSpan spans date iid) ∧
    (forall e, metadata.spans = Except.error e ->
      fromMetadata metadata = throw e) := by
  have hadds := adds_fromMetadata metadata
  constructor
  · intro spans hspans
    rw [hspans] at hadds
    rcases hadds with ⟨ts, hret, hget⟩
    refine ⟨ts, hret, ?_⟩
    intro date iid
    rw [hget]
    exact Option.or_none
  · intro e hspans
    rw [hspans] at hadds
    exact hadds

/-- Two symbols that share an instrument on one of the days. -/
theorem fromMetadata_spans_sharedId :
    (forall spans, PitSymbolMap.sharedIdMetadata.spans = Except.ok spans ->
      exists ts, fromMetadata PitSymbolMap.sharedIdMetadata = pure ts ∧
      forall date iid, ts.get date iid = lastSpan spans date iid) ∧
    (forall e, PitSymbolMap.sharedIdMetadata.spans = Except.error e ->
      fromMetadata PitSymbolMap.sharedIdMetadata = throw e) :=
  fromMetadata_spans PitSymbolMap.sharedIdMetadata

end TsSymbolMap

end Dbn
