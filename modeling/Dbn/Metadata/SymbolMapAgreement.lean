import Dbn.Metadata.Merge
import Dbn.Metadata.SymbolMap

/-!
# The two symbol maps agree

The entries of a date in the timeseries map are those of the point-in-time
map of the date.  Each mapping adds at most one entry to them, the one of the
interval that the date is in.
-/

namespace Dbn

open Lib

section Loops

variable {ε α β : Type}

/-- A sequenced loop returns `Ok` only if both parts do. -/
theorem loop_bind_eq_pure {x : ExceptT ε Outcome α}
    {f : α -> ExceptT ε Outcome β} {b : β} :
    (x >>= f) = pure b <-> exists a, x = pure a ∧ f a = pure b := by
  constructor
  · intro h
    match x with
    | .ret (.ok a) => exact ⟨a, rfl, h⟩
    | .ret (.error e) => cases h
    | .panic p => cases h
    | .timeout => cases h
  · intro h
    rcases h with ⟨a, rfl, hf⟩
    exact hf

theorem liftM_eq_pure {x : Except ε α} {a : α} :
    (liftM x : ExceptT ε Outcome α) = pure a <-> x = Except.ok a := by
  cases x with
  | error e =>
      constructor
      · nofun
      · nofun
  | ok a' =>
      constructor
      · intro h
        cases h
        rfl
      · intro h
        cases h
        rfl

end Loops

variable {D : Type} [LinearOrder D] [DayCalendar D]

/-- No date is in two intervals of the mapping. -/
def SymbolMapping.Disjoint (mapping : SymbolMapping D) : Prop :=
  mapping.intervals.Pairwise (fun i j =>
    forall date, ¬ (date ∈ i.dates ∧ date ∈ j.dates))

/-- The entry that an interval of a mapping stands for. -/
def SymbolMapping.entry (inverse : Bool) (mapping : SymbolMapping D)
    (interval : MappingInterval D) : Except Error (UInt32 × Str) :=
  if inverse then do
    let instrumentId ← parseInstrumentId mapping.rawSymbol
    Except.ok (instrumentId, interval.symbol)
  else do
    let instrumentId ← parseInstrumentId interval.symbol
    Except.ok (instrumentId, mapping.rawSymbol)

namespace TsSymbolMap

variable [LawfulDayCalendar D] {self res res' : TsSymbolMap D}
  {instrumentId iid : UInt32} {symbol : Str} {startDate endDate day date : D}
  {interval : MappingInterval D} {intervals : List (MappingInterval D)}
  {mapping : SymbolMapping D} {inverse : Bool}

/-- The loop of `insert` ends and sets the days of the interval. -/
theorem insertDays_spec (self : TsSymbolMap D) (instrumentId : UInt32)
    (symbol : Str) (hlt : day < endDate) :
    exists res, insertDays self instrumentId symbol endDate
        (daysBetween day endDate) day = .ret res ∧
      forall date iid, res.get date iid =
        if date ∈ (⟨day, endDate⟩ : HalfOpen D) ∧ iid = instrumentId then
          some symbol
        else self.get date iid := by
  induction hn : daysBetween day endDate generalizing day self with
  | zero => exact absurd hn (Nat.pos_iff_ne_zero.mp (daysBetween_pos hlt))
  | succ n ih =>
      rcases LawfulDayCalendar.nextDay_of_lt hlt with ⟨next, hnext⟩
      rw [daysBetween_nextDay hnext hlt] at hn
      unfold insertDays
      simp only [hnext]
      have hget : forall date iid,
          get (AList.insert (day, instrumentId) symbol self) date iid =
            if date = day ∧ iid = instrumentId then some symbol
            else self.get date iid := by
        intro date iid
        unfold get
        by_cases hkey : date = day ∧ iid = instrumentId
        · rw [if_pos hkey, hkey.1, hkey.2, AList.lookup_insert]
        · rw [if_neg hkey, AList.lookup_insert_ne]
          intro heq
          cases heq
          exact hkey ⟨rfl, rfl⟩
      have hmem : forall date, date ∈ (⟨day, endDate⟩ : HalfOpen D) <->
          date = day ∨ date ∈ (⟨next, endDate⟩ : HalfOpen D) :=
        fun date => mem_iff_nextDay hnext hlt
      split
      · next hend =>
          refine ⟨_, rfl, ?_⟩
          intro date iid
          have hnone : date ∉ (⟨next, endDate⟩ : HalfOpen D) := by
            intro hin
            exact absurd (lt_of_le_of_lt hin.1 hin.2) (not_lt.mpr hend)
          rw [hget]
          simp only [hmem, hnone, or_false]
      · next hend =>
          rcases ih _ (not_le.mp hend) (Nat.succ_injective hn) with
            ⟨res, hres, hspec⟩
          refine ⟨res, hres, ?_⟩
          intro date iid
          rw [hspec, hget]
          simp only [hmem]
          by_cases hin : date ∈ (⟨next, endDate⟩ : HalfOpen D) ∧
              iid = instrumentId
          · rw [if_pos hin, if_pos ⟨Or.inr hin.1, hin.2⟩]
          · rw [if_neg hin]
            apply if_congr _ rfl rfl
            constructor
            · intro h
              exact ⟨Or.inl h.1, h.2⟩
            · intro h
              rcases h.1 with heq | hin'
              · exact ⟨heq, h.2⟩
              · exact absurd ⟨hin', h.2⟩ hin

/-- What an `insert` that returns `Ok` sets. -/
theorem get_of_insert
    (h : self.insert instrumentId startDate endDate symbol = pure res) :
    res.get date iid =
      if date ∈ (⟨startDate, endDate⟩ : HalfOpen D) ∧ iid = instrumentId then
        some symbol
      else self.get date iid := by
  unfold insert at h
  split at h
  · next hlt =>
      rcases insertDays_spec self instrumentId symbol hlt with
        ⟨res', hres, hspec⟩
      rw [hres] at h
      cases h
      exact hspec date iid
  · next hnot =>
      split at h
      · cases h
        rw [if_neg]
        intro hin
        exact hnot (lt_of_le_of_lt hin.1.1 hin.1.2)
      · cases h

/-- The entries of a date after an interval has been added. -/
def SetsEntry (inverse : Bool) (mapping : SymbolMapping D) (date : D)
    (interval : MappingInterval D) (res res' : TsSymbolMap D) : Prop :=
  if date ∈ interval.dates ∧ interval.symbol.bytes ≠ [] then
    exists e, mapping.entry inverse interval = Except.ok e ∧
      forall iid, res'.get date iid =
        if iid = e.1 then some e.2 else res.get date iid
  else forall iid, res'.get date iid = res.get date iid

theorem setsEntry_of_insert {e : UInt32 × Str}
    (hentry : mapping.entry inverse interval = Except.ok e)
    (hsymbol : interval.symbol.bytes ≠ [])
    (h : res.insert e.1 interval.startDate interval.endDate e.2 =
      pure res') : SetsEntry inverse mapping date interval res res' := by
  have hget : forall iid, res'.get date iid =
      if date ∈ interval.dates ∧ iid = e.1 then some e.2
      else res.get date iid := fun _ => get_of_insert h
  unfold SetsEntry
  split
  · next hin =>
      refine ⟨e, hentry, ?_⟩
      intro iid
      rw [hget]
      apply if_congr _ rfl rfl
      exact and_iff_right hin.1
  · next hout =>
      intro iid
      rw [hget, if_neg]
      intro hin
      exact hout ⟨hin.1, hsymbol⟩

theorem setsEntry_of_insertInverse
    (hparse : parseInstrumentId mapping.rawSymbol = Except.ok instrumentId)
    (h : insertInverse instrumentId res interval = pure res') :
    SetsEntry true mapping date interval res res' := by
  unfold insertInverse at h
  split at h
  · next hempty =>
      cases h
      unfold SetsEntry
      rw [if_neg (fun hin => hin.2 hempty)]
      exact fun _ => rfl
  · next hsymbol =>
      apply setsEntry_of_insert (e := (instrumentId, interval.symbol)) _
        hsymbol h
      unfold SymbolMapping.entry
      rw [hparse]
      rfl

theorem setsEntry_of_insertNormal
    (h : insertNormal mapping.rawSymbol res interval = pure res') :
    SetsEntry false mapping date interval res res' := by
  unfold insertNormal at h
  split at h
  · next hempty =>
      cases h
      unfold SetsEntry
      rw [if_neg (fun hin => hin.2 hempty)]
      exact fun _ => rfl
  · next hsymbol =>
      rcases loop_bind_eq_pure.mp h with ⟨instrumentId, hparse, h⟩
      rw [liftM_eq_pure] at hparse
      apply setsEntry_of_insert (e := (instrumentId, mapping.rawSymbol)) _
        hsymbol h
      unfold SymbolMapping.entry
      rw [hparse]
      rfl

omit [DayCalendar D] [LawfulDayCalendar D] in
/-- The intervals set the entry of the one that the date is in. -/
theorem foldlM_setsEntry
    {step : TsSymbolMap D -> MappingInterval D ->
      ExceptT Error Outcome (TsSymbolMap D)}
    (hstep : forall res res' interval, step res interval = pure res' ->
      SetsEntry inverse mapping date interval res res')
    (hdisjoint : intervals.Pairwise (fun i j =>
      forall date, ¬ (date ∈ i.dates ∧ date ∈ j.dates)))
    (h : intervals.foldlM step res = pure res') :
    match intervals.find? (fun interval => date ∈ interval.dates) with
    | none => forall iid, res'.get date iid = res.get date iid
    | some interval => SetsEntry inverse mapping date interval res res' := by
  induction intervals generalizing res with
  | nil =>
      cases h
      exact fun _ => rfl
  | cons interval intervals ih =>
      rw [List.foldlM_cons] at h
      rcases loop_bind_eq_pure.mp h with ⟨res1, hfirst, hrest⟩
      have hsets := hstep _ _ _ hfirst
      rw [List.pairwise_cons] at hdisjoint
      have htail := ih hdisjoint.2 hrest
      rw [List.find?_cons]
      by_cases hin : date ∈ interval.dates
      · -- the date is in no other interval
        have hnone : intervals.find? (fun interval =>
            date ∈ interval.dates) = none := by
          rw [List.find?_eq_none]
          intro other hother hmem
          exact hdisjoint.1 other hother date ⟨hin, of_decide_eq_true hmem⟩
        rw [hnone] at htail
        rw [decide_eq_true hin]
        unfold SetsEntry at hsets ⊢
        simp only [htail]
        exact hsets
      · have hsame : forall iid, res1.get date iid = res.get date iid := by
          unfold SetsEntry at hsets
          rw [if_neg (fun hboth => hin hboth.1)] at hsets
          exact hsets
        rw [decide_eq_false hin]
        unfold SetsEntry at htail ⊢
        simp only [hsame] at htail
        exact htail

theorem addMapping_setsEntry (date : D) (hdisjoint : mapping.Disjoint)
    (h : addMapping inverse res mapping = pure res') :
    match mapping.intervals.find? (fun interval =>
      date ∈ interval.dates) with
    | none => forall iid, res'.get date iid = res.get date iid
    | some interval => SetsEntry inverse mapping date interval res res' := by
  unfold addMapping at h
  cases inverse with
  | false =>
      apply foldlM_setsEntry _ hdisjoint h
      intro res res' interval hround
      exact setsEntry_of_insertNormal hround
  | true =>
      rcases loop_bind_eq_pure.mp h with ⟨instrumentId, hparse, h⟩
      rw [liftM_eq_pure] at hparse
      apply foldlM_setsEntry _ hdisjoint h
      intro res res' interval hround
      exact setsEntry_of_insertInverse hparse hround

end TsSymbolMap

/-!
## The point-in-time map
-/

namespace PitSymbolMap

variable [LawfulDayCalendar D] {pit : PitSymbolMap} {ts ts' : TsSymbolMap D}
  {date : D} {interval : MappingInterval D} {mapping : SymbolMapping D}
  {mappings : List (SymbolMapping D)} {inverse : Bool}

/-- The map has the entries of the date. -/
def Agrees (pit : PitSymbolMap) (ts : TsSymbolMap D) (date : D) : Prop :=
  forall instrumentId, pit.get instrumentId = ts.get date instrumentId

theorem get_insert (instrumentId iid : UInt32) (symbol : Str) :
    get (AList.insert instrumentId symbol pit) iid =
      if iid = instrumentId then some symbol else pit.get iid := by
  unfold get
  by_cases hiid : iid = instrumentId
  · rw [if_pos hiid, hiid, AList.lookup_insert]
  · rw [if_neg hiid, AList.lookup_insert_ne hiid]

omit [DayCalendar D] [LawfulDayCalendar D] in
theorem addMapping_of_entry {e : UInt32 × Str}
    (hfind : mapping.intervals.find? (fun interval =>
      date ∈ interval.dates) = some interval)
    (hsymbol : interval.symbol.bytes ≠ [])
    (hentry : mapping.entry inverse interval = Except.ok e) :
    addMapping inverse date pit mapping =
      Except.ok (AList.insert e.1 e.2 pit) := by
  have hfind' : mapping.intervals.find? (fun interval =>
      date ≥ interval.startDate ∧ date < interval.endDate) =
      some interval := hfind
  unfold addMapping
  unfold SymbolMapping.entry at hentry
  rw [hfind']
  simp only [if_neg hsymbol]
  cases inverse with
  | false =>
      cases hparse : parseInstrumentId interval.symbol with
      | error err =>
          rw [hparse] at hentry
          cases hentry
      | ok instrumentId =>
          rw [hparse] at hentry
          cases hentry
          rfl
  | true =>
      cases hparse : parseInstrumentId mapping.rawSymbol with
      | error err =>
          rw [hparse] at hentry
          cases hentry
      | ok instrumentId =>
          rw [hparse] at hentry
          cases hentry
          rfl

/-- A round over a mapping of both maps. -/
theorem addMapping_agrees (hdisjoint : mapping.Disjoint)
    (h : TsSymbolMap.addMapping inverse ts mapping = pure ts')
    (hagrees : Agrees pit ts date) :
    exists pit', addMapping inverse date pit mapping = Except.ok pit' ∧
      Agrees pit' ts' date := by
  have hsets := TsSymbolMap.addMapping_setsEntry date hdisjoint h
  cases hfind : mapping.intervals.find? (fun interval =>
      date ∈ interval.dates) with
  | none =>
      rw [hfind] at hsets
      have hfind' : mapping.intervals.find? (fun interval =>
          date ≥ interval.startDate ∧ date < interval.endDate) = none := hfind
      refine ⟨pit, ?_, ?_⟩
      · unfold addMapping
        rw [hfind']
      · intro iid
        rw [hagrees iid, hsets iid]
  | some interval =>
      rw [hfind] at hsets
      have hin : date ∈ interval.dates := by
        simpa using List.find?_some hfind
      have hfind' : mapping.intervals.find? (fun interval =>
          date ≥ interval.startDate ∧ date < interval.endDate) =
          some interval := hfind
      dsimp only at hsets
      unfold TsSymbolMap.SetsEntry at hsets
      by_cases hsymbol : interval.symbol.bytes = []
      · rw [if_neg (fun hboth => hboth.2 hsymbol)] at hsets
        refine ⟨pit, ?_, ?_⟩
        · unfold addMapping
          rw [hfind']
          simp only [if_pos hsymbol]
        · intro iid
          rw [hagrees iid, hsets iid]
      · rw [if_pos ⟨hin, hsymbol⟩] at hsets
        rcases hsets with ⟨e, hentry, hget⟩
        refine ⟨_, addMapping_of_entry hfind hsymbol hentry, ?_⟩
        intro iid
        rw [get_insert, hget iid, hagrees iid]

theorem foldlM_agrees
    (hdisjoint : forall mapping, mapping ∈ mappings -> mapping.Disjoint)
    (h : mappings.foldlM (TsSymbolMap.addMapping inverse) ts = pure ts')
    (hagrees : Agrees pit ts date) :
    exists pit', mappings.foldlM (addMapping inverse date) pit =
        Except.ok pit' ∧ Agrees pit' ts' date := by
  induction mappings generalizing pit ts with
  | nil =>
      cases h
      exact ⟨pit, rfl, hagrees⟩
  | cons mapping mappings ih =>
      rw [List.foldlM_cons] at h ⊢
      rcases loop_bind_eq_pure.mp h with ⟨ts1, hfirst, hrest⟩
      rcases addMapping_agrees (hdisjoint mapping List.mem_cons_self) hfirst
        hagrees with ⟨pit1, hpit, hagrees1⟩
      rw [hpit]
      apply ih _ hrest hagrees1
      intro other hother
      exact hdisjoint other (List.mem_cons_of_mem _ hother)

/--
On a date of the query the point-in-time map has the entries that the
timeseries map has for the date.
-/
theorem get_eq_tsSymbolMap_get {metadata : Metadata D}
    (hdisjoint : forall mapping, mapping ∈ metadata.mappings ->
      mapping.Disjoint)
    (hts : TsSymbolMap.fromMetadata metadata = pure ts)
    (hrange : ¬ OutsideQueryRange metadata date) :
    exists pit, fromMetadata metadata date = Except.ok pit ∧
      forall instrumentId, pit.get instrumentId =
        ts.get date instrumentId := by
  rcases loop_bind_eq_pure.mp hts with ⟨inverse, hinverse, hfold⟩
  rw [liftM_eq_pure] at hinverse
  have hempty : Agrees (∅ : PitSymbolMap) (∅ : TsSymbolMap D) date :=
    fun _ => rfl
  rcases foldlM_agrees hdisjoint hfold hempty with ⟨pit, hpit, hagrees⟩
  refine ⟨pit, ?_, hagrees⟩
  unfold fromMetadata
  rw [hinverse]
  show (if OutsideQueryRange metadata date then _ else _) = _
  rw [if_neg hrange]
  exact hpit

theorem isUtf8_firstSymbol : IsUtf8 [65] := by
  decide

theorem isUtf8_secondSymbol : IsUtf8 [66] := by
  decide

/-- Metadata in which two raw symbols are mapped to one instrument ID. -/
def sharedIdMetadata : Metadata GregorianDate where
  version := 3
  dataset := ⟨[65], isUtf8_firstSymbol⟩
  schema := none
  start := 0
  endTs := none
  limit := none
  stypeIn := some .rawSymbol
  stypeOut := .instrumentId
  tsOut := false
  symbolCstrLen := symbolCstrLenV3
  symbols := []
  partialSymbols := []
  notFound := []
  mappings := [⟨⟨[65], isUtf8_firstSymbol⟩, [⟨⟨2023, 6, 1, by decide⟩,
      ⟨2023, 6, 3, by decide⟩, ⟨[49], by decide⟩⟩]⟩,
    ⟨⟨[66], isUtf8_secondSymbol⟩, [⟨⟨2023, 6, 2, by decide⟩,
      ⟨2023, 6, 4, by decide⟩, ⟨[49], by decide⟩⟩]⟩]

theorem get_eq_tsSymbolMap_get_sharedId :
    exists ts, TsSymbolMap.fromMetadata sharedIdMetadata = pure ts ∧
      exists pit, fromMetadata sharedIdMetadata ⟨2023, 6, 2, by decide⟩ =
          Except.ok pit ∧
        forall instrumentId, pit.get instrumentId =
          ts.get ⟨2023, 6, 2, by decide⟩ instrumentId := by
  have hts : exists ts, TsSymbolMap.fromMetadata sharedIdMetadata =
      pure ts := ⟨_, rfl⟩
  rcases hts with ⟨ts, hts⟩
  refine ⟨ts, hts, ?_⟩
  apply get_eq_tsSymbolMap_get _ hts (by decide)
  intro mapping hmapping
  rcases List.mem_pair.mp hmapping with rfl | rfl
  · exact List.pairwise_singleton _ _
  · exact List.pairwise_singleton _ _

end PitSymbolMap

end Dbn
