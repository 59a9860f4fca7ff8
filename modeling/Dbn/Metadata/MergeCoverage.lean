import Dbn.Metadata.MergeConflicts

/-!
# What a merge covers

The table of mappings grows by the mappings of each input, so that it covers
what they cover.  The first input is collected into the table, where a mapping
replaces the ones before it with the same raw symbol.
-/

namespace Dbn
namespace MetadataMerger

open Lib

variable {D : Type} [LinearOrder D]

/-!
## Intervals
-/

section Intervals

variable [DebugText D] [DebugText Str] {int otherInt : MappingInterval D}
  {orig add merged : List (MappingInterval D)} {date : D} {symbol : Str}

/-- Intervals that are merged into one, have a date or not. -/
theorem ordering_eq_ok {o : IntervalOrdering}
    (h : int.ordering otherInt = Except.ok o) :
    (o = .overlap -> int.dates.Overlaps otherInt.dates ∧
      int.symbol = otherInt.symbol) ∧ (o = .equal -> int = otherInt) := by
  unfold MappingInterval.ordering at h
  split at h
  · next hdates =>
      split at h
      · next hsymbol =>
          cases h
          constructor
          · nofun
          · intro _
            rcases int with ⟨startDate, endDate, symbol⟩
            rcases otherInt with ⟨startDate', endDate', symbol'⟩
            rcases hdates with ⟨rfl, rfl⟩
            cases hsymbol
            rfl
      · cases h
  · split at h
    · cases h
      exact ⟨nofun, nofun⟩
    · next hless =>
        split at h
        · cases h
          exact ⟨nofun, nofun⟩
        · next hgreater =>
            split at h
            · next hsymbol =>
                cases h
                constructor
                · intro _
                  exact ⟨HalfOpen.overlaps_of_not_before hless hgreater,
                    hsymbol⟩
                · nofun
            · cases h

omit [DebugText D] [DebugText Str] in
/-- An interval made of two that overlap covers what they cover. -/
theorem mapsTo_merge_cons (hoverlaps : int.dates.Overlaps otherInt.dates)
    (hsymbol : int.symbol = otherInt.symbol) :
    MapsTo (int.merge otherInt :: merged) date symbol <->
      (date ∈ int.dates ∧ int.symbol = symbol) ∨
        (date ∈ otherInt.dates ∧ otherInt.symbol = symbol) ∨
        MapsTo merged date symbol := by
  have hhull : date ∈ (int.merge otherInt).dates <->
      date ∈ int.dates ∨ date ∈ otherInt.dates := HalfOpen.mem_hull hoverlaps
  rw [mapsTo_cons, hhull]
  rw [show (int.merge otherInt).symbol = int.symbol from rfl, ← hsymbol,
    or_and_right, or_assoc]

omit [LinearOrder D] [DebugText D] [DebugText Str] in
theorem exists_of_map_eq_ok {f : List (MappingInterval D) ->
      List (MappingInterval D)}
    {result : Except Error (List (MappingInterval D))}
    (h : result.map f = Except.ok merged) :
    exists rest, result = Except.ok rest ∧ f rest = merged := by
  cases result with
  | error e => cases h
  | ok rest =>
      cases h
      exact ⟨rest, rfl, rfl⟩

/-- The list that is put out covers what the two lists cover. -/
theorem mapsTo_mergeIntervals
    (h : mergeIntervals orig add = Except.ok merged) :
    MapsTo merged date symbol <->
      MapsTo orig date symbol ∨ MapsTo add date symbol := by
  induction hn : orig.length + add.length using Nat.strong_induction_on
    generalizing orig add merged with
  | _ n ih =>
      match orig, add with
      | orig, [] =>
          have hok : mergeIntervals orig [] = Except.ok orig := by
            cases orig <;> rw [mergeIntervals]
          rw [hok] at h
          cases h
          simp [not_mapsTo_nil]
      | [], otherInt :: add =>
          have hok : mergeIntervals [] (otherInt :: add) =
              Except.ok (otherInt :: add) := by
            rw [mergeIntervals]
            simp
          rw [hok] at h
          cases h
          simp [not_mapsTo_nil]
      | int :: orig, otherInt :: add =>
          rw [List.length_cons, List.length_cons] at hn
          cases hordering : int.ordering otherInt with
          | error e =>
              rw [mergeIntervals, hordering] at h
              cases h
          | ok o =>
              rw [mergeIntervals_cons hordering] at h
              have hspec := ordering_eq_ok hordering
              cases o with
              | less =>
                  rcases exists_of_map_eq_ok h with ⟨rest, hrest, rfl⟩
                  rw [mapsTo_cons, mapsTo_cons,
                    ih _ (by rw [List.length_cons]; omega) hrest rfl, or_assoc]
              | greater =>
                  rcases exists_of_map_eq_ok h with ⟨rest, hrest, rfl⟩
                  rw [mapsTo_cons, mapsTo_cons (i := otherInt) (l := add),
                    ih _ (by rw [List.length_cons]; omega) hrest rfl]
                  exact or_left_comm
              | overlap =>
                  rcases exists_of_map_eq_ok h with ⟨rest, hrest, rfl⟩
                  rcases hspec.1 rfl with ⟨hoverlaps, hsymbol⟩
                  rw [mapsTo_merge_cons hoverlaps hsymbol, mapsTo_cons,
                    mapsTo_cons, ih _ (by omega) hrest rfl, or_assoc,
                    or_left_comm (a := MapsTo orig date symbol)]
              | equal =>
                  rcases exists_of_map_eq_ok h with ⟨rest, hrest, rfl⟩
                  cases hspec.2 rfl
                  rw [mapsTo_cons, mapsTo_cons, mapsTo_cons,
                    ih _ (by omega) hrest rfl, or_or_or_comm, or_self]

end Intervals

/-!
## Tables
-/

/-- The table maps the date of a raw symbol to the symbol. -/
def TableMaps (table : HashMap Str (List (MappingInterval D)))
    (rawSymbol : Str) (date : D) (symbol : Str) : Prop :=
  exists intervals, table.lookup rawSymbol = some intervals ∧
    MapsTo intervals date symbol

section Tables

variable [DebugText D] [DebugText Str]
  {table table' : HashMap Str (List (MappingInterval D))}
  {mapping : SymbolMapping D} {added : List (SymbolMapping D)}
  {rawSymbol symbol : Str} {date : D}

omit [DebugText D] [DebugText Str] in
theorem tableMaps_insert {rawSymbol' : Str}
    {intervals : List (MappingInterval D)} :
    TableMaps (table.insert rawSymbol intervals) rawSymbol' date symbol <->
      (rawSymbol' = rawSymbol ∧ MapsTo intervals date symbol) ∨
        (rawSymbol' ≠ rawSymbol ∧ TableMaps table rawSymbol' date symbol) := by
  unfold TableMaps
  by_cases heq : rawSymbol' = rawSymbol
  · rw [heq, AList.lookup_insert]
    simp
  · rw [AList.lookup_insert_ne heq]
    simp [heq]

theorem tableMaps_mergeMapping
    (h : mergeMapping table mapping = Except.ok table') :
    TableMaps table' rawSymbol date symbol <->
      TableMaps table rawSymbol date symbol ∨
        (rawSymbol = mapping.rawSymbol ∧
          MapsTo mapping.intervals date symbol) := by
  unfold mergeMapping at h
  split at h
  · next hlookup =>
      cases h
      rw [tableMaps_insert]
      by_cases heq : rawSymbol = mapping.rawSymbol
      · have hnot : ¬ TableMaps table rawSymbol date symbol := by
          intro hmaps
          rcases hmaps with ⟨intervals, hsome, _⟩
          rw [heq, hlookup] at hsome
          cases hsome
        rw [heq] at hnot ⊢
        simp [hnot]
      · simp [heq]
  · next intervals hlookup =>
      cases hmerged : mergeIntervals intervals mapping.intervals with
      | error e =>
          rw [hmerged] at h
          cases h
      | ok merged =>
          rw [hmerged] at h
          cases h
          rw [tableMaps_insert, mapsTo_mergeIntervals hmerged]
          by_cases heq : rawSymbol = mapping.rawSymbol
          · unfold TableMaps
            rw [heq, hlookup]
            simp
          · simp [heq]

/-- The mappings of an input are added to what the table covers. -/
theorem tableMaps_foldlM_mergeMapping
    (h : added.foldlM mergeMapping table = Except.ok table') :
    TableMaps table' rawSymbol date symbol <->
      TableMaps table rawSymbol date symbol ∨
        MappingsMap added rawSymbol date symbol := by
  induction added generalizing table with
  | nil =>
      cases h
      constructor
      · exact Or.inl
      · intro hor
        rcases hor with hmaps | ⟨_, hmem, _⟩
        · exact hmaps
        · cases hmem
  | cons mapping added ih =>
      rw [List.foldlM_cons] at h
      cases hmerged : mergeMapping table mapping with
      | error e =>
          rw [hmerged] at h
          cases h
      | ok table1 =>
          rw [hmerged] at h
          rw [ih h, tableMaps_mergeMapping hmerged, mappingsMap_cons, or_assoc]

end Tables

/-!
## Inputs
-/

/-- The last mapping of the raw symbol maps the date to the symbol. -/
def LastMaps (mappings : List (SymbolMapping D)) (rawSymbol : Str) (date : D)
    (symbol : Str) : Prop :=
  exists intervals, HashMap.lastValue (mappings.map (fun mapping =>
      (mapping.rawSymbol, mapping.intervals))) rawSymbol = some intervals ∧
    MapsTo intervals date symbol

/-- Everything in the symbol lists of an input is in those of the merger. -/
structure HasSymbols (merger : MetadataMerger D) (m : Metadata D) : Prop where
  symbols : m.symbols ⊆ merger.symbols
  partialSymbols : m.partialSymbols ⊆ merger.partialSymbols
  notFound : m.notFound ⊆ merger.notFound

section Inputs

variable {merger merger' : MetadataMerger D} {additional original : Metadata D}
  {rest : List (Metadata D)} {rawSymbol symbol : Str} {date : D}

omit [LinearOrder D] in
theorem hasSymbols_new : HasSymbols (new original) original := by
  constructor
  · intro k hk
    exact HashSet.mem_extend.mpr (Or.inr hk)
  · intro k hk
    exact HashSet.mem_extend.mpr (Or.inr hk)
  · intro k hk
    exact HashSet.mem_extend.mpr (Or.inr hk)

/-- The table of the first input has the last mapping of each raw symbol. -/
theorem tableMaps_new_iff :
    TableMaps (new original).mappings rawSymbol date symbol <->
      LastMaps original.mappings rawSymbol date symbol := by
  unfold TableMaps LastMaps new
  rw [HashMap.lookup_ofEntries_eq_lastValue]

variable [DebugText D] [DebugText Str]

/-- What the merger is made of after an input. -/
structure Adds (merger : MetadataMerger D) (additional : Metadata D)
    (merger' : MetadataMerger D) : Prop where
  start : merger'.start = min merger.start additional.start
  endTs : merger'.endTs = maxEnd merger.endTs additional.endTs
  symbols : merger'.symbols = HashSet.extend merger.symbols additional.symbols
  partialSymbols : merger'.partialSymbols =
    HashSet.extend merger.partialSymbols additional.partialSymbols
  notFound : merger'.notFound =
    HashSet.extend merger.notFound additional.notFound
  mappings : additional.mappings.foldlM mergeMapping merger.mappings =
    Except.ok merger'.mappings

theorem adds_of_merge (h : merger.merge additional = Except.ok merger') :
    Adds merger additional merger' := by
  by_cases hagrees : Agrees merger additional
  · rw [merge_of_agrees hagrees] at h
    cases hmappings : additional.mappings.foldlM mergeMapping
        merger.mappings with
    | error e =>
        rw [hmappings] at h
        cases h
    | ok table =>
        rw [hmappings] at h
        cases h
        exact ⟨rfl, rfl, rfl, rfl, rfl, hmappings⟩
  · rcases merge_of_not_agrees hagrees with ⟨e, he⟩
    rw [he] at h
    cases h

theorem Adds.hasSymbols {m : Metadata D}
    (h : Adds merger additional merger')
    (hm : m = additional ∨ HasSymbols merger m) : HasSymbols merger' m := by
  have hextend : forall {set added list : List Str},
      (list = added ∨ list ⊆ set) -> list ⊆ HashSet.extend set added := by
    intro set added list hlist k hk
    rw [HashSet.mem_extend]
    rcases hlist with rfl | hsub
    · exact Or.inr hk
    · exact Or.inl (hsub hk)
  constructor
  · rw [h.symbols]
    apply hextend
    rcases hm with rfl | hm
    · exact Or.inl rfl
    · exact Or.inr hm.symbols
  · rw [h.partialSymbols]
    apply hextend
    rcases hm with rfl | hm
    · exact Or.inl rfl
    · exact Or.inr hm.partialSymbols
  · rw [h.notFound]
    apply hextend
    rcases hm with rfl | hm
    · exact Or.inl rfl
    · exact Or.inr hm.notFound

/-- The table or one of the inputs maps the date to the symbol. -/
def Covers (merger : MetadataMerger D) (rest : List (Metadata D))
    (rawSymbol : Str) (date : D) (symbol : Str) : Prop :=
  TableMaps merger.mappings rawSymbol date symbol ∨
    exists m, m ∈ rest ∧ MappingsMap m.mappings rawSymbol date symbol

/-- What holds of the merger that the loop over the inputs ends with. -/
theorem foldlM_merge_covers (h : rest.foldlM merge merger = Except.ok merger') :
    (forall m, m ∈ rest ∨ HasSymbols merger m -> HasSymbols merger' m) ∧
    forall rawSymbol date symbol,
      TableMaps merger'.mappings rawSymbol date symbol <->
        Covers merger rest rawSymbol date symbol := by
  induction rest generalizing merger with
  | nil =>
      cases h
      constructor
      · intro m hm
        rcases hm with hmem | hm
        · cases hmem
        · exact hm
      · intro rawSymbol date symbol
        constructor
        · exact Or.inl
        · intro hcovers
          rcases hcovers with hmaps | ⟨_, hmem, _⟩
          · exact hmaps
          · cases hmem
  | cons additional rest ih =>
      rw [List.foldlM_cons] at h
      cases hmerge : merger.merge additional with
      | error e =>
          rw [hmerge] at h
          cases h
      | ok merger1 =>
          rw [hmerge] at h
          have hadds := adds_of_merge hmerge
          rcases ih h with ⟨hsymbols, hcovers⟩
          constructor
          · intro m hm
            apply hsymbols
            rcases hm with hmem | hm
            · rcases List.mem_cons.mp hmem with heq | hmem
              · exact Or.inr (hadds.hasSymbols (Or.inl heq))
              · exact Or.inl hmem
            · exact Or.inr (hadds.hasSymbols (Or.inr hm))
          · intro rawSymbol date symbol
            rw [hcovers]
            unfold Covers
            rw [tableMaps_foldlM_mergeMapping hadds.mappings, or_assoc]
            simp

end Inputs

/-!
## Results
-/

/-- The merged metadata has the mappings and the symbols of all inputs. -/
def LosesNothing (inputs : List (Metadata D)) (merged : Metadata D) : Prop :=
  forall m, m ∈ inputs ->
    (forall rawSymbol date symbol,
      MappingsMap m.mappings rawSymbol date symbol ->
        MappingsMap merged.mappings rawSymbol date symbol) ∧
    m.symbols ⊆ merged.symbols ∧ m.partialSymbols ⊆ merged.partialSymbols ∧
    m.notFound ⊆ merged.notFound

/--
Whatever a mapping of the first input covers that is followed by a mapping of
the same raw symbol is covered by the last of these or by another input.
-/
def OverwrittenCovered (original : Metadata D) (rest : List (Metadata D)) :
    Prop :=
  forall mapping later, mapping :: later <:+ original.mappings ->
    mapping.rawSymbol ∈ later.map SymbolMapping.rawSymbol ->
    forall date symbol, MapsTo mapping.intervals date symbol ->
      LastMaps later mapping.rawSymbol date symbol ∨
        exists m, m ∈ rest ∧
          MappingsMap m.mappings mapping.rawSymbol date symbol

section Results

variable {original merged : Metadata D} {rest : List (Metadata D)}
  {mappings later : List (SymbolMapping D)} {mapping : SymbolMapping D}
  {rawSymbol symbol : Str} {date : D}

theorem lastMaps_of_suffix (hsuffix : mapping :: later <:+ mappings)
    (hlast : mapping.rawSymbol ∉ later.map SymbolMapping.rawSymbol)
    (hmaps : MapsTo mapping.intervals date symbol) :
    LastMaps mappings mapping.rawSymbol date symbol := by
  rcases hsuffix with ⟨before, rfl⟩
  refine ⟨mapping.intervals, ?_, hmaps⟩
  have hnone : HashMap.lastValue (later.map (fun mapping =>
      (mapping.rawSymbol, mapping.intervals))) mapping.rawSymbol = none := by
    rw [HashMap.lastValue_eq_none, List.map_map]
    exact hlast
  rw [List.map_append, HashMap.lastValue_append, List.map_cons,
    HashMap.lastValue_cons, hnone]
  simp

/-- A mapping that comes later is the last one in the whole list. -/
theorem LastMaps.of_suffix (hsuffix : mapping :: later <:+ mappings)
    (h : LastMaps later rawSymbol date symbol) :
    LastMaps mappings rawSymbol date symbol := by
  rcases hsuffix with ⟨before, rfl⟩
  rcases h with ⟨intervals, hlast, hmaps⟩
  refine ⟨intervals, ?_, hmaps⟩
  rw [List.map_append, HashMap.lastValue_append, List.map_cons,
    HashMap.lastValue_cons, hlast]
  rfl

theorem lastMaps_suffix (hsuffix : mapping :: later <:+ mappings)
    (hmem : rawSymbol ∈ later.map SymbolMapping.rawSymbol)
    (h : LastMaps mappings rawSymbol date symbol) :
    LastMaps later rawSymbol date symbol := by
  rcases hsuffix with ⟨before, rfl⟩
  rcases h with ⟨intervals, hlast, hmaps⟩
  rw [List.map_append, HashMap.lastValue_append, List.map_cons,
    HashMap.lastValue_cons] at hlast
  cases hvalue : HashMap.lastValue (later.map (fun mapping =>
      (mapping.rawSymbol, mapping.intervals))) rawSymbol with
  | none =>
      rw [HashMap.lastValue_eq_none, List.map_map] at hvalue
      exact absurd hmem hvalue
  | some intervals' =>
      rw [hvalue] at hlast
      cases hlast
      exact ⟨intervals, hvalue, hmaps⟩

/-- With distinct raw symbols nothing is overwritten. -/
theorem overwrittenCovered_of_nodup
    (h : (original.mappings.map SymbolMapping.rawSymbol).Nodup) :
    OverwrittenCovered original rest := by
  intro mapping later hsuffix hmem
  have hnodup := (hsuffix.map SymbolMapping.rawSymbol).sublist.nodup h
  rw [List.map_cons, List.nodup_cons] at hnodup
  exact absurd hmem hnodup.1

variable [DebugText D] [DebugText Str] [HashOrder]

omit [LinearOrder D] [DebugText D] [DebugText Str] in
theorem mappingsMap_finalize {merger : MetadataMerger D} [LinearOrder D] :
    MappingsMap merger.finalize.mappings rawSymbol date symbol <->
      TableMaps merger.mappings rawSymbol date symbol := by
  unfold MappingsMap TableMaps finalize
  dsimp only
  constructor
  · intro h
    rcases h with ⟨mapping, hmem, rfl, hmaps⟩
    rcases List.mem_map.mp hmem with ⟨⟨k, v⟩, he, rfl⟩
    exact ⟨v, HashMap.mem_intoIter.mp he, hmaps⟩
  · intro h
    rcases h with ⟨intervals, hlookup, hmaps⟩
    exact ⟨⟨rawSymbol, intervals⟩,
      List.mem_map.mpr ⟨_, HashMap.mem_intoIter.mpr hlookup, rfl⟩, rfl, hmaps⟩

/-- What the merged metadata covers. -/
theorem mappingsMap_merge (h : original.merge rest = Except.ok merged) :
    (forall rawSymbol date symbol,
      MappingsMap merged.mappings rawSymbol date symbol <->
        LastMaps original.mappings rawSymbol date symbol ∨
          exists m, m ∈ rest ∧
            MappingsMap m.mappings rawSymbol date symbol) ∧
    forall m, m ∈ original :: rest -> m.symbols ⊆ merged.symbols ∧
      m.partialSymbols ⊆ merged.partialSymbols ∧
      m.notFound ⊆ merged.notFound := by
  unfold Metadata.merge at h
  cases hfold : rest.foldlM MetadataMerger.merge (new original) with
  | error e =>
      rw [hfold] at h
      cases h
  | ok merger =>
      rw [hfold] at h
      cases h
      rcases foldlM_merge_covers hfold with ⟨hsymbols, hcovers⟩
      constructor
      · intro rawSymbol date symbol
        rw [mappingsMap_finalize, hcovers, Covers, tableMaps_new_iff]
      · intro m hm
        have hhas : HasSymbols merger m := by
          apply hsymbols
          rcases List.mem_cons.mp hm with rfl | hm
          · exact Or.inr hasSymbols_new
          · exact Or.inl hm
        constructor
        · intro k hk
          exact HashSet.mem_order.mpr (hhas.symbols hk)
        · constructor
          · intro k hk
            exact HashSet.mem_order.mpr (hhas.partialSymbols hk)
          · intro k hk
            exact HashSet.mem_order.mpr (hhas.notFound hk)

/--
A merge loses no mapping and no symbol of its inputs exactly if whatever an
overwritten mapping of the first input covers is covered elsewhere.
-/
theorem merge_losesNothing_iff (h : original.merge rest = Except.ok merged) :
    LosesNothing (original :: rest) merged <->
      OverwrittenCovered original rest := by
  constructor
  · intro hloses mapping later hsuffix hmem date symbol hmaps
    have hin : MappingsMap original.mappings mapping.rawSymbol date symbol :=
      ⟨mapping, hsuffix.subset List.mem_cons_self, rfl, hmaps⟩
    have hout := (hloses original List.mem_cons_self).1 _ _ _ hin
    rcases ((mappingsMap_merge h).1 _ _ _).mp hout with hlast | hrest
    · exact Or.inl (lastMaps_suffix hsuffix hmem hlast)
    · exact Or.inr hrest
  · intro hcovered m hm
    constructor
    · intro rawSymbol date symbol hmaps
      apply ((mappingsMap_merge h).1 _ _ _).mpr
      rcases List.mem_cons.mp hm with rfl | hm
      · rcases hmaps with ⟨mapping, hmem, rfl, hmaps⟩
        rcases List.append_of_mem hmem with ⟨before, later, hsplit⟩
        have hsuffix : mapping :: later <:+ m.mappings :=
          ⟨before, hsplit.symm⟩
        by_cases hlater : mapping.rawSymbol ∈
            later.map SymbolMapping.rawSymbol
        · rcases hcovered mapping later hsuffix hlater date symbol hmaps with
            hlast | hrest
          · exact Or.inl (hlast.of_suffix hsuffix)
          · exact Or.inr hrest
        · exact Or.inl (lastMaps_of_suffix hsuffix hlater hmaps)
      · exact Or.inr ⟨m, hm, hmaps⟩
    · exact (mappingsMap_merge h).2 m hm

end Results

/-- Metadata that lists a raw symbol twice. -/
def repeatedMetadata : Metadata GregorianDate :=
  { juneMetadata [] with
    mappings := (juneMetadata [juneInterval 0 3 0]).mappings ++
      (juneMetadata [juneInterval 3 5 1]).mappings }

/-- Metadata with a mapping of another raw symbol. -/
def otherMetadata : Metadata GregorianDate :=
  { juneMetadata [] with
    mappings := [⟨⟨[66], by decide⟩, [juneInterval 3 5 1]⟩] }

theorem merge_losesNothing_iff_june :
    exists merged, repeatedMetadata.merge [otherMetadata] =
        Except.ok merged ∧
      (LosesNothing [repeatedMetadata, otherMetadata] merged <->
        OverwrittenCovered repeatedMetadata [otherMetadata]) :=
  ⟨_, rfl, merge_losesNothing_iff rfl⟩

/-- The first mapping of the only input is not in the merged metadata. -/
theorem not_losesNothing_repeated :
    exists merged, repeatedMetadata.merge [] = Except.ok merged ∧
      ¬ LosesNothing [repeatedMetadata] merged := by
  refine ⟨_, rfl, ?_⟩
  intro hloses
  have hmaps : MappingsMap repeatedMetadata.mappings ⟨[65], by decide⟩
      (june 0) ⟨[65], by decide⟩ :=
    ⟨_, List.mem_cons_self, rfl, _, List.mem_cons_self,
      ⟨by decide, by decide⟩, rfl⟩
  rcases (hloses _ List.mem_cons_self).1 _ _ _ hmaps with
    ⟨mapping, hmem, _, i, hi, hdate, _⟩
  -- the table has the second mapping only
  have hlist : (MetadataMerger.finalize
      (MetadataMerger.new repeatedMetadata)).mappings =
      (juneMetadata [juneInterval 3 5 1]).mappings := rfl
  rw [hlist] at hmem
  rw [List.mem_singleton.mp hmem] at hi
  rw [List.mem_singleton.mp hi] at hdate
  exact absurd hdate.1 (by decide)

end MetadataMerger
end Dbn
