import Dbn.Metadata.MergeIntervals

/-!
# Conflicts between mappings

Two inputs conflict when they map a date of a raw symbol to different symbols.
A merge walks the intervals of a raw symbol by their dates and fails exactly
when two that stand together conflict.  An interval that has been merged with
another one does not stand together with any that follow.
-/

namespace Dbn
namespace MetadataMerger

open Lib

variable {D : Type} [LinearOrder D]

/-- Some mapping maps the date of a raw symbol to the symbol. -/
def MappingsMap (mappings : List (SymbolMapping D)) (rawSymbol : Str)
    (date : D) (symbol : Str) : Prop :=
  exists mapping, mapping ∈ mappings ∧ mapping.rawSymbol = rawSymbol ∧
    MapsTo mapping.intervals date symbol

/-- The intervals of a raw symbol, none when it has no mapping. -/
def intervalsOf (mappings : List (SymbolMapping D)) (rawSymbol : Str) :
    List (MappingInterval D) :=
  ((mappings.find? (fun mapping => mapping.rawSymbol = rawSymbol)).map
    SymbolMapping.intervals).getD []

/--
When the lists are added to the first one in turn, two intervals with different
symbols stand together.
-/
def ClashesInTurn : List (MappingInterval D) ->
    List (List (MappingInterval D)) -> Prop
  | _, [] => False
  | orig, add :: rest =>
      Clash (walk orig add) ∨ ClashesInTurn ((walk orig add).map fuse) rest

/-- The intervals of some raw symbol clash when the inputs are walked in turn. -/
def Exposes (original : Metadata D) (rest : List (Metadata D)) : Prop :=
  exists rawSymbol, ClashesInTurn (intervalsOf original.mappings rawSymbol)
    (rest.map (fun m => intervalsOf m.mappings rawSymbol))

section Mappings

variable {mapping : SymbolMapping D} {added : List (SymbolMapping D)}
  {rawSymbol : Str}

theorem mappingsMap_cons {rawSymbol symbol : Str} {date : D} :
    MappingsMap (mapping :: added) rawSymbol date symbol <->
      (rawSymbol = mapping.rawSymbol ∧ MapsTo mapping.intervals date symbol) ∨
        MappingsMap added rawSymbol date symbol := by
  unfold MappingsMap
  constructor
  · intro h
    rcases h with ⟨other, hother, hraw, hmaps⟩
    rcases List.mem_cons.mp hother with heq | hmem
    · rw [heq] at hraw hmaps
      exact Or.inl ⟨hraw.symm, hmaps⟩
    · exact Or.inr ⟨other, hmem, hraw, hmaps⟩
  · intro h
    rcases h with ⟨hraw, hmaps⟩ | ⟨other, hother, hraw, hmaps⟩
    · exact ⟨mapping, List.mem_cons_self, hraw.symm, hmaps⟩
    · exact ⟨other, List.mem_cons_of_mem _ hother, hraw, hmaps⟩

omit [LinearOrder D] in
@[simp] theorem intervalsOf_nil (rawSymbol : Str) :
    intervalsOf ([] : List (SymbolMapping D)) rawSymbol = [] := rfl

omit [LinearOrder D] in
theorem intervalsOf_cons_self :
    intervalsOf (mapping :: added) mapping.rawSymbol = mapping.intervals := by
  simp [intervalsOf]

omit [LinearOrder D] in
theorem intervalsOf_cons_ne (h : rawSymbol ≠ mapping.rawSymbol) :
    intervalsOf (mapping :: added) rawSymbol = intervalsOf added rawSymbol := by
  unfold intervalsOf
  rw [List.find?_cons_of_neg]
  simpa using h.symm

omit [LinearOrder D] in
theorem intervalsOf_of_not_mem
    (h : rawSymbol ∉ added.map SymbolMapping.rawSymbol) :
    intervalsOf added rawSymbol = [] := by
  induction added with
  | nil => rfl
  | cons mapping added ih =>
      rw [List.map_cons, List.mem_cons, not_or] at h
      rw [intervalsOf_cons_ne h.1]
      exact ih h.2

omit [LinearOrder D] in
theorem intervalsOf_of_mem (hnodup : (added.map SymbolMapping.rawSymbol).Nodup)
    (hmem : mapping ∈ added) :
    intervalsOf added mapping.rawSymbol = mapping.intervals := by
  induction added with
  | nil => cases hmem
  | cons other added ih =>
      rw [List.map_cons, List.nodup_cons] at hnodup
      rcases List.mem_cons.mp hmem with heq | hmem
      · rw [heq]
        exact intervalsOf_cons_self
      · have hne : mapping.rawSymbol ≠ other.rawSymbol := by
          intro heq
          apply hnodup.1
          rw [← heq]
          exact List.mem_map_of_mem hmem
        rw [intervalsOf_cons_ne hne]
        exact ih hnodup.2 hmem

omit [LinearOrder D] in
/-- The intervals of a raw symbol are those of a mapping, or there are none. -/
theorem intervalsOf_cases (added : List (SymbolMapping D)) (rawSymbol : Str) :
    intervalsOf added rawSymbol = [] ∨
      exists mapping, mapping ∈ added ∧ mapping.rawSymbol = rawSymbol ∧
        intervalsOf added rawSymbol = mapping.intervals := by
  induction added with
  | nil => exact Or.inl rfl
  | cons mapping added ih =>
      by_cases heq : rawSymbol = mapping.rawSymbol
      · rw [heq, intervalsOf_cons_self]
        exact Or.inr ⟨mapping, List.mem_cons_self, rfl, rfl⟩
      · rw [intervalsOf_cons_ne heq]
        rcases ih with hnil | ⟨other, hmem, hother⟩
        · exact Or.inl hnil
        · exact Or.inr ⟨other, List.mem_cons_of_mem _ hmem, hother⟩

end Mappings

/-!
## Tables
-/

/-- The intervals that a table has of a raw symbol. -/
def entry (table : HashMap Str (List (MappingInterval D))) (rawSymbol : Str) :
    List (MappingInterval D) :=
  (table.lookup rawSymbol).getD []

/-- All intervals of a table have a date. -/
def TableProper (table : HashMap Str (List (MappingInterval D))) : Prop :=
  forall rawSymbol, Proper (entry table rawSymbol)

/-- Mappings with distinct raw symbols and intervals that have a date. -/
structure MappingsProper (mappings : List (SymbolMapping D)) : Prop where
  proper : forall mapping, mapping ∈ mappings -> Proper mapping.intervals
  nodup : (mappings.map SymbolMapping.rawSymbol).Nodup

/-- The intervals of a raw symbol in a table and in an input, side by side. -/
def walkOf (table : HashMap Str (List (MappingInterval D)))
    (added : List (SymbolMapping D)) (rawSymbol : Str) :
    List (Aligned (MappingInterval D)) :=
  walk (entry table rawSymbol) (intervalsOf added rawSymbol)

section Tables

variable {table : HashMap Str (List (MappingInterval D))}
  {mapping : SymbolMapping D} {added : List (SymbolMapping D)}
  {intervals : List (MappingInterval D)} {rawSymbol : Str}

theorem MappingsProper.proper_intervalsOf (h : MappingsProper added) (rawSymbol : Str) :
    Proper (intervalsOf added rawSymbol) := by
  rcases intervalsOf_cases added rawSymbol with hnil | ⟨mapping, hmem, _, heq⟩
  · rw [hnil]
    intro i hi
    cases hi
  · rw [heq]
    exact h.proper mapping hmem

theorem MappingsProper.tail (h : MappingsProper (mapping :: added)) :
    MappingsProper added where
  proper := fun other hmem => h.proper other (List.mem_cons_of_mem _ hmem)
  nodup := (List.nodup_cons.mp h.nodup).2

omit [LinearOrder D] in
theorem entry_insert_self :
    entry (table.insert rawSymbol intervals) rawSymbol = intervals := by
  unfold entry
  rw [AList.lookup_insert]
  rfl

omit [LinearOrder D] in
theorem entry_insert_ne {rawSymbol' : Str} (h : rawSymbol' ≠ rawSymbol) :
    entry (table.insert rawSymbol intervals) rawSymbol' =
      entry table rawSymbol' := by
  unfold entry
  rw [AList.lookup_insert_ne h]

variable [DebugText D] [DebugText Str]

/-- One mapping is added, or clashes with what the table has. -/
theorem mergeMapping_cases (htable : TableProper table)
    (hmapping : Proper mapping.intervals) :
    (exists intervals, mergeMapping table mapping =
        Except.ok (table.insert mapping.rawSymbol intervals) ∧
      intervals = (walk (entry table mapping.rawSymbol)
        mapping.intervals).map fuse ∧ Proper intervals ∧
      ¬ Clash (walk (entry table mapping.rawSymbol) mapping.intervals)) ∨
    exists e, mergeMapping table mapping = Except.error e ∧
      Clash (walk (entry table mapping.rawSymbol) mapping.intervals) := by
  have hentry := htable mapping.rawSymbol
  unfold mergeMapping
  unfold entry at hentry ⊢
  cases hlookup : table.lookup mapping.rawSymbol with
  | none =>
      left
      rw [Option.getD_none, fuse_nil_left]
      exact ⟨mapping.intervals, rfl, rfl, hmapping, not_clash_nil_left⟩
  | some intervals =>
      rw [hlookup, Option.getD_some] at hentry
      rw [Option.getD_some]
      dsimp only
      rcases mergeIntervals_cases hentry hmapping with
        ⟨hok, hinto, hnot⟩ | ⟨e, herr, hclash⟩
      · left
        rw [hok]
        exact ⟨_, rfl, rfl, hinto.proper hentry hmapping, hnot⟩
      · right
        rw [herr]
        exact ⟨e, rfl, hclash⟩

omit [DebugText D] [DebugText Str] in
theorem TableProper.insert (h : TableProper table) (rawSymbol : Str)
    (hintervals : Proper intervals) :
    TableProper (table.insert rawSymbol intervals) := by
  intro rawSymbol'
  by_cases heq : rawSymbol' = rawSymbol
  · rw [heq, entry_insert_self]
    exact hintervals
  · rw [entry_insert_ne heq]
    exact h rawSymbol'

omit [DebugText D] [DebugText Str] in
/-- A new entry leaves the walks of other raw symbols as they are. -/
theorem walkOf_insert (table : HashMap Str (List (MappingInterval D)))
    (intervals : List (MappingInterval D))
    (hnot : mapping.rawSymbol ∉ added.map SymbolMapping.rawSymbol)
    (rawSymbol : Str) :
    walkOf (table.insert mapping.rawSymbol intervals) added rawSymbol =
      if rawSymbol = mapping.rawSymbol then walk intervals []
      else walkOf table (mapping :: added) rawSymbol := by
  unfold walkOf
  by_cases heq : rawSymbol = mapping.rawSymbol
  · rw [if_pos heq, heq, entry_insert_self, intervalsOf_of_not_mem hnot]
  · rw [if_neg heq, entry_insert_ne heq, intervalsOf_cons_ne heq]

/-- The mappings of one input are added, or those of a raw symbol clash. -/
theorem foldlM_mergeMapping_cases (htable : TableProper table)
    (hadded : MappingsProper added) :
    (exists table', added.foldlM mergeMapping table = Except.ok table' ∧
      TableProper table' ∧ forall rawSymbol,
        entry table' rawSymbol = (walkOf table added rawSymbol).map fuse ∧
          ¬ Clash (walkOf table added rawSymbol)) ∨
    exists e, added.foldlM mergeMapping table = Except.error e ∧
      exists rawSymbol, Clash (walkOf table added rawSymbol) := by
  induction added generalizing table with
  | nil =>
      left
      refine ⟨table, rfl, htable, fun rawSymbol => ?_⟩
      unfold walkOf
      rw [intervalsOf_nil, fuse_nil_right]
      exact ⟨rfl, not_clash_nil_right⟩
  | cons mapping added ih =>
      have hfresh := (List.nodup_cons.mp hadded.nodup).1
      have hself : walkOf table (mapping :: added) mapping.rawSymbol =
          walk (entry table mapping.rawSymbol) mapping.intervals := by
        unfold walkOf
        rw [intervalsOf_cons_self]
      rw [List.foldlM_cons]
      rcases mergeMapping_cases htable
        (hadded.proper _ List.mem_cons_self) with
        ⟨intervals, hok, hfuse, hproper, hnot⟩ | ⟨e, herr, hclash⟩
      swap
      · right
        rw [herr]
        exact ⟨e, rfl, mapping.rawSymbol, hself.symm ▸ hclash⟩
      rw [hok]
      have hwalk := walkOf_insert table intervals hfresh
      rcases ih (htable.insert mapping.rawSymbol hproper) hadded.tail with
        ⟨table', hok', hproper', hentries⟩ | ⟨e, herr, rawSymbol, hclash⟩
      · left
        refine ⟨table', hok', hproper', fun rawSymbol => ?_⟩
        have hentry := hentries rawSymbol
        rw [hwalk] at hentry
        by_cases heq : rawSymbol = mapping.rawSymbol
        · rw [if_pos heq, fuse_nil_right] at hentry
          rw [hentry.1, heq, hself]
          exact ⟨hfuse, hnot⟩
        · rwa [if_neg heq] at hentry
      · right
        rw [hwalk] at hclash
        by_cases heq : rawSymbol = mapping.rawSymbol
        · rw [if_pos heq] at hclash
          exact absurd hclash not_clash_nil_right
        · rw [if_neg heq] at hclash
          exact ⟨e, herr, rawSymbol, hclash⟩

end Tables

/-!
## Inputs
-/

/-- The fields that must be the same in all inputs. -/
structure Agrees (merger : MetadataMerger D) (additional : Metadata D) :
    Prop where
  version : merger.version = additional.version
  dataset : merger.dataset = additional.dataset
  stypeIn : merger.stypeIn = additional.stypeIn
  stypeOut : merger.stypeOut = additional.stypeOut
  tsOut : merger.tsOut = additional.tsOut
  symbolCstrLen : merger.symbolCstrLen = additional.symbolCstrLen

/-- Two of the inputs map a date of a raw symbol to different symbols. -/
def Conflict (inputs : List (Metadata D)) : Prop :=
  exists m m' rawSymbol date symbol symbol', m ∈ inputs ∧ m' ∈ inputs ∧
    MappingsMap m.mappings rawSymbol date symbol ∧
    MappingsMap m'.mappings rawSymbol date symbol' ∧ symbol ≠ symbol'

section Runs

variable [DebugText D] [DebugText Str]

/-- The metadata of two inputs, with the mappings that have been merged. -/
def joined (self : MetadataMerger D) (additional : Metadata D)
    (mappings : HashMap Str (List (MappingInterval D))) : MetadataMerger D :=
  { self with
    schema := if self.schema ≠ additional.schema then none else self.schema
    start := min self.start additional.start
    endTs := maxEnd self.endTs additional.endTs
    limit := none
    symbols := HashSet.extend self.symbols additional.symbols
    partialSymbols :=
      HashSet.extend self.partialSymbols additional.partialSymbols
    notFound := HashSet.extend self.notFound additional.notFound
    mappings := mappings }

theorem merge_of_agrees {merger : MetadataMerger D} {additional : Metadata D}
    (h : Agrees merger additional) :
    merger.merge additional =
      (additional.mappings.foldlM mergeMapping merger.mappings).map
        (joined merger additional) := by
  unfold merge
  rw [if_neg (not_not.mpr h.version), if_neg (not_not.mpr h.dataset),
    if_neg (not_not.mpr h.stypeIn), if_neg (not_not.mpr h.stypeOut),
    if_neg (not_not.mpr h.tsOut), if_neg (not_not.mpr h.symbolCstrLen)]
  cases additional.mappings.foldlM mergeMapping merger.mappings <;> rfl

theorem merge_of_not_agrees {merger : MetadataMerger D}
    {additional : Metadata D} (h : ¬ Agrees merger additional) :
    exists e, merger.merge additional = Except.error e := by
  unfold merge
  split_ifs with hversion hdataset hstypeIn hstypeOut htsOut hsymbolCstrLen
  any_goals exact ⟨_, rfl⟩
  all_goals exact absurd ⟨not_not.mp hversion, not_not.mp hdataset,
    not_not.mp hstypeIn, not_not.mp hstypeOut, not_not.mp htsOut,
    not_not.mp hsymbolCstrLen⟩ h

variable {merger : MetadataMerger D} {additional : Metadata D}
  {rest : List (Metadata D)}

/-- One input is added, or the intervals of a raw symbol clash. -/
theorem merge_cases (hagrees : Agrees merger additional)
    (htable : TableProper merger.mappings)
    (hproper : MappingsProper additional.mappings) :
    (exists merger', merger.merge additional = Except.ok merger' ∧
      TableProper merger'.mappings ∧
      (forall m, Agrees merger m -> Agrees merger' m) ∧
      forall rawSymbol, entry merger'.mappings rawSymbol =
          (walkOf merger.mappings additional.mappings rawSymbol).map fuse ∧
        ¬ Clash (walkOf merger.mappings additional.mappings rawSymbol)) ∨
    exists e, merger.merge additional = Except.error e ∧
      exists rawSymbol,
        Clash (walkOf merger.mappings additional.mappings rawSymbol) := by
  rw [merge_of_agrees hagrees]
  rcases foldlM_mergeMapping_cases htable hproper with
    ⟨table', hok, hproper', hentries⟩ | ⟨e, herr, hclash⟩
  · left
    rw [hok]
    refine ⟨_, rfl, hproper', ?_, hentries⟩
    intro m hm
    exact ⟨hm.version, hm.dataset, hm.stypeIn, hm.stypeOut, hm.tsOut,
      hm.symbolCstrLen⟩
  · right
    rw [herr]
    exact ⟨e, rfl, hclash⟩

/-- The intervals of a raw symbol clash while the inputs are added in turn. -/
def ClashesOf (table : HashMap Str (List (MappingInterval D)))
    (rest : List (Metadata D)) (rawSymbol : Str) : Prop :=
  ClashesInTurn (entry table rawSymbol)
    (rest.map (fun m => intervalsOf m.mappings rawSymbol))

/-- The inputs are added, or the intervals of a raw symbol clash. -/
theorem foldlM_merge_cases
    (hagrees : forall m, m ∈ rest -> Agrees merger m)
    (htable : TableProper merger.mappings)
    (hproper : forall m, m ∈ rest -> MappingsProper m.mappings) :
    (exists merger', rest.foldlM merge merger = Except.ok merger' ∧
      forall rawSymbol, ¬ ClashesOf merger.mappings rest rawSymbol) ∨
    exists e, rest.foldlM merge merger = Except.error e ∧
      exists rawSymbol, ClashesOf merger.mappings rest rawSymbol := by
  induction rest generalizing merger with
  | nil => exact Or.inl ⟨merger, rfl, fun _ h => h⟩
  | cons additional rest ih =>
      rw [List.foldlM_cons]
      rcases merge_cases (hagrees _ List.mem_cons_self) htable
        (hproper _ List.mem_cons_self) with
        ⟨merger1, hok, htable1, hkeeps, hentries⟩ | ⟨e, herr, rawSymbol, hclash⟩
      swap
      · right
        rw [herr]
        exact ⟨e, rfl, rawSymbol, Or.inl hclash⟩
      have hstep : forall rawSymbol,
          ClashesOf merger.mappings (additional :: rest) rawSymbol <->
            ClashesOf merger1.mappings rest rawSymbol := by
        intro rawSymbol
        unfold ClashesOf
        rw [(hentries rawSymbol).1]
        exact or_iff_right (hentries rawSymbol).2
      simp only [hstep]
      rw [hok]
      exact ih (fun m hm => hkeeps m (hagrees m (List.mem_cons_of_mem _ hm)))
        htable1 (fun m hm => hproper m (List.mem_cons_of_mem _ hm))

end Runs

/-!
## What is found
-/

section Found

variable {original : Metadata D} {rest : List (Metadata D)}

/-- Intervals that stand together have a date in common. -/
theorem Clash.exists_date {orig add : List (MappingInterval D)}
    (h : Clash (walk orig add)) (horig : Proper orig) (hadd : Proper add) :
    exists date symbol symbol', MapsTo orig date symbol ∧
      MapsTo add date symbol' ∧ symbol ≠ symbol' := by
  obtain ⟨x, y, hboth, hne⟩ := h
  obtain ⟨hx, hy, hoverlaps⟩ := Alignment.overlaps_of_both hboth
  obtain ⟨date, hdx, hdy⟩ := (HalfOpen.overlaps_iff_exists_mem (horig x hx)
    (hadd y hy)).mp hoverlaps
  exact ⟨date, x.symbol, y.symbol, ⟨x, hx, hdx, rfl⟩, ⟨y, hy, hdy, rfl⟩, hne⟩

variable [DebugText D] [DebugText Str]

/-- What clashes in turn conflicts in the lists. -/
theorem ClashesInTurn.exists_date {orig : List (MappingInterval D)}
    {lists : List (List (MappingInterval D))} (h : ClashesInTurn orig lists)
    (horig : Proper orig) (hlists : forall l, l ∈ lists -> Proper l) :
    exists date symbol symbol',
      (exists l, l ∈ orig :: lists ∧ MapsTo l date symbol) ∧
      (exists l, l ∈ orig :: lists ∧ MapsTo l date symbol') ∧
      symbol ≠ symbol' := by
  induction lists generalizing orig with
  | nil => cases h
  | cons add lists ih =>
      have hadd := hlists add List.mem_cons_self
      rcases mergeIntervals_cases horig hadd with
        ⟨_, hinto, hnot⟩ | ⟨_, _, hclash⟩
      swap
      · obtain ⟨date, symbol, symbol', hmaps, hmaps', hne⟩ :=
          hclash.exists_date horig hadd
        exact ⟨date, symbol, symbol', ⟨orig, List.mem_cons_self, hmaps⟩,
          ⟨add, List.mem_cons_of_mem _ List.mem_cons_self, hmaps'⟩, hne⟩
      -- the lists that were merged cover what the merged list covers
      have hcovers : forall date symbol,
          (exists l, l ∈ (walk orig add).map fuse :: lists ∧
            MapsTo l date symbol) ->
          exists l, l ∈ orig :: add :: lists ∧ MapsTo l date symbol := by
        rintro date symbol ⟨l, hl, hmaps⟩
        rcases List.mem_cons.mp hl with heq | hmem
        · rw [heq] at hmaps
          rcases hinto.mapsTo_iff.mp hmaps with hmaps | hmaps
          · exact ⟨orig, List.mem_cons_self, hmaps⟩
          · exact ⟨add, List.mem_cons_of_mem _ List.mem_cons_self, hmaps⟩
        · exact ⟨l, List.mem_cons_of_mem _ (List.mem_cons_of_mem _ hmem), hmaps⟩
      obtain ⟨date, symbol, symbol', hmaps, hmaps', hne⟩ :=
        ih (h.resolve_left hnot) (hinto.proper horig hadd)
          (fun l hl => hlists l (List.mem_cons_of_mem _ hl))
      exact ⟨date, symbol, symbol', hcovers _ _ hmaps, hcovers _ _ hmaps', hne⟩

omit [DebugText D] [DebugText Str] in
theorem MappingsMap.of_intervalsOf {mappings : List (SymbolMapping D)}
    {rawSymbol symbol : Str} {date : D}
    (h : MapsTo (intervalsOf mappings rawSymbol) date symbol) :
    MappingsMap mappings rawSymbol date symbol := by
  rcases intervalsOf_cases mappings rawSymbol with
    hnil | ⟨mapping, hmem, hraw, heq⟩
  · rw [hnil] at h
    exact absurd h not_mapsTo_nil
  · rw [heq] at h
    exact ⟨mapping, hmem, hraw, h⟩

/-- What is found to conflict does conflict. -/
theorem Exposes.conflict (h : Exposes original rest)
    (hproper : forall m, m ∈ original :: rest -> MappingsProper m.mappings) :
    Conflict (original :: rest) := by
  obtain ⟨rawSymbol, hclashes⟩ := h
  have hinput : forall l, l ∈ (original :: rest).map
      (fun m => intervalsOf m.mappings rawSymbol) ->
      exists m, m ∈ original :: rest ∧ intervalsOf m.mappings rawSymbol = l :=
    fun l hl => List.mem_map.mp hl
  have hlists : forall l, l ∈ (original :: rest).map
      (fun m => intervalsOf m.mappings rawSymbol) -> Proper l := by
    intro l hl
    obtain ⟨m, hm, rfl⟩ := hinput l hl
    exact (hproper m hm).proper_intervalsOf rawSymbol
  obtain ⟨date, symbol, symbol', ⟨l, hl, hmaps⟩, ⟨l', hl', hmaps'⟩, hne⟩ :=
    hclashes.exists_date (hlists _ List.mem_cons_self)
      (fun l hl => hlists l (List.mem_cons_of_mem _ hl))
  obtain ⟨m, hm, rfl⟩ := hinput l hl
  obtain ⟨m', hm', rfl⟩ := hinput l' hl'
  exact ⟨m, m', rawSymbol, date, symbol, symbol', hm, hm',
    MappingsMap.of_intervalsOf hmaps, MappingsMap.of_intervalsOf hmaps', hne⟩

omit [DebugText D] [DebugText Str] in
/-- The table of the first input has its mappings. -/
theorem entry_new (h : MappingsProper original.mappings) (rawSymbol : Str) :
    entry (new original).mappings rawSymbol =
      intervalsOf original.mappings rawSymbol := by
  have hlookup : forall intervals,
      (new original).mappings.lookup rawSymbol = some intervals <->
        exists mapping, mapping ∈ original.mappings ∧
          mapping.rawSymbol = rawSymbol ∧ mapping.intervals = intervals := by
    intro intervals
    unfold new
    dsimp only
    rw [HashMap.lookup_ofEntries]
    · rw [List.mem_map]
      simp only [Prod.mk.injEq]
    · rw [List.map_map]
      exact h.nodup
  unfold entry
  cases hentry : (new original).mappings.lookup rawSymbol with
  | some intervals =>
      obtain ⟨mapping, hmem, rfl, rfl⟩ := (hlookup intervals).mp hentry
      rw [intervalsOf_of_mem h.nodup hmem]
      rfl
  | none =>
      rcases intervalsOf_cases original.mappings rawSymbol with
        hnil | ⟨mapping, hmem, hraw, heq⟩
      · exact hnil.symm
      · have hsome := (hlookup mapping.intervals).mpr
          ⟨mapping, hmem, hraw, rfl⟩
        rw [hentry] at hsome
        cases hsome

/-- A merge fails when the intervals of a raw symbol clash in turn. -/
theorem merge_error_iff_exposes [HashOrder]
    (hagrees : forall m, m ∈ rest -> Agrees (new original) m)
    (hproper : forall m, m ∈ original :: rest -> MappingsProper m.mappings) :
    (exists e, original.merge rest = Except.error e) <->
      Exposes original rest := by
  have horiginal := hproper original List.mem_cons_self
  have htable : TableProper (new original).mappings := by
    intro rawSymbol
    rw [entry_new horiginal]
    exact horiginal.proper_intervalsOf rawSymbol
  have hexposes : Exposes original rest <->
      exists rawSymbol, ClashesOf (new original).mappings rest rawSymbol := by
    unfold Exposes ClashesOf
    simp only [entry_new horiginal]
  rw [hexposes]
  unfold Metadata.merge
  rcases foldlM_merge_cases hagrees htable
    (fun m hm => hproper m (List.mem_cons_of_mem _ hm)) with
    ⟨merger', hok, hnot⟩ | ⟨e, herr, hclashes⟩
  · rw [hok]
    constructor
    · rintro ⟨e, he⟩
      cases he
    · rintro ⟨rawSymbol, hclashes⟩
      exact absurd hclashes (hnot rawSymbol)
  · rw [herr]
    exact ⟨fun _ => hclashes, fun _ => ⟨e, rfl⟩⟩

/--
A merge fails exactly for inputs that conflict if and only if they do not
conflict, or two of their intervals with different symbols stand together when
the lists of a raw symbol are walked in turn.
-/
theorem merge_error_iff_conflict_iff [HashOrder]
    (hagrees : forall m, m ∈ rest -> Agrees (new original) m)
    (hproper : forall m, m ∈ original :: rest -> MappingsProper m.mappings) :
    ((exists e, original.merge rest = Except.error e) <->
      Conflict (original :: rest)) <->
    (¬ Conflict (original :: rest) ∨ Exposes original rest) := by
  rw [merge_error_iff_exposes hagrees hproper]
  constructor
  · intro hiff
    by_cases hconflict : Conflict (original :: rest)
    · exact Or.inr (hiff.mpr hconflict)
    · exact Or.inl hconflict
  · rintro (hnot | hexposes)
    · exact ⟨fun h => h.conflict hproper, fun h => absurd h hnot⟩
    · exact ⟨fun h => h.conflict hproper, fun _ => hexposes⟩

end Found

/-- The order of insertion. -/
instance : HashOrder where
  order l := l
  order_perm := List.Perm.refl

/-- Metadata with one mapping of a raw symbol of one letter. -/
def juneMetadata (intervals : List (MappingInterval GregorianDate)) :
    Metadata GregorianDate where
  version := 3
  dataset := ⟨[65], by decide⟩
  schema := none
  start := 0
  endTs := none
  limit := none
  stypeIn := none
  stypeOut := .instrumentId
  tsOut := false
  symbolCstrLen := symbolCstrLenV3
  symbols := []
  partialSymbols := []
  notFound := []
  mappings := [⟨⟨[65], by decide⟩, intervals⟩]

theorem mappingsProper_june {intervals : List (MappingInterval GregorianDate)}
    (h : Proper intervals) :
    MappingsProper (juneMetadata intervals).mappings := by
  constructor
  · intro mapping hmapping
    rw [List.mem_singleton.mp hmapping]
    exact h
  · exact List.nodup_singleton _

theorem agrees_june (intervals intervals' : List (MappingInterval GregorianDate)) :
    Agrees (new (juneMetadata intervals)) (juneMetadata intervals') :=
  ⟨rfl, rfl, rfl, rfl, rfl, rfl⟩

theorem merge_error_iff_conflict_iff_june :
    ((exists e, (juneMetadata [juneInterval 0 9 0]).merge
        [juneMetadata [juneInterval 3 5 1]] = Except.error e) <->
      Conflict [juneMetadata [juneInterval 0 9 0],
        juneMetadata [juneInterval 3 5 1]]) <->
    (¬ Conflict [juneMetadata [juneInterval 0 9 0],
        juneMetadata [juneInterval 3 5 1]] ∨
      Exposes (juneMetadata [juneInterval 0 9 0])
        [juneMetadata [juneInterval 3 5 1]]) := by
  apply merge_error_iff_conflict_iff
  · intro m hm
    rw [List.mem_singleton.mp hm]
    exact agrees_june _ _
  · intro m hm
    rcases List.mem_cons.mp hm with heq | hmem
    · rw [heq]
      exact mappingsProper_june (by decide)
    · rw [List.mem_singleton.mp hmem]
      exact mappingsProper_june (by decide)

/-- The second interval of an input is not compared with the one it is in. -/
theorem merge_misses_conflict_june :
    (forall m, m ∈ [juneMetadata [juneInterval 0 2 0, juneInterval 3 5 1]] ->
      Agrees (new (juneMetadata [juneInterval 0 9 0])) m) ∧
    (forall m, m ∈ [juneMetadata [juneInterval 0 9 0],
        juneMetadata [juneInterval 0 2 0, juneInterval 3 5 1]] ->
      MappingsProper m.mappings) ∧
    SortedDisjoint [juneInterval 0 9 0] ∧
    SortedDisjoint [juneInterval 0 2 0, juneInterval 3 5 1] ∧
    ¬ ((exists e, (juneMetadata [juneInterval 0 9 0]).merge
        [juneMetadata [juneInterval 0 2 0, juneInterval 3 5 1]] =
          Except.error e) <->
      Conflict [juneMetadata [juneInterval 0 9 0],
        juneMetadata [juneInterval 0 2 0, juneInterval 3 5 1]]) := by
  have hagrees : forall m,
      m ∈ [juneMetadata [juneInterval 0 2 0, juneInterval 3 5 1]] ->
      Agrees (new (juneMetadata [juneInterval 0 9 0])) m := by
    intro m hm
    rw [List.mem_singleton.mp hm]
    exact agrees_june _ _
  have hproper := mappingsProper_june
    (show Proper [juneInterval 0 9 0] by decide)
  have hproper' := mappingsProper_june
    (show Proper [juneInterval 0 2 0, juneInterval 3 5 1] by decide)
  have hinputs : forall m, m ∈ [juneMetadata [juneInterval 0 9 0],
      juneMetadata [juneInterval 0 2 0, juneInterval 3 5 1]] ->
      MappingsProper m.mappings := by
    intro m hm
    rcases List.mem_cons.mp hm with heq | hmem
    · rw [heq]
      exact hproper
    · rw [List.mem_singleton.mp hmem]
      exact hproper'
  -- the only intervals that stand together have the same symbol
  have hnot : ¬ Exposes (juneMetadata [juneInterval 0 9 0])
      [juneMetadata [juneInterval 0 2 0, juneInterval 3 5 1]] := by
    rintro ⟨rawSymbol, hclash | hclash⟩
    swap
    · exact hclash
    dsimp only at hclash
    by_cases hraw : rawSymbol = ⟨[65], by decide⟩
    · have hlists : forall intervals, intervalsOf
          (juneMetadata intervals).mappings rawSymbol = intervals := by
        intro intervals
        rw [hraw]
        exact intervalsOf_cons_self
      rw [hlists, hlists, walk_overlaps (by decide), clash_both] at hclash
      rcases hclash with hne | hclash
      · exact hne rfl
      · exact not_clash_nil_left hclash
    · have hlists : forall intervals, intervalsOf
          (juneMetadata intervals).mappings rawSymbol = [] :=
        fun intervals => intervalsOf_cons_ne hraw
      rw [hlists] at hclash
      exact not_clash_nil_left hclash
  refine ⟨hagrees, hinputs, Separated.sortedDisjoint (by decide) (by decide),
    Separated.sortedDisjoint (by decide) (by decide), ?_⟩
  intro hiff
  have hconflict : Conflict [juneMetadata [juneInterval 0 9 0],
      juneMetadata [juneInterval 0 2 0, juneInterval 3 5 1]] :=
    ⟨_, _, ⟨[65], by decide⟩, june 3, _, _, List.mem_cons_self,
      List.mem_cons_of_mem _ List.mem_cons_self,
      ⟨_, List.mem_cons_self, rfl, _, List.mem_cons_self,
        ⟨by decide, by decide⟩, rfl⟩,
      ⟨_, List.mem_cons_self, rfl, _,
        List.mem_cons_of_mem _ List.mem_cons_self,
        ⟨by decide, by decide⟩, rfl⟩, by decide⟩
  exact hnot ((merge_error_iff_exposes hagrees hinputs).mp (hiff.mpr hconflict))

end MetadataMerger
end Dbn
