import Dbn.Lib.TableMerge
import Dbn.Metadata.MergeConflicts
import Dbn.Metadata.MergeCoverage

/-!
# Merging in either order

Neither the comparison of two intervals nor their union depends on which of
them is given first, as long as no interval ends before it starts.  So the two
lists of intervals of a raw symbol may change places, and with them the two
inputs of a merge.
-/

namespace Dbn

open Lib

/-- No interval ends before it starts; it may be empty. -/
def Ordered {D : Type} [LinearOrder D] (l : List (MappingInterval D)) : Prop :=
  forall i, i ∈ l -> i.startDate ≤ i.endDate

namespace MetadataMerger

section Merges

variable {D : Type} [LinearOrder D] [DebugText D] [DebugText Str]

section Intervals

variable {int otherInt : MappingInterval D}
  {orig add : List (MappingInterval D)}

/-- The place of the second interval with respect to the first one. -/
def swapped : IntervalOrdering -> IntervalOrdering
  | .less => .greater
  | .greater => .less
  | .overlap => .overlap
  | .equal => .equal

/-- The comparison does not depend on which interval is given first. -/
theorem ordering_swap (hint : int.startDate ≤ int.endDate)
    (hother : otherInt.startDate ≤ otherInt.endDate) :
    OkAlike (fun o o' => o' = swapped o) (int.ordering otherInt)
      (otherInt.ordering int) := by
  unfold MappingInterval.ordering
  by_cases hdates : int.startDate = otherInt.startDate ∧
      int.endDate = otherInt.endDate
  · have hdates' : otherInt.startDate = int.startDate ∧
        otherInt.endDate = int.endDate := ⟨hdates.1.symm, hdates.2.symm⟩
    rw [if_pos hdates, if_pos hdates']
    by_cases hsymbol : int.symbol = otherInt.symbol
    · rw [if_pos hsymbol, if_pos hsymbol.symm]
      exact OkAlike.ok rfl
    · rw [if_neg hsymbol, if_neg (Ne.symm hsymbol)]
      exact OkAlike.error _ _
  have hdates' : ¬ (otherInt.startDate = int.startDate ∧
      otherInt.endDate = int.endDate) :=
    fun h => hdates ⟨h.1.symm, h.2.symm⟩
  rw [if_neg hdates, if_neg hdates']
  by_cases hless : int.endDate ≤ otherInt.startDate
  · -- two intervals that are both before the other are empty and the same
    have hnot : ¬ otherInt.endDate ≤ int.startDate := by
      intro hle
      have hstart : int.startDate = otherInt.startDate :=
        le_antisymm (hint.trans hless) (hother.trans hle)
      have hend : int.endDate = otherInt.endDate :=
        le_antisymm (hless.trans hother) (hle.trans hint)
      exact hdates ⟨hstart, hend⟩
    rw [if_pos hless, if_neg hnot, if_pos hless]
    exact OkAlike.ok rfl
  rw [if_neg hless]
  by_cases hgreater : int.startDate ≥ otherInt.endDate
  · rw [if_pos hgreater, if_pos hgreater]
    exact OkAlike.ok rfl
  rw [if_neg hgreater, if_neg hgreater, if_neg hless]
  by_cases hsymbol : int.symbol = otherInt.symbol
  · rw [if_pos hsymbol, if_pos hsymbol.symm]
    exact OkAlike.ok rfl
  · rw [if_neg hsymbol, if_neg (Ne.symm hsymbol)]
    exact OkAlike.error _ _

omit [DebugText D] [DebugText Str] in
theorem merge_swap (hsymbol : int.symbol = otherInt.symbol) :
    int.merge otherInt = otherInt.merge int := by
  unfold MappingInterval.merge
  rw [min_comm, max_comm, hsymbol]

theorem mergeIntervals_error {e : Error}
    (h : int.ordering otherInt = Except.error e) :
    mergeIntervals (int :: orig) (otherInt :: add) = Except.error e := by
  rw [mergeIntervals, h]
  rfl

theorem mergeIntervals_nil_left (l : List (MappingInterval D)) :
    mergeIntervals [] l = Except.ok l := by
  cases l <;> rw [mergeIntervals]
  intro h
  cases h

theorem mergeIntervals_nil_right (l : List (MappingInterval D)) :
    mergeIntervals l [] = Except.ok l := by
  cases l <;> rw [mergeIntervals]

/-- A round with the two lists in each order. -/
theorem roundResult_swap {o : IntervalOrdering}
    (hordering : int.ordering otherInt = Except.ok o)
    (hleft : OkAlike Eq (mergeIntervals orig (otherInt :: add))
      (mergeIntervals (otherInt :: add) orig))
    (hright : OkAlike Eq (mergeIntervals (int :: orig) add)
      (mergeIntervals add (int :: orig)))
    (hboth : OkAlike Eq (mergeIntervals orig add)
      (mergeIntervals add orig)) :
    OkAlike Eq (roundResult int otherInt orig add o)
      (roundResult otherInt int add orig (swapped o)) := by
  have hspec := ordering_eq_ok hordering
  have hcons : forall (i : MappingInterval D) l l', l = l' ->
      i :: l = i :: l' := fun i l l' h => congrArg (i :: ·) h
  cases o with
  | less => exact hleft.map (hcons int)
  | greater => exact hright.map (hcons otherInt)
  | overlap =>
      have hmerge := merge_swap (hspec.1 rfl).2
      unfold roundResult swapped
      dsimp only
      rw [hmerge]
      exact hboth.map (hcons _)
  | equal =>
      have heq := hspec.2 rfl
      subst heq
      exact hboth.map (hcons int)

/-- The two lists may change places. -/
theorem mergeIntervals_comm (horig : Ordered orig) (hadd : Ordered add) :
    OkAlike Eq (mergeIntervals orig add) (mergeIntervals add orig) := by
  induction hn : orig.length + add.length using Nat.strong_induction_on
    generalizing orig add with
  | _ n ih =>
      subst hn
      match orig, add with
      | [], add =>
          rw [mergeIntervals_nil_left, mergeIntervals_nil_right]
          exact OkAlike.ok rfl
      | int :: orig, [] =>
          rw [mergeIntervals_nil_left, mergeIntervals_nil_right]
          exact OkAlike.ok rfl
      | int :: orig, otherInt :: add =>
          have horig' : Ordered orig :=
            fun i hi => horig i (List.mem_cons_of_mem _ hi)
          have hadd' : Ordered add :=
            fun i hi => hadd i (List.mem_cons_of_mem _ hi)
          have hswap := ordering_swap (horig int List.mem_cons_self)
            (hadd otherInt List.mem_cons_self)
          generalize hx : int.ordering otherInt = x at hswap
          generalize hy : otherInt.ordering int = y at hswap
          cases hswap with
          | error e e' =>
              rw [mergeIntervals_error hx, mergeIntervals_error hy]
              exact OkAlike.error e e'
          | ok related =>
              subst related
              rw [mergeIntervals_cons hx, mergeIntervals_cons hy]
              apply roundResult_swap hx
              · exact ih _ (by simp) horig' hadd rfl
              · exact ih _ (by simp) horig hadd' rfl
              · exact ih _ (by simp; omega) horig' hadd' rfl

end Intervals

/-!
## Tables
-/

/-- The entry that is added for a mapping. -/
def entryOf (mapping : SymbolMapping D) :
    Str × List (MappingInterval D) :=
  (mapping.rawSymbol, mapping.intervals)

theorem mergeMapping_eq_mergeEntry
    (table : HashMap Str (List (MappingInterval D)))
    (mapping : SymbolMapping D) :
    mergeMapping table mapping =
      HashMap.mergeEntry mergeIntervals table (entryOf mapping) := by
  unfold mergeMapping HashMap.mergeEntry entryOf
  dsimp only
  cases table.lookup mapping.rawSymbol <;> rfl

omit [LinearOrder D] [DebugText D] [DebugText Str] in
theorem map_fst_entryOf (mappings : List (SymbolMapping D)) :
    (mappings.map entryOf).map Prod.fst =
      mappings.map SymbolMapping.rawSymbol := by
  rw [List.map_map]
  rfl

/-- The mappings of one input added to those of the other one. -/
theorem foldlM_mergeMapping_comm {mappings mappings' : List (SymbolMapping D)}
    (hnodup : (mappings.map SymbolMapping.rawSymbol).Nodup)
    (hnodup' : (mappings'.map SymbolMapping.rawSymbol).Nodup)
    (hordered : forall mapping, mapping ∈ mappings ->
      Ordered mapping.intervals)
    (hordered' : forall mapping, mapping ∈ mappings' ->
      Ordered mapping.intervals) :
    OkAlike (fun table table' => forall rawSymbol,
        table.lookup rawSymbol = table'.lookup rawSymbol)
      (mappings'.foldlM mergeMapping
        (HashMap.ofEntries (mappings.map entryOf)))
      (mappings.foldlM mergeMapping
        (HashMap.ofEntries (mappings'.map entryOf))) := by
  have hfold : forall (l : List (SymbolMapping D)) table,
      l.foldlM mergeMapping table =
        (l.map entryOf).foldlM (HashMap.mergeEntry mergeIntervals) table := by
    intro l table
    rw [List.foldlM_map]
    apply congrArg (fun f => l.foldlM f table)
    funext table mapping
    exact mergeMapping_eq_mergeEntry table mapping
  rw [hfold, hfold]
  apply HashMap.foldlM_mergeEntry_comm
  · rw [map_fst_entryOf]
    exact hnodup
  · rw [map_fst_entryOf]
    exact hnodup'
  · intro k v w hv hw
    rcases List.mem_map.mp hv with ⟨mapping, hmapping, heq⟩
    rcases List.mem_map.mp hw with ⟨mapping', hmapping', heq'⟩
    rw [← show mapping.intervals = v from congrArg Prod.snd heq,
      ← show mapping'.intervals = w from congrArg Prod.snd heq']
    exact mergeIntervals_comm (hordered mapping hmapping)
      (hordered' mapping' hmapping')

/-!
## Inputs
-/

omit [LinearOrder D] [DebugText D] [DebugText Str] in
theorem Agrees.symm {a b : Metadata D} (h : Agrees (new a) b) :
    Agrees (new b) a :=
  ⟨h.version.symm, h.dataset.symm, h.stypeIn.symm, h.stypeOut.symm,
    h.tsOut.symm, h.symbolCstrLen.symm⟩

/-- The same metadata, up to the order of the symbols and the mappings. -/
structure SameUpToOrder (m m' : Metadata D) : Prop where
  version : m.version = m'.version
  dataset : m.dataset = m'.dataset
  schema : m.schema = m'.schema
  start : m.start = m'.start
  endTs : m.endTs = m'.endTs
  limit : m.limit = m'.limit
  stypeIn : m.stypeIn = m'.stypeIn
  stypeOut : m.stypeOut = m'.stypeOut
  tsOut : m.tsOut = m'.tsOut
  symbolCstrLen : m.symbolCstrLen = m'.symbolCstrLen
  symbols : m.symbols.Perm m'.symbols
  partialSymbols : m.partialSymbols.Perm m'.partialSymbols
  notFound : m.notFound.Perm m'.notFound
  mappings : m.mappings.Perm m'.mappings

omit [DebugText Str] in
theorem start_comm (x y : UInt64) : min x y = min y x := by
  change (if x ≤ y then x else y) = if y ≤ x then y else x
  by_cases hle : x ≤ y
  · by_cases hge : y ≤ x
    · rw [if_pos hle, if_pos hge]
      exact UInt64.le_antisymm hle hge
    · rw [if_pos hle, if_neg hge]
  · rw [if_neg hle, if_pos ((UInt64.le_total x y).resolve_left hle)]

omit [DebugText Str] in
theorem maxEnd_comm (x y : Option NonZeroU64) : maxEnd x y = maxEnd y x := by
  cases x with
  | none => cases y <;> rfl
  | some x =>
      cases y with
      | none => rfl
      | some y =>
          unfold maxEnd
          dsimp only
          by_cases hle : x.val ≤ y.val
          · by_cases hge : y.val ≤ x.val
            · rw [if_pos hle, if_pos hge]
              exact congrArg some (Subtype.ext (UInt64.le_antisymm hge hle))
            · rw [if_pos hle, if_neg hge]
          · have hge := (UInt64.le_total x.val y.val).resolve_left hle
            rw [if_neg hle, if_pos hge]

omit [DebugText Str] in
theorem order_perm_order (o o' : HashOrder) {α : Type} {l l' : List α}
    (h : l.Perm l') : (o.order l).Perm (o'.order l') :=
  (o.order_perm l).trans (h.trans (o'.order_perm l').symm)

omit [LinearOrder D] [DebugText D] [DebugText Str] in
/-- Tables with the same values make the same metadata. -/
theorem finalize_joined (o o' : HashOrder) {a b : Metadata D}
    (hagrees : Agrees (new a) b)
    {table table' : HashMap Str (List (MappingInterval D))}
    (htable : forall rawSymbol,
      table.lookup rawSymbol = table'.lookup rawSymbol) :
    SameUpToOrder (@finalize D o (joined (new a) b table))
      (@finalize D o' (joined (new b) a table')) where
  version := hagrees.version
  dataset := hagrees.dataset
  schema := by
    change (if a.schema ≠ b.schema then none else a.schema) =
      if b.schema ≠ a.schema then none else b.schema
    by_cases hschema : a.schema = b.schema
    · rw [if_neg (not_not.mpr hschema), if_neg (not_not.mpr hschema.symm)]
      exact hschema
    · rw [if_pos hschema, if_pos (Ne.symm hschema)]
  start := start_comm a.start b.start
  endTs := maxEnd_comm a.endTs b.endTs
  limit := rfl
  stypeIn := hagrees.stypeIn
  stypeOut := hagrees.stypeOut
  tsOut := hagrees.tsOut
  symbolCstrLen := hagrees.symbolCstrLen
  symbols := order_perm_order o o'
    (HashSet.extend_perm_comm a.symbols b.symbols)
  partialSymbols := order_perm_order o o'
    (HashSet.extend_perm_comm a.partialSymbols b.partialSymbols)
  notFound := order_perm_order o o'
    (HashSet.extend_perm_comm a.notFound b.notFound)
  mappings := by
    apply List.Perm.map
    have hperm := HashMap.entries_perm htable
    exact order_perm_order o o' (hperm.map _)

theorem merge_alike (o o' : HashOrder) {a b : Metadata D}
    (hnodup : (a.mappings.map SymbolMapping.rawSymbol).Nodup)
    (hnodup' : (b.mappings.map SymbolMapping.rawSymbol).Nodup)
    (hordered : forall mapping, mapping ∈ a.mappings ->
      Ordered mapping.intervals)
    (hordered' : forall mapping, mapping ∈ b.mappings ->
      Ordered mapping.intervals) :
    OkAlike SameUpToOrder (@Metadata.merge D _ _ _ o a [b])
      (@Metadata.merge D _ _ _ o' b [a]) := by
  have hmerge : forall (o : HashOrder) (a b : Metadata D),
      @Metadata.merge D _ _ _ o a [b] =
        ((new a).merge b).map (@finalize D o) := by
    intro o a b
    unfold Metadata.merge
    rw [List.foldlM_cons]
    cases (new a).merge b <;> rfl
  rw [hmerge, hmerge]
  by_cases hagrees : Agrees (new a) b
  · rw [merge_of_agrees hagrees, merge_of_agrees hagrees.symm]
    have htables := foldlM_mergeMapping_comm hnodup hnodup' hordered hordered'
    have hjoined : OkAlike
        (fun m m' => SameUpToOrder (@finalize D o m) (@finalize D o' m'))
        ((b.mappings.foldlM mergeMapping (new a).mappings).map
          (joined (new a) b))
        ((a.mappings.foldlM mergeMapping (new b).mappings).map
          (joined (new b) a)) :=
      htables.map (fun _ _ h => finalize_joined o o' hagrees h)
    exact hjoined.map (fun _ _ h => h)
  · rcases merge_of_not_agrees hagrees with ⟨e, he⟩
    rcases merge_of_not_agrees (fun h => hagrees (Agrees.symm h)) with
      ⟨e', he'⟩
    rw [he, he']
    exact OkAlike.error e e'

/--
A merge of two inputs does not depend on which of them is merged: both ways
fail, or both return the same metadata up to the order of what comes from
hashed sets and maps.
-/
theorem merge_comm (o o' : HashOrder) {a b : Metadata D}
    (hnodup : (a.mappings.map SymbolMapping.rawSymbol).Nodup)
    (hnodup' : (b.mappings.map SymbolMapping.rawSymbol).Nodup)
    (hordered : forall mapping, mapping ∈ a.mappings ->
      Ordered mapping.intervals)
    (hordered' : forall mapping, mapping ∈ b.mappings ->
      Ordered mapping.intervals) :
    ((exists m, @Metadata.merge D _ _ _ o a [b] = Except.ok m) <->
      exists m', @Metadata.merge D _ _ _ o' b [a] = Except.ok m') ∧
    forall m m', @Metadata.merge D _ _ _ o a [b] = Except.ok m ->
      @Metadata.merge D _ _ _ o' b [a] = Except.ok m' ->
        SameUpToOrder m m' := by
  have halike := merge_alike o o' hnodup hnodup' hordered hordered'
  constructor
  · exact halike.isOk_iff
  · intro m m' hm hm'
    rw [hm, hm'] at halike
    cases halike with
    | ok related => exact related

end Merges

/-- An empty interval that touches another one. -/
theorem merge_comm_june :
    ((exists m, (juneMetadata [juneInterval 0 2 0]).merge
        [juneMetadata [juneInterval 1 1 0, juneInterval 3 5 1]] =
          Except.ok m) <->
      exists m', (juneMetadata [juneInterval 1 1 0, juneInterval 3 5 1]).merge
        [juneMetadata [juneInterval 0 2 0]] = Except.ok m') ∧
    forall m m', (juneMetadata [juneInterval 0 2 0]).merge
        [juneMetadata [juneInterval 1 1 0, juneInterval 3 5 1]] =
          Except.ok m ->
      (juneMetadata [juneInterval 1 1 0, juneInterval 3 5 1]).merge
        [juneMetadata [juneInterval 0 2 0]] = Except.ok m' ->
        SameUpToOrder m m' := by
  apply merge_comm
  · decide
  · decide
  · intro mapping hmapping
    rw [List.mem_singleton.mp hmapping]
    unfold Ordered
    decide
  · intro mapping hmapping
    rw [List.mem_singleton.mp hmapping]
    unfold Ordered
    decide

end MetadataMerger
end Dbn
