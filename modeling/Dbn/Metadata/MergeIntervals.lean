import Dbn.Lib.Alignment
import Dbn.Metadata.Merge

/-!
# The intervals of a merge

The loop takes the interval that comes first, or both when they overlap.  What
it puts out covers the dates of both lists, but an interval made of two is not
compared with what follows on either side.
-/

namespace Dbn
namespace MetadataMerger

open Lib

variable {D : Type} [LinearOrder D]

/-- Some interval maps the date to the symbol. -/
def MapsTo (intervals : List (MappingInterval D)) (date : D) (symbol : Str) :
    Prop :=
  exists i, i ∈ intervals ∧ date ∈ i.dates ∧ i.symbol = symbol

/-- Every interval has a date. -/
def Proper (intervals : List (MappingInterval D)) : Prop :=
  forall i, i ∈ intervals -> i.dates.Proper

/-- The intervals are sorted and no date is in two of them. -/
structure SortedDisjoint (intervals : List (MappingInterval D)) : Prop where
  sorted : intervals.Pairwise (fun i j => i.startDate ≤ j.startDate)
  disjoint : intervals.Pairwise (fun i j =>
    forall date, ¬ (date ∈ i.dates ∧ date ∈ j.dates))

/-- Each interval ends before the next one. -/
def Separated (intervals : List (MappingInterval D)) : Prop :=
  intervals.Pairwise (fun i j => i.dates.Before j.dates)

instance (intervals : List (MappingInterval D)) :
    Decidable (Proper intervals) :=
  inferInstanceAs (Decidable (forall i, i ∈ intervals -> i.dates.Proper))

instance (intervals : List (MappingInterval D)) :
    Decidable (Separated intervals) :=
  inferInstanceAs (Decidable (List.Pairwise _ _))

section Lists

variable {i : MappingInterval D} {l : List (MappingInterval D)}

theorem Proper.tail (h : Proper (i :: l)) : Proper l := by
  intro j hj
  exact h j (List.mem_cons_of_mem i hj)

theorem Proper.head (h : Proper (i :: l)) : i.dates.Proper :=
  h i List.mem_cons_self

theorem SortedDisjoint.separated (h : SortedDisjoint l) (hproper : Proper l) :
    Separated l := by
  have hpairs := List.Pairwise.and h.sorted h.disjoint
  refine List.Pairwise.imp_of_mem ?_ hpairs
  intro i j _ hj hij
  exact HalfOpen.before_of_disjoint (hproper j hj) hij.1 hij.2

theorem Separated.sortedDisjoint (h : Separated l) (hproper : Proper l) :
    SortedDisjoint l := by
  constructor
  · refine List.Pairwise.imp_of_mem ?_ h
    intro i j hi _ hij
    exact le_trans (le_of_lt (hproper i hi)) hij
  · refine List.Pairwise.imp_of_mem ?_ h
    intro i j hi hj hij date hdate
    have hoverlaps := (HalfOpen.overlaps_iff_exists_mem (hproper i hi)
      (hproper j hj)).mpr ⟨date, hdate⟩
    exact hij.not_overlaps hoverlaps

theorem Separated.tail (h : Separated (i :: l)) : Separated l :=
  (List.pairwise_cons.mp h).2

theorem Separated.head (h : Separated (i :: l)) {j : MappingInterval D}
    (hj : j ∈ l) : i.dates.Before j.dates :=
  (List.pairwise_cons.mp h).1 j hj

/-- What is before the first interval is before all of them. -/
theorem Separated.before {a : MappingInterval D} (h : Separated (i :: l))
    (hproper : Proper (i :: l)) (ha : a.dates.Before i.dates)
    {j : MappingInterval D} (hj : j ∈ i :: l) : a.dates.Before j.dates := by
  rcases List.mem_cons.mp hj with heq | hmem
  · rw [heq]
    exact ha
  · exact ha.trans hproper.head (h.head hmem)

theorem mapsTo_cons {date : D} {symbol : Str} :
    MapsTo (i :: l) date symbol <->
      (date ∈ i.dates ∧ i.symbol = symbol) ∨ MapsTo l date symbol := by
  constructor
  · intro h
    rcases h with ⟨j, hj, hdate⟩
    rcases List.mem_cons.mp hj with heq | hmem
    · rw [heq] at hdate
      exact Or.inl hdate
    · exact Or.inr ⟨j, hmem, hdate⟩
  · intro h
    rcases h with hdate | ⟨j, hj, hdate⟩
    · exact ⟨i, List.mem_cons_self, hdate⟩
    · exact ⟨j, List.mem_cons_of_mem i hj, hdate⟩

theorem not_mapsTo_nil {date : D} {symbol : Str} :
    ¬ MapsTo [] date symbol := by
  intro h
  rcases h with ⟨j, hj, _⟩
  cases hj

end Lists

/-!
## The loop
-/

/-- What the loop puts out for two lists. -/
inductive MergesInto : List (MappingInterval D) -> List (MappingInterval D) ->
    List (MappingInterval D) -> Prop where
  | nilRight (orig : List (MappingInterval D)) : MergesInto orig [] orig
  | nilLeft (add : List (MappingInterval D)) : MergesInto [] add add
  | less {int otherInt : MappingInterval D}
      {orig add merged : List (MappingInterval D)}
      (before : int.dates.Before otherInt.dates)
      (rest : MergesInto orig (otherInt :: add) merged) :
      MergesInto (int :: orig) (otherInt :: add) (int :: merged)
  | greater {int otherInt : MappingInterval D}
      {orig add merged : List (MappingInterval D)}
      (before : otherInt.dates.Before int.dates)
      (rest : MergesInto (int :: orig) add merged) :
      MergesInto (int :: orig) (otherInt :: add) (otherInt :: merged)
  | fuse {int otherInt : MappingInterval D}
      {orig add merged : List (MappingInterval D)}
      (overlaps : int.dates.Overlaps otherInt.dates)
      (same : int.symbol = otherInt.symbol)
      (rest : MergesInto orig add merged) :
      MergesInto (int :: orig) (otherInt :: add)
        (int.merge otherInt :: merged)

/-- Two lists of intervals side by side, by their dates. -/
def walk (orig add : List (MappingInterval D)) :
    List (Aligned (MappingInterval D)) :=
  align MappingInterval.dates orig add

/-- The interval that stands alone, or the one made of the two. -/
def fuse : Aligned (MappingInterval D) -> MappingInterval D
  | .left int => int
  | .right otherInt => otherInt
  | .both int otherInt => int.merge otherInt

/-- Two intervals that stand together have different symbols. -/
def Clash (pairs : List (Aligned (MappingInterval D))) : Prop :=
  exists x y, Aligned.both x y ∈ pairs ∧ x.symbol ≠ y.symbol

section Walk

variable {int otherInt x y : MappingInterval D}
  {orig add : List (MappingInterval D)}
  {pairs : List (Aligned (MappingInterval D))}

omit [LinearOrder D] in
@[simp] theorem clash_left :
    Clash (Aligned.left int :: pairs) <-> Clash pairs := by
  simp [Clash]

omit [LinearOrder D] in
@[simp] theorem clash_right :
    Clash (Aligned.right int :: pairs) <-> Clash pairs := by
  simp [Clash]

omit [LinearOrder D] in
@[simp] theorem clash_both :
    Clash (Aligned.both int otherInt :: pairs) <->
      int.symbol ≠ otherInt.symbol ∨ Clash pairs := by
  unfold Clash
  constructor
  · rintro ⟨x, y, hmem, hne⟩
    rcases List.mem_cons.mp hmem with heq | hmem
    · cases heq
      exact Or.inl hne
    · exact Or.inr ⟨x, y, hmem, hne⟩
  · rintro (hne | ⟨x, y, hmem, hne⟩)
    · exact ⟨int, otherInt, List.mem_cons_self, hne⟩
    · exact ⟨x, y, List.mem_cons_of_mem _ hmem, hne⟩

@[simp] theorem not_clash_nil_right : ¬ Clash (walk orig []) := by
  simp [Clash, walk]

@[simp] theorem not_clash_nil_left : ¬ Clash (walk [] add) := by
  simp [Clash, walk]

@[simp] theorem fuse_nil_right : (walk orig []).map fuse = orig := by
  simp [walk, fuse, Function.comp_def]

@[simp] theorem fuse_nil_left : (walk [] add).map fuse = add := by
  simp [walk, fuse, Function.comp_def]

theorem walk_less (h : int.dates.Before otherInt.dates) :
    walk (int :: orig) (otherInt :: add) =
      Aligned.left int :: walk orig (otherInt :: add) :=
  Alignment.cons_before h

theorem walk_greater (horig : Proper (int :: orig))
    (hadd : Proper (otherInt :: add)) (h : otherInt.dates.Before int.dates) :
    walk (int :: orig) (otherInt :: add) =
      Aligned.right otherInt :: walk (int :: orig) add :=
  Alignment.cons_after horig.head hadd.head h

theorem walk_overlaps (h : int.dates.Overlaps otherInt.dates) :
    walk (int :: orig) (otherInt :: add) =
      Aligned.both int otherInt :: walk orig add :=
  Alignment.cons_overlaps h

end Walk

/-- How two intervals compare. -/
inductive Compares (int otherInt : MappingInterval D) :
    Except Error IntervalOrdering -> Prop where
  | less (before : int.dates.Before otherInt.dates) :
      Compares int otherInt (Except.ok .less)
  | greater (before : otherInt.dates.Before int.dates) :
      Compares int otherInt (Except.ok .greater)
  | overlap (overlaps : int.dates.Overlaps otherInt.dates)
      (same : int.symbol = otherInt.symbol) :
      Compares int otherInt (Except.ok .overlap)
  | equal (overlaps : int.dates.Overlaps otherInt.dates)
      (same : int = otherInt) : Compares int otherInt (Except.ok .equal)
  | conflict (e : Error) (overlaps : int.dates.Overlaps otherInt.dates)
      (differ : int.symbol ≠ otherInt.symbol) :
      Compares int otherInt (Except.error e)

section Loop

variable [DebugText D] [DebugText Str] {int otherInt : MappingInterval D}
  {orig add merged : List (MappingInterval D)}

theorem compares_ordering (hint : int.dates.Proper)
    (otherInt : MappingInterval D) :
    Compares int otherInt (int.ordering otherInt) := by
  unfold MappingInterval.ordering
  by_cases hdates : int.startDate = otherInt.startDate ∧
      int.endDate = otherInt.endDate
  · have heq : int.dates = otherInt.dates := by
      unfold MappingInterval.dates
      rw [hdates.1, hdates.2]
    have hoverlaps : int.dates.Overlaps otherInt.dates := by
      rw [← heq]
      exact hint.overlaps_self
    rw [if_pos hdates]
    by_cases hsymbol : int.symbol = otherInt.symbol
    · rw [if_pos hsymbol]
      apply Compares.equal hoverlaps
      rcases int with ⟨startDate, endDate, symbol⟩
      rcases otherInt with ⟨startDate', endDate', symbol'⟩
      rcases hdates with ⟨hstart, hend⟩
      dsimp only at hstart hend hsymbol
      rw [hstart, hend, hsymbol]
    · rw [if_neg hsymbol]
      exact Compares.conflict _ hoverlaps hsymbol
  · rw [if_neg hdates]
    by_cases hless : int.endDate ≤ otherInt.startDate
    · rw [if_pos hless]
      exact Compares.less hless
    · rw [if_neg hless]
      by_cases hgreater : int.startDate ≥ otherInt.endDate
      · rw [if_pos hgreater]
        exact Compares.greater hgreater
      · rw [if_neg hgreater]
        have hoverlaps : int.dates.Overlaps otherInt.dates :=
          HalfOpen.overlaps_of_not_before hless hgreater
        by_cases hsymbol : int.symbol = otherInt.symbol
        · rw [if_pos hsymbol]
          exact Compares.overlap hoverlaps hsymbol
        · rw [if_neg hsymbol]
          exact Compares.conflict _ hoverlaps hsymbol

omit [DebugText D] [DebugText Str] in
theorem merge_self (int : MappingInterval D) : int.merge int = int := by
  unfold MappingInterval.merge
  rw [min_self, max_self]

/-- The list or error of a round, from those of the rounds after it. -/
def roundResult (int otherInt : MappingInterval D)
    (orig add : List (MappingInterval D)) :
    IntervalOrdering -> Except Error (List (MappingInterval D))
  | .less => (mergeIntervals orig (otherInt :: add)).map (int :: ·)
  | .greater => (mergeIntervals (int :: orig) add).map (otherInt :: ·)
  | .overlap => (mergeIntervals orig add).map (int.merge otherInt :: ·)
  | .equal => (mergeIntervals orig add).map (int :: ·)

theorem mergeIntervals_cons {o : IntervalOrdering}
    (h : int.ordering otherInt = Except.ok o) :
    mergeIntervals (int :: orig) (otherInt :: add) =
      roundResult int otherInt orig add o := by
  rw [mergeIntervals, h]
  cases o <;> rfl

/--
The loop puts out what stands side by side, or ends at two intervals that
stand together and have different symbols.
-/
theorem mergeIntervals_cases (horig : Proper orig) (hadd : Proper add) :
    (mergeIntervals orig add = Except.ok ((walk orig add).map fuse) ∧
      MergesInto orig add ((walk orig add).map fuse) ∧
      ¬ Clash (walk orig add)) ∨
    exists e, mergeIntervals orig add = Except.error e ∧
      Clash (walk orig add) := by
  induction hn : orig.length + add.length using Nat.strong_induction_on
    generalizing orig add with
  | _ n ih =>
      match orig, add with
      | orig, [] =>
          left
          rw [fuse_nil_right]
          refine ⟨?_, MergesInto.nilRight orig, not_clash_nil_right⟩
          cases orig <;> rw [mergeIntervals]
      | [], otherInt :: add =>
          left
          rw [fuse_nil_left]
          refine ⟨?_, MergesInto.nilLeft _, not_clash_nil_left⟩
          rw [mergeIntervals]
          simp
      | int :: orig, otherInt :: add =>
          rw [List.length_cons, List.length_cons] at hn
          have hcompares := compares_ordering horig.head otherInt
          generalize hordering : int.ordering otherInt = order at hcompares
          cases hcompares with
          | less before =>
              rw [mergeIntervals_cons hordering, roundResult, walk_less before,
                clash_left]
              rcases ih _ (by rw [List.length_cons]; omega) horig.tail hadd
                rfl with ⟨hok, hinto, hnot⟩ | ⟨e, herr, hclash⟩
              · left
                rw [hok]
                exact ⟨rfl, MergesInto.less before hinto, hnot⟩
              · right
                rw [herr]
                exact ⟨e, rfl, hclash⟩
          | greater before =>
              rw [mergeIntervals_cons hordering, roundResult,
                walk_greater horig hadd before, clash_right]
              rcases ih _ (by rw [List.length_cons]; omega) horig hadd.tail
                rfl with ⟨hok, hinto, hnot⟩ | ⟨e, herr, hclash⟩
              · left
                rw [hok]
                exact ⟨rfl, MergesInto.greater before hinto, hnot⟩
              · right
                rw [herr]
                exact ⟨e, rfl, hclash⟩
          | overlap overlaps same =>
              rw [mergeIntervals_cons hordering, roundResult,
                walk_overlaps overlaps, clash_both]
              rcases ih _ (by omega) horig.tail hadd.tail rfl with
                ⟨hok, hinto, hnot⟩ | ⟨e, herr, hclash⟩
              · left
                rw [hok]
                exact ⟨rfl, MergesInto.fuse overlaps same hinto,
                  not_or.mpr ⟨not_not.mpr same, hnot⟩⟩
              · right
                rw [herr]
                exact ⟨e, rfl, Or.inr hclash⟩
          | equal overlaps same =>
              have hsymbol := congrArg MappingInterval.symbol same
              rw [mergeIntervals_cons hordering, roundResult,
                walk_overlaps overlaps, clash_both]
              rcases ih _ (by omega) horig.tail hadd.tail rfl with
                ⟨hok, hinto, hnot⟩ | ⟨e, herr, hclash⟩
              · left
                have hfuse := MergesInto.fuse overlaps hsymbol hinto
                have hself : int.merge otherInt = int := by
                  rw [← same, merge_self]
                rw [hok]
                refine ⟨?_, hfuse, not_or.mpr ⟨not_not.mpr hsymbol, hnot⟩⟩
                rw [List.map_cons, fuse, hself]
                rfl
              · right
                rw [herr]
                exact ⟨e, rfl, Or.inr hclash⟩
          | conflict e overlaps differ =>
              right
              rw [walk_overlaps overlaps, clash_both]
              refine ⟨e, ?_, Or.inl differ⟩
              rw [mergeIntervals, hordering]
              rfl

/-!
## What is put out
-/

omit [DebugText D] [DebugText Str] in
/-- Every interval starts where one of the two lists has one. -/
theorem MergesInto.exists_start (h : MergesInto orig add merged)
    {i : MappingInterval D} (hi : i ∈ merged) :
    exists j, (j ∈ orig ∨ j ∈ add) ∧ j.startDate = i.startDate := by
  induction h with
  | nilRight orig => exact ⟨i, Or.inl hi, rfl⟩
  | nilLeft add => exact ⟨i, Or.inr hi, rfl⟩
  | less before rest ih =>
      rcases List.mem_cons.mp hi with heq | hmem
      · exact ⟨i, Or.inl (heq ▸ List.mem_cons_self), rfl⟩
      · rcases ih hmem with ⟨j, hj, hstart⟩
        refine ⟨j, ?_, hstart⟩
        rcases hj with hj | hj
        · exact Or.inl (List.mem_cons_of_mem _ hj)
        · exact Or.inr hj
  | greater before rest ih =>
      rcases List.mem_cons.mp hi with heq | hmem
      · exact ⟨i, Or.inr (heq ▸ List.mem_cons_self), rfl⟩
      · rcases ih hmem with ⟨j, hj, hstart⟩
        refine ⟨j, ?_, hstart⟩
        rcases hj with hj | hj
        · exact Or.inl hj
        · exact Or.inr (List.mem_cons_of_mem _ hj)
  | @fuse int otherInt orig add merged overlaps same rest ih =>
      rcases List.mem_cons.mp hi with heq | hmem
      · rw [heq]
        rcases min_choice int.startDate otherInt.startDate with hmin | hmin
        · exact ⟨int, Or.inl List.mem_cons_self, hmin.symm⟩
        · exact ⟨otherInt, Or.inr List.mem_cons_self, hmin.symm⟩
      · rcases ih hmem with ⟨j, hj, hstart⟩
        refine ⟨j, ?_, hstart⟩
        rcases hj with hj | hj
        · exact Or.inl (List.mem_cons_of_mem _ hj)
        · exact Or.inr (List.mem_cons_of_mem _ hj)

omit [DebugText D] [DebugText Str] in
theorem MergesInto.proper (h : MergesInto orig add merged)
    (horig : Proper orig) (hadd : Proper add) : Proper merged := by
  induction h with
  | nilRight orig => exact horig
  | nilLeft add => exact hadd
  | less before rest ih =>
      intro i hi
      rcases List.mem_cons.mp hi with heq | hmem
      · rw [heq]
        exact horig.head
      · exact ih horig.tail hadd i hmem
  | greater before rest ih =>
      intro i hi
      rcases List.mem_cons.mp hi with heq | hmem
      · rw [heq]
        exact hadd.head
      · exact ih horig hadd.tail i hmem
  | fuse overlaps same rest ih =>
      intro i hi
      rcases List.mem_cons.mp hi with heq | hmem
      · rw [heq]
        exact HalfOpen.proper_hull (j := MappingInterval.dates _) horig.head
      · exact ih horig.tail hadd.tail i hmem

omit [DebugText D] [DebugText Str] in
/-- The same dates are mapped to the same symbols. -/
theorem MergesInto.mapsTo_iff (h : MergesInto orig add merged) {date : D}
    {symbol : Str} :
    MapsTo merged date symbol <->
      MapsTo orig date symbol ∨ MapsTo add date symbol := by
  induction h with
  | nilRight orig =>
      exact ⟨Or.inl, fun h => h.resolve_right not_mapsTo_nil⟩
  | nilLeft add =>
      exact ⟨Or.inr, fun h => h.resolve_left not_mapsTo_nil⟩
  | @less int otherInt orig add merged before rest ih =>
      rw [mapsTo_cons, ih, mapsTo_cons (i := int), or_assoc]
  | @greater int otherInt orig add merged before rest ih =>
      rw [mapsTo_cons, ih, mapsTo_cons (i := otherInt), or_left_comm]
  | @fuse int otherInt orig add merged overlaps same rest ih =>
      have hhull : date ∈ (int.merge otherInt).dates <->
          date ∈ int.dates ∨ date ∈ otherInt.dates :=
        HalfOpen.mem_hull overlaps
      have hsymbol : (int.merge otherInt).symbol = int.symbol := rfl
      rw [mapsTo_cons, ih, mapsTo_cons, mapsTo_cons, hhull, hsymbol, ← same,
        or_and_right, or_or_or_comm]

omit [DebugText D] [DebugText Str] in
/-- What comes before both lists comes before the list that is put out. -/
theorem MergesInto.before (h : MergesInto orig add merged)
    {int : MappingInterval D}
    (horig : forall j, j ∈ orig -> int.dates.Before j.dates)
    (hadd : forall j, j ∈ add -> int.dates.Before j.dates)
    {i : MappingInterval D} (hi : i ∈ merged) :
    int.dates.Before i.dates := by
  rcases h.exists_start hi with ⟨j, hj, hstart⟩
  unfold HalfOpen.Before MappingInterval.dates
  dsimp only
  rw [← hstart]
  rcases hj with hj | hj
  · exact horig j hj
  · exact hadd j hj

/-- No interval of the first list overlaps two intervals of the second. -/
def OverlapsOne (l l' : List (MappingInterval D)) : Prop :=
  forall x, x ∈ l -> forall y y', y ∈ l' -> y' ∈ l' ->
    x.dates.Overlaps y.dates -> x.dates.Overlaps y'.dates -> y = y'

/-- No interval of a list overlaps two intervals of the other list. -/
def OneToOne (orig add : List (MappingInterval D)) : Prop :=
  OverlapsOne orig add ∧ OverlapsOne add orig

section Overlaps

variable {l l' k k' : List (MappingInterval D)}

omit [DebugText D] [DebugText Str] in
theorem OverlapsOne.mono (h : OverlapsOne l l') (hk : k ⊆ l) (hk' : k' ⊆ l') :
    OverlapsOne k k' := by
  intro x hx y y' hy hy'
  exact h x (hk hx) y y' (hk' hy) (hk' hy')

omit [DebugText D] [DebugText Str] in
theorem OverlapsOne.cons_left (h : OverlapsOne l l')
    (hint : forall y y', y ∈ l' -> y' ∈ l' -> int.dates.Overlaps y.dates ->
      int.dates.Overlaps y'.dates -> y = y') : OverlapsOne (int :: l) l' := by
  intro x hx
  rcases List.mem_cons.mp hx with heq | hmem
  · rw [heq]
    exact hint
  · exact h x hmem

omit [DebugText D] [DebugText Str] in
theorem OverlapsOne.cons_right (h : OverlapsOne l l')
    (hint : forall x, x ∈ l -> ¬ x.dates.Overlaps int.dates) :
    OverlapsOne l (int :: l') := by
  intro x hx y y' hy hy' hxy hxy'
  rcases List.mem_cons.mp hy with heq | hmem
  · rw [heq] at hxy
    exact absurd hxy (hint x hx)
  · rcases List.mem_cons.mp hy' with heq' | hmem'
    · rw [heq'] at hxy'
      exact absurd hxy' (hint x hx)
    · exact h x hx y y' hmem hmem' hxy hxy'

omit [DebugText D] [DebugText Str] in
/-- An interval that overlaps nothing is added to one list. -/
theorem OneToOne.cons_left (h : OneToOne l l')
    (hint : forall y, y ∈ l' -> ¬ int.dates.Overlaps y.dates) :
    OneToOne (int :: l) l' := by
  constructor
  · apply h.1.cons_left
    intro y y' hy _ hoverlaps
    exact absurd hoverlaps (hint y hy)
  · apply h.2.cons_right
    intro y hy hoverlaps
    exact hint y hy hoverlaps.symm

omit [DebugText D] [DebugText Str] in
theorem OneToOne.symm (h : OneToOne l l') : OneToOne l' l := ⟨h.2, h.1⟩

omit [DebugText D] [DebugText Str] in
theorem OneToOne.mono (h : OneToOne l l') (hk : k ⊆ l) (hk' : k' ⊆ l') :
    OneToOne k k' :=
  ⟨h.1.mono hk hk', h.2.mono hk' hk⟩

omit [DebugText D] [DebugText Str] in
theorem OverlapsOne.cons_cons (h : OverlapsOne l l')
    (hint : forall y, y ∈ l' -> ¬ int.dates.Overlaps y.dates)
    (hotherInt : forall x, x ∈ l -> ¬ x.dates.Overlaps otherInt.dates) :
    OverlapsOne (int :: l) (otherInt :: l') := by
  apply (h.cons_right hotherInt).cons_left
  intro y y' hy hy' hxy hxy'
  rcases List.mem_cons.mp hy with heq | hmem
  · rcases List.mem_cons.mp hy' with heq' | hmem'
    · rw [heq, heq']
    · exact absurd hxy' (hint y' hmem')
  · exact absurd hxy (hint y hmem)

end Overlaps

omit [DebugText D] [DebugText Str] in
/-- An interval that overlaps the first one comes before all others. -/
theorem OneToOne.before (h : OneToOne (int :: orig) (otherInt :: add))
    (hproper : Proper (int :: orig)) (hseparated : Separated (int :: orig))
    (hoverlaps : int.dates.Overlaps otherInt.dates) {x : MappingInterval D}
    (hx : x ∈ orig) : otherInt.dates.Before x.dates := by
  have hbefore := hseparated.head hx
  by_contra hnot
  have hstart : otherInt.dates.start < x.dates.stop :=
    lt_of_lt_of_le hoverlaps.2
      (le_trans hbefore (le_of_lt (hproper.tail x hx)))
  have heq := h.2 otherInt List.mem_cons_self int x List.mem_cons_self
    (List.mem_cons_of_mem _ hx) hoverlaps.symm ⟨hstart, not_le.mp hnot⟩
  rw [← heq] at hbefore
  exact hbefore.not_overlaps hproper.head.overlaps_self

omit [DebugText D] [DebugText Str] in
/-- When no interval overlaps two others, the list that is put out is sorted
and disjoint. -/
theorem MergesInto.separated (h : MergesInto orig add merged)
    (horig : Proper orig) (hadd : Proper add) (hsorig : Separated orig)
    (hsadd : Separated add) (hone : OneToOne orig add) :
    Separated merged := by
  induction h with
  | nilRight orig => exact hsorig
  | nilLeft add => exact hsadd
  | less before rest ih =>
      apply List.pairwise_cons.mpr
      constructor
      · intro i hi
        apply rest.before _ _ hi
        · intro j hj
          exact hsorig.head hj
        · intro j hj
          exact hsadd.before hadd before hj
      · exact ih horig.tail hadd hsorig.tail hsadd
          (hone.mono (List.subset_cons_self _ _) (List.Subset.refl _))
  | greater before rest ih =>
      apply List.pairwise_cons.mpr
      constructor
      · intro i hi
        apply rest.before _ _ hi
        · intro j hj
          exact hsorig.before horig before hj
        · intro j hj
          exact hsadd.head hj
      · exact ih horig hadd.tail hsorig hsadd.tail
          (hone.mono (List.Subset.refl _) (List.subset_cons_self _ _))
  | fuse overlaps same rest ih =>
      apply List.pairwise_cons.mpr
      constructor
      · intro i hi
        apply rest.before _ _ hi
        · intro j hj
          exact (hsorig.head hj).hull_left
            (hone.before horig hsorig overlaps hj)
        · intro j hj
          exact (hone.symm.before hadd hsadd overlaps.symm hj).hull_left
            (hsadd.head hj)
      · exact ih horig.tail hadd.tail hsorig.tail hsadd.tail
          (hone.mono (List.subset_cons_self _ _) (List.subset_cons_self _ _))

omit [DebugText D] [DebugText Str] in
/-- What is before the list that is put out is before both lists. -/
theorem MergesInto.before_of_merged (h : MergesInto orig add merged)
    (horig : Proper orig) (hadd : Proper add) {int : MappingInterval D}
    (hmerged : forall j, j ∈ merged -> int.dates.Before j.dates)
    {i : MappingInterval D} (hi : i ∈ orig ∨ i ∈ add) :
    int.dates.Before i.dates := by
  -- the first date of the interval is in some interval that is put out
  have hproper : i.dates.Proper := by
    rcases hi with hi | hi
    · exact horig i hi
    · exact hadd i hi
  have hmaps : MapsTo merged i.startDate i.symbol := by
    rw [h.mapsTo_iff]
    rcases hi with hi | hi
    · exact Or.inl ⟨i, hi, hproper.start_mem, rfl⟩
    · exact Or.inr ⟨i, hi, hproper.start_mem, rfl⟩
  rcases hmaps with ⟨j, hj, hdate, _⟩
  exact le_trans (hmerged j hj) hdate.1

omit [DebugText D] [DebugText Str] in
/-- When the list that is put out is sorted and disjoint, no interval overlaps
two others. -/
theorem MergesInto.oneToOne (h : MergesInto orig add merged)
    (horig : Proper orig) (hadd : Proper add) (hsorig : Separated orig)
    (hsadd : Separated add) (hmerged : Separated merged) :
    OneToOne orig add := by
  induction h with
  | nilRight orig =>
      constructor
      · intro x _ y y' hy
        cases hy
      · intro x hx
        cases hx
  | nilLeft add =>
      constructor
      · intro x hx
        cases hx
      · intro x _ y y' hy
        cases hy
  | less before rest ih =>
      apply (ih horig.tail hadd hsorig.tail hsadd hmerged.tail).cons_left
      intro y hy
      exact (hsadd.before hadd before hy).not_overlaps
  | greater before rest ih =>
      apply OneToOne.symm
      apply (ih horig hadd.tail hsorig hsadd.tail hmerged.tail).symm.cons_left
      intro x hx
      exact (hsorig.before horig before hx).not_overlaps
  | @fuse int otherInt orig add merged overlaps same rest ih =>
      have hone := ih horig.tail hadd.tail hsorig.tail hsadd.tail hmerged.tail
      have hafter : forall i, i ∈ orig ∨ i ∈ add ->
          (int.merge otherInt).dates.Before i.dates := by
        intro i hi
        apply rest.before_of_merged horig.tail hadd.tail _ hi
        intro j hj
        exact hmerged.head hj
      have hint : forall y, y ∈ add -> ¬ int.dates.Overlaps y.dates := by
        intro y hy
        have hbefore := hafter y (Or.inr hy)
        exact HalfOpen.Before.not_overlaps
          (le_trans (le_max_left _ otherInt.endDate) hbefore)
      have hotherInt : forall x, x ∈ orig ->
          ¬ otherInt.dates.Overlaps x.dates := by
        intro x hx
        have hbefore := hafter x (Or.inl hx)
        exact HalfOpen.Before.not_overlaps
          (le_trans (le_max_right int.endDate _) hbefore)
      constructor
      · apply hone.1.cons_cons hint
        intro x hx hoverlaps
        exact hotherInt x hx hoverlaps.symm
      · apply hone.2.cons_cons hotherInt
        intro y hy hoverlaps
        exact hint y hy hoverlaps.symm

/-!
## Sorted and disjoint results
-/

/--
The merge of two lists of sorted and disjoint intervals maps the same dates to
the same symbols; it is sorted and disjoint exactly when no interval of a list
overlaps two intervals of the other one.
-/
theorem mergeIntervals_sortedDisjoint_iff (horig : Proper orig)
    (hadd : Proper add) (hsorig : SortedDisjoint orig)
    (hsadd : SortedDisjoint add)
    (hok : mergeIntervals orig add = Except.ok merged) :
    (SortedDisjoint merged ∧ forall date symbol,
      MapsTo merged date symbol <->
        MapsTo orig date symbol ∨ MapsTo add date symbol) <->
    OneToOne orig add := by
  rcases mergeIntervals_cases horig hadd with ⟨hok', hinto, _⟩ | ⟨e, herr, _⟩
  · rw [hok] at hok'
    cases hok'
    have hproper := hinto.proper horig hadd
    constructor
    · intro h
      exact hinto.oneToOne horig hadd (hsorig.separated horig)
        (hsadd.separated hadd) (h.1.separated hproper)
    · intro hone
      have hseparated := hinto.separated horig hadd (hsorig.separated horig)
        (hsadd.separated hadd) hone
      exact ⟨hseparated.sortedDisjoint hproper,
        fun _ _ => hinto.mapsTo_iff⟩
  · rw [hok] at herr
    cases herr

end Loop

/-- The text of a date. -/
instance : DebugText GregorianDate where
  debug d :=
    let pad := fun n : Nat => (if n < 10 then "0" else "") ++ toString n
    toString d.year ++ "-" ++ pad d.month ++ "-" ++ pad d.day

/-- The text of a string without characters that are escaped. -/
instance : DebugText Str where
  debug s := "\"" ++ s.display ++ "\""

/-- A day of June, counted from 0. -/
def june (day : Fin 30) : GregorianDate where
  year := 2023
  month := 6
  day := day.val + 1
  valid := by
    have hday : day.val + 1 ≤ daysInMonth 2023 6 := day.isLt
    unfold ValidDate
    omega

/-- An interval of days of June with a symbol of one letter. -/
def juneInterval (start stop : Fin 30) (letter : Fin 26) :
    MappingInterval GregorianDate where
  startDate := june start
  endDate := june stop
  symbol := ⟨[UInt8.ofNat (65 + letter.val)], by revert letter; decide⟩

theorem mergeIntervals_sortedDisjoint_iff_june :
    (SortedDisjoint [juneInterval 0 6 0, juneInterval 8 9 1] ∧
      forall date symbol,
        MapsTo [juneInterval 0 6 0, juneInterval 8 9 1] date symbol <->
          MapsTo [juneInterval 0 5 0] date symbol ∨
            MapsTo [juneInterval 3 6 0, juneInterval 8 9 1] date symbol) <->
    OneToOne [juneInterval 0 5 0]
      [juneInterval 3 6 0, juneInterval 8 9 1] :=
  mergeIntervals_sortedDisjoint_iff (by decide) (by decide)
    (Separated.sortedDisjoint (by decide) (by decide))
    (Separated.sortedDisjoint (by decide) (by decide))
    (by
      rw [mergeIntervals_cons (o := .overlap) rfl]
      unfold roundResult mergeIntervals
      rfl)

/-- A long interval is only compared with the first of two short ones. -/
theorem not_sortedDisjoint_june :
    Proper [juneInterval 0 9 0] ∧ SortedDisjoint [juneInterval 0 9 0] ∧
    Proper [juneInterval 0 2 0, juneInterval 3 5 0] ∧
    SortedDisjoint [juneInterval 0 2 0, juneInterval 3 5 0] ∧
    mergeIntervals [juneInterval 0 9 0]
      [juneInterval 0 2 0, juneInterval 3 5 0] =
      Except.ok [juneInterval 0 9 0, juneInterval 3 5 0] ∧
    ¬ SortedDisjoint [juneInterval 0 9 0, juneInterval 3 5 0] := by
  refine ⟨by decide, Separated.sortedDisjoint (by decide) (by decide),
    by decide, Separated.sortedDisjoint (by decide) (by decide), ?_, ?_⟩
  · rw [mergeIntervals_cons (o := .overlap) rfl]
    unfold roundResult mergeIntervals
    rfl
  · intro h
    have hseparated := h.separated (by decide)
    exact absurd hseparated (by decide)

end MetadataMerger
end Dbn
