import Dbn.Metadata.MergeCoverage
import Dbn.Metadata.SymbolMap

/-!
# The query range of a merge

The merged metadata starts with the first input and ends with the last end
that an input has.  An input without an end has no last date, but an end of
another input is taken for the later one.
-/

namespace Dbn
namespace MetadataMerger

open Lib
open PitSymbolMap (OutsideQueryRange)

section Ends

variable {a b : Option NonZeroU64} {x : NonZeroU64}

theorem maxEnd_eq_none : maxEnd a b = none <-> a = none ∧ b = none := by
  cases a with
  | none =>
      simp [maxEnd]
  | some x =>
      cases b <;> simp [maxEnd]

theorem le_maxEnd (h : a = some x ∨ b = some x) :
    exists y, maxEnd a b = some y ∧ x.val.toNat ≤ y.val.toNat := by
  cases a with
  | none =>
      rcases h with h | rfl
      · cases h
      · exact ⟨x, rfl, le_refl _⟩
  | some x' =>
      cases b with
      | none =>
          rcases h with h | h
          · exact ⟨x', rfl, by cases h; exact le_refl _⟩
          · cases h
      | some y' =>
          refine ⟨_, rfl, ?_⟩
          split
          · next hle =>
              rcases h with h | h
              · cases h
                exact UInt64.le_iff_toNat_le.mp hle
              · cases h
                exact le_refl _
          · next hnot =>
              rcases h with h | h
              · cases h
                exact le_refl _
              · cases h
                rw [UInt64.le_iff_toNat_le] at hnot
                exact le_of_lt (not_le.mp hnot)

theorem toNat_min (a b : UInt64) :
    (min a b).toNat = min a.toNat b.toNat := by
  have hmin : min a b = if a ≤ b then a else b := rfl
  rw [hmin, min_def]
  simp only [UInt64.le_iff_toNat_le]
  split <;> rfl

end Ends

/-- A range from the first start to the last end of the inputs. -/
structure Spans {D : Type} (inputs : List (Metadata D)) (start : UInt64)
    (endTs : Option NonZeroU64) : Prop where
  start_le : forall m, m ∈ inputs ->
    start.toNat ≤ m.start.toNat
  end_none : endTs = none <-> forall m, m ∈ inputs -> m.endTs = none
  le_end : forall m, m ∈ inputs -> forall e, m.endTs = some e ->
    exists e', endTs = some e' ∧ e.val.toNat ≤ e'.val.toNat

section Merges

variable {D : Type} [LinearOrder D] {merger merger' : MetadataMerger D}
  {inputs rest : List (Metadata D)} {original merged additional : Metadata D}

omit [LinearOrder D] in
theorem spans_singleton :
    Spans [original] original.start original.endTs := by
  constructor
  · intro m hm
    rw [List.mem_singleton.mp hm]
  · constructor
    · intro h m hm
      rw [List.mem_singleton.mp hm]
      exact h
    · intro h
      exact h original List.mem_cons_self
  · intro m hm e he
    rw [List.mem_singleton.mp hm] at he
    exact ⟨e, he, le_refl _⟩

variable [DebugText D] [DebugText Str]

theorem Spans.merge (hspans : Spans inputs merger.start merger.endTs)
    (hadds : Adds merger additional merger') :
    Spans (inputs ++ [additional]) merger'.start merger'.endTs := by
  constructor
  · intro m hm
    rw [hadds.start, toNat_min]
    rcases List.mem_append.mp hm with hm | hm
    · exact le_trans (min_le_left _ _) (hspans.start_le m hm)
    · rw [List.mem_singleton.mp hm]
      exact min_le_right _ _
  · rw [hadds.endTs, maxEnd_eq_none, hspans.end_none]
    constructor
    · intro h m hm
      rcases List.mem_append.mp hm with hm | hm
      · exact h.1 m hm
      · rw [List.mem_singleton.mp hm]
        exact h.2
    · intro h
      constructor
      · intro m hm
        exact h m (List.mem_append_left _ hm)
      · exact h additional (List.mem_append_right _ List.mem_cons_self)
  · intro m hm e he
    rw [hadds.endTs]
    rcases List.mem_append.mp hm with hm | hm
    · rcases hspans.le_end m hm e he with ⟨e', he', hle⟩
      rcases le_maxEnd (b := additional.endTs) (Or.inl he') with
        ⟨y, hy, hle'⟩
      exact ⟨y, hy, le_trans hle hle'⟩
    · rw [List.mem_singleton.mp hm] at he
      exact le_maxEnd (Or.inr he)

theorem Spans.foldlM_merge (hspans : Spans inputs merger.start merger.endTs)
    (h : rest.foldlM MetadataMerger.merge merger = Except.ok merger') :
    Spans (inputs ++ rest) merger'.start merger'.endTs := by
  induction rest generalizing merger inputs with
  | nil =>
      cases h
      rw [List.append_nil]
      exact hspans
  | cons additional rest ih =>
      rw [List.foldlM_cons] at h
      cases hmerge : merger.merge additional with
      | error e =>
          rw [hmerge] at h
          cases h
      | ok merger1 =>
          rw [hmerge] at h
          have hspans1 := ih (hspans.merge (adds_of_merge hmerge)) h
          rw [List.append_assoc] at hspans1
          exact hspans1

variable [HashOrder]

theorem spans_merge (h : original.merge rest = Except.ok merged) :
    Spans (original :: rest) merged.start merged.endTs := by
  unfold Metadata.merge at h
  cases hfold : rest.foldlM MetadataMerger.merge (new original) with
  | error e =>
      rw [hfold] at h
      cases h
  | ok merger =>
      rw [hfold] at h
      cases h
      have hspans : Spans [original] (new original).start
          (new original).endTs := spans_singleton
      exact hspans.foldlM_merge hfold

end Merges

/-- The query range of the merged metadata has the dates of every input. -/
def CoversRanges {D : Type} [LinearOrder D] [DayCalendar D]
    (inputs : List (Metadata D)) (merged : Metadata D) : Prop :=
  forall m, m ∈ inputs -> forall date, ¬ OutsideQueryRange m date ->
    ¬ OutsideQueryRange merged date

section Ranges

variable {D : Type} [LinearOrder D] [DayCalendar D] [LawfulDayCalendar D]
  {inputs rest : List (Metadata D)} {original merged m : Metadata D}

/-- A date that no timestamp reaches is in a range without an end only. -/
theorem outsideQueryRange_late {date : D}
    (hdate : 2 ^ 64 ≤ DayCalendar.midnight date) :
    OutsideQueryRange m date <-> m.endTs ≠ none := by
  constructor
  · intro hout hnone
    rcases hout with hbefore | ⟨e, he, _⟩
    · have hstart := (LawfulDayCalendar.ofUnixNanos_spec (D := D)
        m.start.toNat_lt).1
      rw [← midnight_lt_iff] at hbefore
      have hlt := m.start.toNat_lt
      omega
    · rw [hnone] at he
      cases he
  · intro hsome
    rcases Option.ne_none_iff_exists'.mp hsome with ⟨e, he⟩
    refine Or.inr ⟨e, he, ?_⟩
    have hlt := e.val.toNat_lt
    omega

/-- Without ends, or with an end of every input, the ranges are covered. -/
theorem Spans.coversRanges (hspans : Spans inputs merged.start merged.endTs)
    (hends : (forall m, m ∈ inputs -> m.endTs = none) ∨
      forall m, m ∈ inputs -> m.endTs ≠ none) :
    CoversRanges inputs merged := by
  intro m hm date hin hout
  apply hin
  rcases hout with hbefore | ⟨e, he, hafter⟩
  · left
    apply lt_of_lt_of_le hbefore
    apply ofUnixNanos_mono _ m.start.toNat_lt
    exact hspans.start_le m hm
  · right
    rcases hends with hnone | hsome
    · rw [hspans.end_none.mpr hnone] at he
      cases he
    · rcases Option.ne_none_iff_exists'.mp (hsome m hm) with ⟨e', he'⟩
      rcases hspans.le_end m hm e' he' with ⟨last, hlast, hle⟩
      have heq : last = e := Option.some.inj (hlast.symm.trans he)
      refine ⟨e', he', ?_⟩
      rw [heq] at hle
      omega

variable [DebugText D] [DebugText Str] [HashOrder]

/--
The merged query range covers those of the inputs exactly if all of them have
an end or none of them has one.
-/
theorem merge_coversRanges_iff (h : original.merge rest = Except.ok merged) :
    CoversRanges (original :: rest) merged <->
      (forall m, m ∈ original :: rest -> m.endTs = none) ∨
        forall m, m ∈ original :: rest -> m.endTs ≠ none := by
  have hspans := spans_merge h
  constructor
  · intro hcovers
    by_cases hnone : merged.endTs = none
    · exact Or.inl (hspans.end_none.mp hnone)
    · right
      intro m hm hend
      rcases LawfulDayCalendar.exists_after_timestamps (D := D) with
        ⟨date, hdate⟩
      apply hcovers m hm date
      · rw [outsideQueryRange_late hdate]
        exact not_not.mpr hend
      · rw [outsideQueryRange_late hdate]
        exact hnone
  · exact hspans.coversRanges

end Ranges

/-- Metadata without mappings that ends one second after the epoch. -/
def endedMetadata : Metadata GregorianDate :=
  { juneMetadata [] with
    endTs := NonZeroU64.new 1000000000
    mappings := [] }

theorem merge_coversRanges_iff_june :
    exists merged, endedMetadata.merge [endedMetadata] = Except.ok merged ∧
      (CoversRanges [endedMetadata, endedMetadata] merged <->
        (forall m, m ∈ [endedMetadata, endedMetadata] -> m.endTs = none) ∨
          forall m, m ∈ [endedMetadata, endedMetadata] ->
            m.endTs ≠ none) :=
  ⟨_, rfl, merge_coversRanges_iff rfl⟩

/-- The range of an input without an end is cut at the end of another. -/
theorem not_coversRanges_june :
    exists merged, (juneMetadata []).merge [endedMetadata] =
        Except.ok merged ∧
      ¬ CoversRanges [juneMetadata [], endedMetadata] merged := by
  refine ⟨_, rfl, ?_⟩
  intro hcovers
  apply hcovers _ List.mem_cons_self (june 0)
  · decide
  · decide

end MetadataMerger
end Dbn
