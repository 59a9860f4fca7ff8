import Dbn.Metadata.SymbolMapAgreement

/-!
# Inserting into a symbol map

`insert` changes the map in place.  What it sets is a half-open range of dates
for one instrument, and it sets nothing when it returns an error.
-/

namespace Dbn

open Lib

namespace TsSymbolMap

variable {D : Type} [LinearOrder D] [DayCalendar D]

/-- `insert` with what it returns and the map after the call. -/
def insertInPlace (self : TsSymbolMap D) (instrumentId : UInt32)
    (startDate endDate : D) (symbol : Str) :
    Outcome (Except Error Unit × TsSymbolMap D) :=
  match compare startDate endDate with
  | .lt =>
      match insertDays self instrumentId symbol endDate
        (daysBetween startDate endDate) startDate with
      | .ret table => .ret (.ok (), table)
      | .panic p => .panic p
      | .timeout => .timeout
  | .eq =>
      -- shouldn't happen but better to just ignore
      .ret (.ok (), self)
  | .gt =>
      .ret (.error (Error.badArgument "start_date"
        "start_date cannot come after end_date"), self)

variable {self : TsSymbolMap D} {instrumentId : UInt32} {symbol : Str}
  {startDate endDate : D}

/-- The map that a call returns is the one that it leaves. -/
theorem insert_eq_insertInPlace :
    self.insert instrumentId startDate endDate symbol =
      (match self.insertInPlace instrumentId startDate endDate symbol with
      | .ret (.ok (), table) => pure table
      | .ret (.error e, _) => throw e
      | .panic p => ExceptT.lift (.panic p)
      | .timeout => ExceptT.lift .timeout) := by
  unfold insert insertInPlace
  rcases lt_trichotomy startDate endDate with hlt | heq | hgt
  · rw [if_pos hlt, compare_lt_iff_lt.mpr hlt]
    dsimp only
    cases insertDays self instrumentId symbol endDate
      (daysBetween startDate endDate) startDate with
    | ret table => rfl
    | panic p => rfl
    | timeout => rfl
  · rw [if_neg (not_lt_of_ge (ge_of_eq heq)), if_pos heq,
      compare_eq_iff_eq.mpr heq]
  · rw [if_neg (not_lt_of_gt hgt), if_neg (ne_of_gt hgt),
      compare_gt_iff_gt.mpr hgt]

variable [LawfulDayCalendar D]

/-- `insert` sets the dates from the first one up to the end for the
instrument and nothing else. -/
theorem insertInPlace_spec (self : TsSymbolMap D) (instrumentId : UInt32)
    (startDate endDate : D) (symbol : Str) :
    (startDate ≤ endDate -> exists table,
      self.insertInPlace instrumentId startDate endDate symbol =
        .ret (.ok (), table) ∧
      forall date iid, table.get date iid =
        if startDate ≤ date ∧ date < endDate ∧ iid = instrumentId then
          some symbol
        else self.get date iid) ∧
    (endDate < startDate -> exists e,
      self.insertInPlace instrumentId startDate endDate symbol =
        .ret (.error e, self)) := by
  unfold insertInPlace
  constructor
  · intro hle
    rcases lt_or_eq_of_le hle with hlt | heq
    · rcases insertDays_spec self instrumentId symbol hlt with
        ⟨table, hret, hget⟩
      rw [compare_lt_iff_lt.mpr hlt]
      dsimp only
      rw [hret]
      exists table
      constructor
      · rfl
      · intro date iid
        rw [hget]
        apply if_congr _ rfl rfl
        exact and_assoc
    · rw [compare_eq_iff_eq.mpr heq]
      exists self
      constructor
      · rfl
      · intro date iid
        rw [if_neg]
        intro hin
        rw [heq] at hin
        exact not_lt_of_ge hin.1 hin.2.1
  · intro hgt
    rw [compare_gt_iff_gt.mpr hgt]
    exact ⟨_, rfl⟩

/-- The last days that can be represented. -/
theorem insertInPlace_spec_last :
    exists table, insertInPlace (∅ : TsSymbolMap GregorianDate) 7
        ⟨9999, 12, 30, by decide⟩ GregorianDate.last ⟨[65], by decide⟩ =
          .ret (.ok (), table) ∧
      forall date iid, table.get date iid =
        if (⟨9999, 12, 30, by decide⟩ : GregorianDate) ≤ date ∧
            date < GregorianDate.last ∧ iid = 7 then
          some ⟨[65], by decide⟩
        else get (∅ : TsSymbolMap GregorianDate) date iid := by
  have hle : (⟨9999, 12, 30, by decide⟩ : GregorianDate) ≤
      GregorianDate.last := by
    decide
  exact (insertInPlace_spec ∅ 7 _ _ ⟨[65], by decide⟩).1 hle

end TsSymbolMap

end Dbn
