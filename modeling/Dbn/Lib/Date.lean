import Mathlib.Data.Int.Order.Basic
import Mathlib.Order.Basic
import Mathlib.Tactic.Common

/-!
# Calendar dates

Dates come from an external crate (`time::Date`).  `CalendarDate` lists what
the codec uses of it and `LawfulCalendarDate` the documented behaviour it
relies on; `GregorianDate` is a type of dates with that behaviour.
-/

namespace Dbn
namespace Lib

/-- The operations of a date type. -/
class CalendarDate (D : Type) where
  year : D -> Int
  /-- The month as a number, January being 1. -/
  month : D -> Nat
  day : D -> Nat
  /-- `Date::from_calendar_date`, with the debug text of its error. -/
  fromCalendarDate : Int -> Nat -> Nat -> Except String D
  /-- The debug text of the error of `Month::try_from`. -/
  monthError : Nat -> String

/-- A date is rebuilt from its year, its month (1 to 12) and its day. -/
class LawfulCalendarDate (D : Type) [CalendarDate D] : Prop where
  month_pos (d : D) : 1 ≤ CalendarDate.month d
  month_le (d : D) : CalendarDate.month d ≤ 12
  day_le (d : D) : CalendarDate.day d ≤ 31
  fromCalendarDate_parts (d : D) :
    CalendarDate.fromCalendarDate (CalendarDate.year d) (CalendarDate.month d)
      (CalendarDate.day d) = Except.ok d

/-!
## The Gregorian calendar
-/

/-- The number of days of a month. -/
def daysInMonth (year : Int) (month : Nat) : Nat :=
  match month with
  | 2 => if year % 4 = 0 ∧ (year % 100 ≠ 0 ∨ year % 400 = 0) then 29 else 28
  | 4 => 30
  | 6 => 30
  | 9 => 30
  | 11 => 30
  | _ => 31

/-- The date exists and its year has at most four digits. -/
def ValidDate (year : Int) (month day : Nat) : Prop :=
  -9999 ≤ year ∧ year ≤ 9999 ∧ 1 ≤ month ∧ month ≤ 12 ∧ 1 ≤ day ∧
    day ≤ daysInMonth year month

instance (year : Int) (month day : Nat) :
    Decidable (ValidDate year month day) :=
  inferInstanceAs (Decidable (_ ∧ _))

/-- `from_calendar_date` accepts exactly the valid dates, and makes the date
with the parts that it is given. -/
class GregorianCalendar (D : Type) [CalendarDate D] : Prop
    extends LawfulCalendarDate D where
  accepts (year : Int) (month day : Nat) :
    (exists date : D, CalendarDate.fromCalendarDate year month day =
      Except.ok date) <-> ValidDate year month day
  parts {year : Int} {month day : Nat} {date : D} :
    CalendarDate.fromCalendarDate year month day = Except.ok date ->
      CalendarDate.year date = year ∧ CalendarDate.month date = month ∧
        CalendarDate.day date = day

/-- A date of the Gregorian calendar. -/
structure GregorianDate where
  year : Int
  month : Nat
  day : Nat
  valid : ValidDate year month day
deriving DecidableEq

/-- A number that grows with the date. -/
def GregorianDate.position (d : GregorianDate) : Int :=
  (d.year * 13 + d.month) * 32 + d.day

theorem daysInMonth_le (year : Int) (month : Nat) :
    daysInMonth year month ≤ 31 := by
  unfold daysInMonth
  split
  · split <;> decide
  all_goals decide

theorem GregorianDate.position_injective :
    Function.Injective GregorianDate.position := by
  intro a b h
  rcases a with ⟨year, month, day, valid⟩
  rcases b with ⟨year', month', day', valid'⟩
  have hday := Nat.le_trans valid.2.2.2.2.2 (daysInMonth_le year month)
  have hday' := Nat.le_trans valid'.2.2.2.2.2 (daysInMonth_le year' month')
  have hmonth := valid.2.2.2.1
  have hmonth' := valid'.2.2.2.1
  simp only [GregorianDate.position] at h
  have hyears : year = year' ∧ month = month' ∧ day = day' := by omega
  rcases hyears with ⟨rfl, rfl, rfl⟩
  rfl

/-- Dates in the order of the calendar. -/
instance : LinearOrder GregorianDate :=
  LinearOrder.lift' GregorianDate.position GregorianDate.position_injective

instance : CalendarDate GregorianDate where
  year := GregorianDate.year
  month := GregorianDate.month
  day := GregorianDate.day
  fromCalendarDate year month day :=
    if h : ValidDate year month day then Except.ok ⟨year, month, day, h⟩
    else Except.error "ComponentRange"
  monthError _ := "ComponentRange"

instance : LawfulCalendarDate GregorianDate where
  month_pos d := d.valid.2.2.1
  month_le d := d.valid.2.2.2.1
  day_le d := Nat.le_trans d.valid.2.2.2.2.2 (daysInMonth_le _ _)
  fromCalendarDate_parts d := dif_pos d.valid

instance : GregorianCalendar GregorianDate where
  accepts year month day := by
    by_cases h : ValidDate year month day
    · exact ⟨fun _ => h, fun _ => ⟨_, dif_pos h⟩⟩
    · constructor
      · intro hok
        rcases hok with ⟨date, hok⟩
        cases (dif_neg h).symm.trans hok
      · intro hvalid
        exact absurd hvalid h
  parts {year month day date} hok := by
    by_cases h : ValidDate year month day
    · cases (dif_pos h).symm.trans hok
      exact ⟨rfl, rfl, rfl⟩
    · cases (dif_neg h).symm.trans hok

end Lib
end Dbn
