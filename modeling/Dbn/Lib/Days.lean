import Dbn.Lib.Date
import Dbn.Lib.HalfOpen
import Mathlib.Algebra.Order.Ring.Int
import Mathlib.Data.Int.ConditionallyCompleteOrder
import Mathlib.Order.ConditionallyCompleteLattice.Group
import Mathlib.Order.Monotone.Basic

/-!
# Days and times

`DayCalendar` lists what is used of the date and time types of an external
crate (`time`) besides `CalendarDate`: the day after a date, and times of day
in nanoseconds since the UNIX epoch.
-/

namespace Dbn
namespace Lib

def nanosPerDay : Nat := 86400000000000

class DayCalendar (D : Type) where
  /-- `Date::next_day`. -/
  nextDay : D -> Option D
  /-- `PrimitiveDateTime::new(date, time!(0:00)).assume_utc()`. -/
  midnight : D -> Int
  /-- The date of `OffsetDateTime::from_unix_timestamp_nanos`. -/
  ofUnixNanos : Nat -> D

/-- Days follow each other and have the same length. -/
class LawfulDayCalendar (D : Type) [LinearOrder D] [DayCalendar D] : Prop where
  midnight_strictMono : StrictMono (DayCalendar.midnight (D := D))
  midnight_nextDay {d next : D} : DayCalendar.nextDay d = some next ->
    DayCalendar.midnight next = DayCalendar.midnight d + nanosPerDay
  /-- Only the last date has no next day. -/
  nextDay_of_lt {d d' : D} : d < d' ->
    exists next, DayCalendar.nextDay d = some next
  nanosPerDay_dvd (d : D) : (nanosPerDay : Int) ∣ DayCalendar.midnight d
  /-- The 64-bit timestamps are in the range of the dates. -/
  ofUnixNanos_spec {n : Nat} : n < 2 ^ 64 ->
    DayCalendar.midnight (DayCalendar.ofUnixNanos n : D) ≤ n ∧
      n < DayCalendar.midnight (DayCalendar.ofUnixNanos n : D) + nanosPerDay
  exists_after_timestamps : exists d : D, 2 ^ 64 ≤ DayCalendar.midnight d

/-!
## Walking through an interval
-/

section Intervals

variable {D : Type} [LinearOrder D] [DayCalendar D] [LawfulDayCalendar D]
  {d next stop date : D} {n n' : Nat}

open DayCalendar LawfulDayCalendar

theorem midnight_lt_iff : midnight d < midnight stop <-> d < stop :=
  midnight_strictMono.lt_iff_lt

theorem midnight_le_iff : midnight d ≤ midnight stop <-> d ≤ stop :=
  midnight_strictMono.le_iff_le

theorem lt_nextDay (h : nextDay d = some next) : d < next := by
  rw [← midnight_lt_iff, midnight_nextDay h, nanosPerDay]
  omega

/-- There is no date between a date and the next day. -/
theorem nextDay_le (h : nextDay d = some next) (hlt : d < stop) :
    next ≤ stop := by
  rw [← midnight_lt_iff] at hlt
  rw [← midnight_le_iff, midnight_nextDay h]
  rcases nanosPerDay_dvd d with ⟨k, hk⟩
  rcases nanosPerDay_dvd stop with ⟨k', hk'⟩
  rw [hk, hk'] at hlt ⊢
  simp only [nanosPerDay] at hlt ⊢
  omega

/-- The dates of an interval are the first one and those from the next day. -/
theorem mem_iff_nextDay (h : nextDay d = some next) (hlt : d < stop) :
    date ∈ (⟨d, stop⟩ : HalfOpen D) <->
      date = d ∨ date ∈ (⟨next, stop⟩ : HalfOpen D) := by
  constructor
  · intro hmem
    rcases lt_or_eq_of_le hmem.1 with hafter | heq
    · exact Or.inr ⟨nextDay_le h hafter, hmem.2⟩
    · exact Or.inl heq.symm
  · intro hor
    rcases hor with rfl | hmem
    · exact ⟨le_refl _, hlt⟩
    · exact ⟨le_of_lt (lt_of_lt_of_le (lt_nextDay h) hmem.1), hmem.2⟩

/-- The number of days of an interval. -/
def daysBetween (d stop : D) : Nat :=
  ((midnight stop - midnight d) / nanosPerDay).toNat

theorem daysBetween_nextDay (h : nextDay d = some next) (hlt : d < stop) :
    daysBetween d stop = daysBetween next stop + 1 := by
  have hle := midnight_le_iff.mpr (nextDay_le h hlt)
  unfold daysBetween
  rw [midnight_nextDay h] at hle ⊢
  simp only [nanosPerDay] at hle ⊢
  omega

theorem daysBetween_pos (hlt : d < stop) : 0 < daysBetween d stop := by
  rcases nextDay_of_lt hlt with ⟨next, h⟩
  rw [daysBetween_nextDay h hlt]
  exact Nat.succ_pos _

theorem ofUnixNanos_mono (hle : n ≤ n') (h : n' < 2 ^ 64) :
    (ofUnixNanos n : D) ≤ ofUnixNanos n' := by
  have hspec := (ofUnixNanos_spec (D := D) (lt_of_le_of_lt hle h)).1
  have hspec' := (ofUnixNanos_spec (D := D) h).2
  by_contra hnot
  have hlt := not_le.mp hnot
  rcases nextDay_of_lt hlt with ⟨next, hnext⟩
  have hafter := midnight_le_iff.mpr (nextDay_le hnext hlt)
  rw [midnight_nextDay hnext] at hafter
  omega

end Intervals

/-!
## The days of the Gregorian calendar
-/

namespace GregorianDate

/-- The number of days of the years before. -/
def daysBeforeYear (year : Int) : Int :=
  365 * (year - 1) + (year - 1) / 4 - (year - 1) / 100 + (year - 1) / 400

/-- The number of days of the months before. -/
def daysBeforeMonth (year : Int) : Nat -> Nat
  | 0 => 0
  | month + 1 => daysBeforeMonth year month + daysInMonth year month

def dayNumber (d : GregorianDate) : Int :=
  daysBeforeYear d.year + daysBeforeMonth d.year d.month + d.day

def epoch : GregorianDate := ⟨1970, 1, 1, by decide⟩

def last : GregorianDate := ⟨9999, 12, 31, by decide⟩

def nextDay (d : GregorianDate) : Option GregorianDate :=
  if h : ValidDate d.year d.month (d.day + 1) then
    some ⟨d.year, d.month, d.day + 1, h⟩
  else if h : ValidDate d.year (d.month + 1) 1 then
    some ⟨d.year, d.month + 1, 1, h⟩
  else if h : ValidDate (d.year + 1) 1 1 then some ⟨d.year + 1, 1, 1, h⟩
  else none

/-- The date some days after the epoch. -/
def ofDays : Nat -> GregorianDate
  | 0 => epoch
  | n + 1 => ((ofDays n).nextDay).getD last

instance : DayCalendar GregorianDate where
  nextDay := nextDay
  midnight d := (d.dayNumber - epoch.dayNumber) * nanosPerDay
  ofUnixNanos n := ofDays (n / nanosPerDay)

theorem daysInMonth_pos (year : Int) (month : Nat) :
    1 ≤ daysInMonth year month := by
  unfold daysInMonth
  split
  · split <;> decide
  all_goals decide

theorem daysBeforeMonth_mono (year : Int) :
    Monotone (daysBeforeMonth year) :=
  monotone_nat_of_le_succ (fun _ => Nat.le_add_right _ _)

/-- Month 0 has 31 days in `daysInMonth`. -/
theorem daysBeforeYear_succ (year : Int) :
    daysBeforeYear (year + 1) + 31 =
      daysBeforeYear year + daysBeforeMonth year 13 := by
  simp only [daysBeforeYear, daysBeforeMonth, daysInMonth]
  split <;> omega

theorem daysBeforeYear_mono {year year' : Int} (h : year ≤ year') :
    daysBeforeYear year ≤ daysBeforeYear year' := by
  unfold daysBeforeYear
  omega

variable {d d' next : GregorianDate}

theorem day_le_daysInMonth (d : GregorianDate) :
    d.day ≤ daysInMonth d.year d.month := d.valid.2.2.2.2.2

/-- The dates of a year have numbers before those of the next one. -/
theorem dayNumber_lt_of_year (h : d.year < d'.year) :
    d.dayNumber < d'.dayNumber := by
  have hday := d.day_le_daysInMonth
  have hmonth : daysBeforeMonth d.year (d.month + 1) ≤
      daysBeforeMonth d.year 13 :=
    daysBeforeMonth_mono _ (Nat.succ_le_succ d.valid.2.2.2.1)
  have hmonth' : daysBeforeMonth d'.year 1 ≤ daysBeforeMonth d'.year d'.month :=
    daysBeforeMonth_mono _ d'.valid.2.2.1
  have hfirst : daysBeforeMonth d'.year 1 = 31 := rfl
  have hyear := daysBeforeYear_succ d.year
  have hyear' := daysBeforeYear_mono (show d.year + 1 ≤ d'.year from h)
  have hpos := d'.valid.2.2.2.2.1
  rw [daysBeforeMonth] at hmonth
  unfold dayNumber
  omega

theorem dayNumber_lt_of_month (hyear : d.year = d'.year)
    (h : d.month < d'.month) : d.dayNumber < d'.dayNumber := by
  have hday := d.day_le_daysInMonth
  have hmonth : daysBeforeMonth d.year (d.month + 1) ≤
      daysBeforeMonth d.year d'.month := daysBeforeMonth_mono _ h
  have hpos := d'.valid.2.2.2.2.1
  rw [daysBeforeMonth] at hmonth
  unfold dayNumber
  rw [← hyear]
  omega

/-- A later date has a later year, month or day. -/
theorem lt_cases (h : d < d') : d.year < d'.year ∨
    (d.year = d'.year ∧ d.month < d'.month) ∨
    (d.year = d'.year ∧ d.month = d'.month ∧ d.day < d'.day) := by
  have hposition : d.position < d'.position := h
  have hmonth := d.valid.2.2.2.1
  have hmonth' := d'.valid.2.2.2.1
  have hday := Nat.le_trans d.day_le_daysInMonth (daysInMonth_le _ _)
  have hday' := Nat.le_trans d'.day_le_daysInMonth (daysInMonth_le _ _)
  simp only [position] at hposition
  omega

theorem dayNumber_strictMono : StrictMono dayNumber := by
  intro d d' h
  rcases lt_cases h with hyear | ⟨hyear, hmonth⟩ | ⟨hyear, hmonth, hday⟩
  · exact dayNumber_lt_of_year hyear
  · exact dayNumber_lt_of_month hyear hmonth
  · unfold dayNumber
    rw [hyear, hmonth]
    omega

theorem dayNumber_nextDay (h : d.nextDay = some next) :
    next.dayNumber = d.dayNumber + 1 := by
  have hday := d.day_le_daysInMonth
  have hvalid := d.valid
  unfold nextDay at h
  split at h
  · cases h
    simp only [dayNumber]
    omega
  · next hlastDay =>
      -- the date is the last one of its month
      have heq : d.day = daysInMonth d.year d.month := by
        unfold ValidDate at hlastDay hvalid
        omega
      split at h
      · cases h
        simp only [dayNumber, daysBeforeMonth]
        omega
      · next hlastMonth =>
          have hdecember : d.month = 12 := by
            have hpos := daysInMonth_pos d.year (d.month + 1)
            unfold ValidDate at hlastMonth hvalid
            omega
          split at h
          · cases h
            have hyear := daysBeforeYear_succ d.year
            have hthirteen : daysBeforeMonth d.year 13 =
                daysBeforeMonth d.year 12 + daysInMonth d.year 12 := rfl
            have hfirst : daysBeforeMonth (d.year + 1) 1 = 31 := rfl
            rw [hdecember] at heq
            simp only [dayNumber]
            rw [hdecember, hfirst]
            omega
          · cases h

/-- Only the last date has no next day. -/
theorem nextDay_of_lt (h : d < d') : exists next, d.nextDay = some next := by
  unfold nextDay
  split
  · exact ⟨_, rfl⟩
  · next hlastDay =>
      split
      · exact ⟨_, rfl⟩
      · next hlastMonth =>
          split
          · exact ⟨_, rfl⟩
          · next hlastYear =>
              have hvalid := d.valid
              have hvalid' := d'.valid
              have hpos := daysInMonth_pos d.year (d.month + 1)
              have hjanuary : daysInMonth (d.year + 1) 1 = 31 := rfl
              unfold ValidDate at hlastDay hlastMonth hlastYear hvalid hvalid'
              exfalso
              rcases lt_cases h with hyear | ⟨hyear, hmonth⟩ |
                ⟨hyear, hmonth, hday⟩
              · omega
              · omega
              · rw [hyear, hmonth] at hlastDay
                omega

theorem dayNumber_ofDays {n : Nat}
    (h : epoch.dayNumber + n ≤ last.dayNumber) :
    (ofDays n).dayNumber = epoch.dayNumber + n := by
  induction n with
  | zero => simp [ofDays]
  | succ n ih =>
      have hnumber := ih (by omega)
      have hlt : ofDays n < last := by
        rw [← dayNumber_strictMono.lt_iff_lt]
        omega
      rcases nextDay_of_lt hlt with ⟨next, hnext⟩
      rw [ofDays, hnext, Option.getD_some, dayNumber_nextDay hnext, hnumber]
      omega

theorem days_after_epoch : last.dayNumber = epoch.dayNumber + 2932896 := by
  decide

instance : LawfulDayCalendar GregorianDate where
  midnight_strictMono := by
    intro d d' h
    have hlt := dayNumber_strictMono h
    simp only [DayCalendar.midnight, nanosPerDay]
    omega
  midnight_nextDay h := by
    simp only [DayCalendar.midnight]
    rw [dayNumber_nextDay h, add_sub_right_comm, add_mul, one_mul]
  nextDay_of_lt := nextDay_of_lt
  nanosPerDay_dvd _ := Dvd.intro_left _ rfl
  ofUnixNanos_spec := by
    intro n hn
    have hdays : n / nanosPerDay ≤ 213503 := by
      unfold nanosPerDay
      omega
    have hnumber := dayNumber_ofDays (n := n / nanosPerDay) (by
      rw [days_after_epoch]
      omega)
    simp only [DayCalendar.midnight, DayCalendar.ofUnixNanos]
    rw [hnumber, add_sub_cancel_left]
    unfold nanosPerDay
    omega
  exists_after_timestamps := by
    refine ⟨last, ?_⟩
    simp only [DayCalendar.midnight]
    rw [days_after_epoch, add_sub_cancel_left]
    decide

end GregorianDate

end Lib
end Dbn
