/-
Calendar dates.

The calendar is the Gregorian one, carried back before its introduction, over
the years `-262143` to `262142`. A `Date` is always a day that exists.
-/

namespace FlagGovernance

/-- The year has a twenty-ninth of February. -/
def isLeapYear (year : Int) : Bool :=
  year % 4 == 0 && (year % 100 != 0 || year % 400 == 0)

/-- The number of days of a month, zero for what is no month. -/
def daysInMonth (year : Int) (month : Nat) : Nat :=
  match month with
  | 1 | 3 | 5 | 7 | 8 | 10 | 12 => 31
  | 4 | 6 | 9 | 11 => 30
  | 2 => if isLeapYear year then 29 else 28
  | _ => 0

def firstYear : Int := -262143

def lastYear : Int := 262142

/-- The three numbers name a day of the calendar. -/
def isCalendarDay (year : Int) (month day : Nat) : Prop :=
  firstYear ≤ year ∧ year ≤ lastYear ∧ 1 ≤ day ∧ day ≤ daysInMonth year month

instance (year : Int) (month day : Nat) : Decidable (isCalendarDay year month day) := by
  unfold isCalendarDay; infer_instance

/-- A day of the calendar. -/
structure Date where
  year : Int
  month : Nat
  day : Nat
  exists_in_calendar : isCalendarDay year month day
deriving DecidableEq, Repr

namespace Date

/-- The date of three numbers, if they name a day. -/
def of? (year : Int) (month day : Nat) : Option Date :=
  if h : isCalendarDay year month day then some ⟨year, month, day, h⟩ else none

/-- The day after, if the calendar has one. -/
def next? (d : Date) : Option Date :=
  if d.day < daysInMonth d.year d.month then of? d.year d.month (d.day + 1)
  else if d.month < 12 then of? d.year (d.month + 1) 1
  else of? (d.year + 1) 1 1

/-- The day before, if the calendar has one. -/
def prev? (d : Date) : Option Date :=
  if 1 < d.day then of? d.year d.month (d.day - 1)
  else if 1 < d.month then of? d.year (d.month - 1) (daysInMonth d.year (d.month - 1))
  else of? (d.year - 1) 12 31

theorem month_pos (d : Date) : 1 ≤ d.month := by
  obtain ⟨_, _, h1, h2⟩ := d.exists_in_calendar
  rcases Nat.eq_zero_or_pos d.month with h | h
  · rw [h] at h2; simp [daysInMonth] at h2; omega
  · exact h

theorem of?_self (d : Date) : of? d.year d.month d.day = some d := by
  simp [of?, d.exists_in_calendar]

end Date

end FlagGovernance
