/-!
# Calendar dates

Dates of the proleptic Gregorian calendar with a year zero, from year -9999 to
year 9999.  The day number of a date counts the days from 1 January 1970, and
the next date has the next day number.
-/

namespace SqlTemplate

namespace Calendar

def isLeap (year : Int) : Bool :=
  year % 4 = 0 && (year % 100 ≠ 0 || year % 400 = 0)

def daysInMonth (year : Int) : Nat → Nat
  | 2 => if isLeap year then 29 else 28
  | 4 | 6 | 9 | 11 => 30
  | _ => 31

/-- The number of leap years from year zero up to but not including a year; negative before. -/
def leapsBefore (year : Int) : Int :=
  (year + 3) / 4 - (year + 99) / 100 + (year + 399) / 400

def daysInMonths (year : Int) : Nat → Nat
  | 0 => 0
  | months + 1 => daysInMonths year months + daysInMonth year (months + 1)

example : daysInMonths 1970 12 = 365 ∧ daysInMonths 0 12 = 366 := by decide

end Calendar

structure Date where
  year : Int
  month : Nat
  day : Nat
  year_mem : -9999 ≤ year ∧ year ≤ 9999
  month_mem : 1 ≤ month ∧ month ≤ 12
  day_mem : 1 ≤ day ∧ day ≤ Calendar.daysInMonth year month
  deriving DecidableEq

namespace Date

def make? (year : Int) (month day : Nat) : Option Date :=
  if h : (-9999 ≤ year ∧ year ≤ 9999) ∧ (1 ≤ month ∧ month ≤ 12) ∧
      1 ≤ day ∧ day ≤ Calendar.daysInMonth year month then
    some ⟨year, month, day, h.1, h.2.1, h.2.2⟩
  else none

/-- The day number: days since 1 January 1970, negative before. -/
def dayNumber (d : Date) : Int :=
  365 * d.year + Calendar.leapsBefore d.year + Calendar.daysInMonths d.year (d.month - 1) +
    d.day - 719529

def next? (d : Date) : Option Date :=
  (make? d.year d.month (d.day + 1)).or
    ((make? d.year (d.month + 1) 1).or (make? (d.year + 1) 1 1))

example : (make? 1970 1 1).map dayNumber = some 0 := by decide

example : (make? 9999 12 31).map next? = some none := by decide

end Date

end SqlTemplate
