import SqlTemplate.Calendar.Date
import SqlTemplate.Text.Basic

/-!
# Moments

A moment is a local date and time of day together with its distance from
universal time, and possibly the abbreviation of a time zone.  Two moments are
equal when they are the same instant and carry the same abbreviation.
-/

namespace SqlTemplate

def nanosPerDay : Nat := 86400000000000

structure ClockTime where
  nanos : Nat
  nanos_lt : nanos < nanosPerDay
  deriving DecidableEq

namespace ClockTime

def hour (t : ClockTime) : Nat := t.nanos / 3600000000000

def minute (t : ClockTime) : Nat := t.nanos / 60000000000 % 60

def second (t : ClockTime) : Nat := t.nanos / 1000000000 % 60

/-- The nanoseconds since the last full second. -/
def fraction (t : ClockTime) : Nat := t.nanos % 1000000000

def midnight : ClockTime := ⟨0, by decide⟩

def make? (hour minute second fraction : Nat) : Option ClockTime :=
  if h : hour < 24 ∧ minute < 60 ∧ second < 60 ∧ fraction < 1000000000 then
    some ⟨((hour * 60 + minute) * 60 + second) * 1000000000 + fraction, by
      unfold nanosPerDay; omega⟩
  else none

end ClockTime

structure LocalTime where
  date : Date
  clock : ClockTime
  deriving DecidableEq

namespace LocalTime

/-- Nanoseconds since the start of 1970, were the local time universal time. -/
def nanos (t : LocalTime) : Int :=
  t.date.dayNumber * nanosPerDay + t.clock.nanos

def halfMicrosecondLater? (t : LocalTime) : Option LocalTime :=
  if h : t.clock.nanos + 500 < nanosPerDay then
    some { t with clock := ⟨t.clock.nanos + 500, h⟩ }
  else
    t.date.next?.map fun date =>
      ⟨date, t.clock.nanos + 500 - nanosPerDay, by
        have := t.clock.nanos_lt
        unfold nanosPerDay at *
        omega⟩

end LocalTime

/-- How many seconds a local time is ahead of universal time; less than twenty-six hours. -/
structure ZoneOffset where
  seconds : Int
  seconds_mem : -93600 < seconds ∧ seconds < 93600
  deriving DecidableEq

def ZoneOffset.make? (seconds : Int) : Option ZoneOffset :=
  if h : -93600 < seconds ∧ seconds < 93600 then some ⟨seconds, h⟩ else none

/-- A local time with its offset and, possibly, the abbreviation of its time zone. -/
structure Moment where
  time : LocalTime
  offset : ZoneOffset
  zone : Option Text

namespace Moment

/-- Nanoseconds since the start of 1970 in universal time. -/
def instant (m : Moment) : Int :=
  m.time.nanos - m.offset.seconds * 1000000000

def equal (m n : Moment) : Bool :=
  m.instant == n.instant && m.zone == n.zone

instance : BEq Moment := ⟨equal⟩

/-- The start of 1970 without an abbreviation stands for a date that is not set. -/
def isUnset (m : Moment) : Bool :=
  m.instant == 0 && m.zone.isNone

end Moment

end SqlTemplate
