import SqlTemplate.Calendar.Moment
import SqlTemplate.Text.Numeral

/-!
# Timestamp literals

A moment is written as its local time, rounded to the microsecond, with halves
rounded up.  Engines differ in the number of digits kept, in what they want to
know about the time zone, and in the text around it.
-/

namespace SqlTemplate

/-- What follows the local time. -/
inductive ZoneForm where
  | absent
  /-- A blank and the offset with a colon. -/
  | offset
  /-- The offset without a blank or a colon. -/
  | compactOffset
  /-- A blank and the abbreviation of the time zone, or the offset if it has none. -/
  | abbreviation
  deriving DecidableEq

structure TimestampForm where
  opening : Text
  /-- The number of digits kept of the fraction. -/
  places : Nat
  zone : ZoneForm
  closing : Text

namespace Timestamp

/-- A year in four digits, with a sign when it lies before the year zero. -/
def year (y : Int) : Text :=
  if y < 0 then '-' :: Text.padded 4 y.natAbs else Text.padded 4 y.natAbs

def date (d : Date) : Text :=
  year d.year ++ '-' :: Text.padded 2 d.month ++ '-' :: Text.padded 2 d.day

/-- A time of day, with its fraction cut off after some of its nine digits. -/
def clock (places : Nat) (t : ClockTime) : Text :=
  Text.padded 2 t.hour ++ ':' :: Text.padded 2 t.minute ++ ':' :: Text.padded 2 t.second ++
    '.' :: (Text.padded 9 t.fraction).take places

/-- Sign, hours and minutes of an offset; seconds are left out. -/
def offset (separator : Text) (o : ZoneOffset) : Text :=
  let minutes := o.seconds.natAbs / 60
  (if o.seconds < 0 then '-' else '+') :: Text.padded 2 (minutes / 60) ++ separator ++
    Text.padded 2 (minutes % 60)

def zone (m : Moment) : ZoneForm → Text
  | .absent => []
  | .offset => ' ' :: offset [':'] m.offset
  | .compactOffset => offset [] m.offset
  | .abbreviation => ' ' :: m.zone.getD (offset [':'] m.offset)

def unset : Text := "'0000-00-00'".toList

/-- The literal of a moment, unless rounding it passes the end of the calendar. -/
def write? (form : TimestampForm) (m : Moment) : Option Text :=
  if m.isUnset then some unset
  else
    m.time.halfMicrosecondLater?.map fun time =>
      form.opening ++ date time.date ++ ' ' :: clock form.places time.clock ++
        zone m form.zone ++ form.closing

end Timestamp

end SqlTemplate
