import SqlTemplate.Proofs.DayNumbers
import SqlTemplate.Proofs.LiteralText

/-!
# Reading local times back

A numeral of fixed width is read by its width, and the digits of a fraction up
to the first character that is no digit, with zeros filled in to nanoseconds.
What is read has to be a date of the calendar and a time of day.  The literal of
a moment is read back as its local time, rounded to the microsecond with halves
rounded up, and cut off after the digits that the engine keeps.
-/

namespace SqlTemplate

namespace Text

/-- The number whose digits are the first `width` characters, and what follows them. -/
def digits? (width : Nat) (text : Text) : Option (Nat × Text) :=
  let front := text.take width
  if front.length = width ∧ front.all Char.isDigit then
    some (Nat.ofDigitChars 10 front 0, text.drop width)
  else none

def skip? (c : Char) : Text → Option Text
  | [] => none
  | first :: rest => if first = c then some rest else none

/-- The nanoseconds of the digits behind a decimal point, at most nine, and what follows them. -/
def fraction? (text : Text) : Option (Nat × Text) :=
  let front := text.takeWhile Char.isDigit
  if 1 ≤ front.length ∧ front.length ≤ 9 then
    some (Nat.ofDigitChars 10 (front ++ List.replicate (9 - front.length) '0') 0,
      text.dropWhile Char.isDigit)
  else none

@[simp] theorem skip?_cons (c : Char) (rest : Text) : skip? c (c :: rest) = some rest :=
  if_pos rfl

theorem length_padded {width n : Nat} (positive : 0 < width) (fits : n < Nat.pow 10 width) :
    (padded width n).length = width := by
  have short : (natural n).length ≤ width :=
    (Nat.length_toDigits_le_iff (by decide) positive).2 fits
  rw [padded, List.length_append, List.length_replicate]
  omega

theorem ofDigitChars_padded (width n : Nat) : Nat.ofDigitChars 10 (padded width n) 0 = n := by
  rw [padded, Nat.ofDigitChars_append, Nat.ofDigitChars_replicate_zero, Nat.mul_zero]
  exact Nat.ofDigitChars_ten_toDigits

theorem digits?_padded {width n : Nat} (positive : 0 < width) (fits : n < Nat.pow 10 width)
    (rest : Text) : digits? width (padded width n ++ rest) = some (n, rest) := by
  have length := length_padded positive fits
  rw [digits?, List.take_left' length, List.drop_left' length]
  exact (if_pos ⟨length, List.all_eq_true.2 (isDigit_padded width n)⟩).trans
    (by rw [ofDigitChars_padded])

theorem skip?_padded {c : Char} (noDigit : c.isDigit = false) {width n : Nat}
    (positive : 0 < width) (fits : n < Nat.pow 10 width) (rest : Text) :
    skip? c (padded width n ++ rest) = none := by
  have length := length_padded positive fits
  have digits := isDigit_padded width n
  cases numeral : padded width n with
  | nil =>
      rw [numeral] at length
      exact absurd positive (Nat.not_lt.2 (Nat.le_of_eq length.symm))
  | cons first others =>
      rw [numeral] at digits
      have digit := digits first List.mem_cons_self
      refine if_neg ?_
      rintro rfl
      exact Bool.false_ne_true (noDigit.symm.trans digit)

theorem ofDigitChars_lt {text : Text} (digits : ∀ c ∈ text, c.isDigit = true) :
    Nat.ofDigitChars 10 text 0 < Nat.pow 10 text.length := by
  induction text with
  | nil => exact Nat.one_pos
  | cons c rest ih =>
      obtain ⟨digit, later⟩ := List.forall_mem_cons.1 digits
      have below : c.toNat - '0'.toNat ≤ 9 := Nat.sub_le_sub_right (Char.isDigit_iff_toNat.1 digit).2 _
      have lower : Nat.ofDigitChars 10 rest 0 < Nat.pow 10 rest.length := ih later
      have power : Nat.pow 10 (rest.length + 1) = Nat.pow 10 rest.length * 10 := rfl
      have leading : Nat.pow 10 rest.length * (c.toNat - '0'.toNat) ≤ Nat.pow 10 rest.length * 9 :=
        Nat.mul_le_mul_left _ below
      rw [Nat.ofDigitChars_cons, Nat.mul_zero, Nat.zero_add, Nat.ofDigitChars_eq_ofDigitChars_zero,
        List.length_cons, power]
      exact Nat.lt_of_lt_of_le (Nat.add_lt_add_of_le_of_lt leading lower) (by omega)

/-- The first digits of a number, with zeros for the others, are the number rounded down. -/
theorem ofDigitChars_take {text : Text} (digits : ∀ c ∈ text, c.isDigit = true) (places : Nat) :
    Nat.ofDigitChars 10 (text.take places ++ List.replicate (text.length - places) '0') 0 =
      Nat.ofDigitChars 10 text 0 / Nat.pow 10 (text.length - places) *
        Nat.pow 10 (text.length - places) := by
  have dropped : Nat.ofDigitChars 10 (text.drop places) 0 < Nat.pow 10 (text.drop places).length :=
    ofDigitChars_lt fun c member => digits c (List.mem_of_mem_drop member)
  rw [List.length_drop] at dropped
  have whole : Nat.ofDigitChars 10 text 0 =
      Nat.pow 10 (text.length - places) * Nat.ofDigitChars 10 (text.take places) 0 +
        Nat.ofDigitChars 10 (text.drop places) 0 := by
    rw [← List.length_drop]
    refine Eq.trans ?_ Nat.ofDigitChars_eq_ofDigitChars_zero
    rw [← Nat.ofDigitChars_append, List.take_append_drop]
  have positive : 0 < Nat.pow 10 (text.length - places) := Nat.pow_pos (by decide)
  rw [whole, Nat.mul_add_div positive, Nat.div_eq_of_lt dropped, Nat.add_zero,
    Nat.ofDigitChars_append, Nat.ofDigitChars_replicate_zero, Nat.mul_comm]
  rfl

theorem fraction?_take {places n : Nat} (kept : 1 ≤ places ∧ places ≤ 9) (fits : n < 1000000000)
    {rest : Text} (stops : ∀ c, rest.head? = some c → c.isDigit = false) :
    fraction? ((padded 9 n).take places ++ rest) =
      some (n / Nat.pow 10 (9 - places) * Nat.pow 10 (9 - places), rest) := by
  have nine : (padded 9 n).length = 9 := length_padded (by decide) fits
  have digits := isDigit_padded 9 n
  have front : ∀ c ∈ (padded 9 n).take places, c.isDigit = true :=
    fun c member => digits c (List.mem_of_mem_take member)
  have length : ((padded 9 n).take places).length = places := by
    rw [List.length_take, nine]
    exact Nat.min_eq_left kept.2
  have behind : rest.takeWhile Char.isDigit = [] ∧ rest.dropWhile Char.isDigit = rest := by
    cases rest with
    | nil => exact ⟨rfl, rfl⟩
    | cons c _ =>
        have stop := stops c rfl
        simp [stop]
  have value := ofDigitChars_take digits places
  rw [nine, ofDigitChars_padded] at value
  rw [fraction?, List.takeWhile_append_of_pos front, List.dropWhile_append_of_pos front,
    behind.1, behind.2, List.append_nil]
  simp only [length]
  rw [if_pos kept, value]

end Text

namespace ClockTime

variable (t : ClockTime)

theorem fields_mem :
    t.hour < 24 ∧ t.minute < 60 ∧ t.second < 60 ∧ t.fraction < 1000000000 := by
  have size : t.nanos < 86400000000000 := t.nanos_lt
  unfold hour minute second fraction
  omega

theorem nanos_eq :
    t.nanos = ((t.hour * 60 + t.minute) * 60 + t.second) * 1000000000 + t.fraction := by
  unfold hour minute second fraction
  omega

theorem exists_make? {hour minute second fraction : Nat}
    (mem : hour < 24 ∧ minute < 60 ∧ second < 60 ∧ fraction < 1000000000) :
    ∃ read, make? hour minute second fraction = some read ∧
      read.nanos = ((hour * 60 + minute) * 60 + second) * 1000000000 + fraction :=
  ⟨_, dif_pos mem, rfl⟩

end ClockTime

namespace Timestamp

def year? (text : Text) : Option (Int × Text) :=
  match Text.skip? '-' text with
  | some digits => (Text.digits? 4 digits).map fun (year, rest) => (-year, rest)
  | none => (Text.digits? 4 text).map fun (year, rest) => (year, rest)

def date? (text : Text) : Option (Date × Text) := do
  let (year, text) ← year? text
  let text ← Text.skip? '-' text
  let (month, text) ← Text.digits? 2 text
  let text ← Text.skip? '-' text
  let (day, text) ← Text.digits? 2 text
  let date ← Date.make? year month day
  return (date, text)

def clock? (text : Text) : Option (ClockTime × Text) := do
  let (hour, text) ← Text.digits? 2 text
  let text ← Text.skip? ':' text
  let (minute, text) ← Text.digits? 2 text
  let text ← Text.skip? ':' text
  let (second, text) ← Text.digits? 2 text
  let text ← Text.skip? '.' text
  let (fraction, text) ← Text.fraction? text
  let clock ← ClockTime.make? hour minute second fraction
  return (clock, text)

/-- The local time behind the first quotation mark of a literal, and what follows it. -/
def civil? (literal : Text) : Option (LocalTime × Text) := do
  let text ← Text.skip? '\'' (literal.dropWhile fun c => decide (c ≠ '\''))
  let (date, text) ← date? text
  let text ← Text.skip? ' ' text
  let (clock, text) ← clock? text
  return (⟨date, clock⟩, text)

theorem year?_year {y : Int} (mem : -9999 ≤ y ∧ y ≤ 9999) (rest : Text) :
    year? (year y ++ rest) = some (y, rest) := by
  have fits : y.natAbs < 10000 := by omega
  have four : 0 < 4 := by decide
  have digits := Text.digits?_padded four fits rest
  by_cases negative : y < 0
  · have same : -(y.natAbs : Int) = y := by omega
    rw [year?, year, if_pos negative, List.cons_append, Text.skip?_cons]
    dsimp only
    rw [digits, Option.map_some, same]
  · have same : (y.natAbs : Int) = y := by omega
    have noSign : Text.skip? '-' (Text.padded 4 y.natAbs ++ rest) = none :=
      Text.skip?_padded (by decide) four fits rest
    rw [year?, year, if_neg negative, noSign]
    dsimp only
    rw [digits, Option.map_some, same]

theorem date?_date (d : Date) (rest : Text) : date? (date d ++ rest) = some (d, rest) := by
  have most := (Calendar.daysInMonth_mem d.year d.month).2
  have month : d.month < 100 := Nat.lt_of_le_of_lt d.month_mem.2 (by decide)
  have day : d.day < 100 := Nat.lt_of_le_of_lt (Nat.le_trans d.day_mem.2 most) (by decide)
  have two : 0 < 2 := by decide
  have same : Date.make? d.year d.month d.day = some d := Date.make?_eq_some_iff.2 ⟨rfl, rfl, rfl⟩
  simp only [date?, date, List.append_assoc, List.cons_append, Option.bind_eq_bind,
    Option.bind_some, year?_year d.year_mem, Text.skip?_cons, Text.digits?_padded two month,
    Text.digits?_padded two day, same]
  rfl

theorem clock?_clock (t : ClockTime) {places : Nat} (kept : 1 ≤ places ∧ places ≤ 9) {rest : Text}
    (stops : ∀ c, rest.head? = some c → c.isDigit = false) :
    ∃ read : ClockTime, clock? (clock places t ++ rest) = some (read, rest) ∧
      read.nanos = t.nanos / Nat.pow 10 (9 - places) * Nat.pow 10 (9 - places) := by
  obtain ⟨hour, minute, second, fraction⟩ := t.fields_mem
  have two : 0 < 2 := by decide
  have hours : t.hour < Nat.pow 10 2 := Nat.lt_trans hour (by decide)
  have minutes : t.minute < Nat.pow 10 2 := Nat.lt_trans minute (by decide)
  have seconds : t.second < Nat.pow 10 2 := Nat.lt_trans second (by decide)
  have cut := Nat.lt_of_le_of_lt (Nat.div_mul_le_self t.fraction (Nat.pow 10 (9 - places))) fraction
  obtain ⟨read, made, value⟩ := ClockTime.exists_make? ⟨hour, minute, second, cut⟩
  refine ⟨read, ?_, ?_⟩
  · simp only [clock?, clock, List.append_assoc, List.cons_append, Option.bind_eq_bind,
      Option.bind_some, Text.skip?_cons, Text.digits?_padded two hours,
      Text.digits?_padded two minutes, Text.digits?_padded two seconds,
      Text.fraction?_take kept fraction stops, made]
    rfl
  · -- A full second is a whole number of the steps that are kept.
    have positive : 0 < Nat.pow 10 (9 - places) := Nat.pow_pos (by decide)
    have steps : 1000000000 = Nat.pow 10 (9 - places) * Nat.pow 10 places := by
      refine Eq.trans ?_ (Nat.pow_add 10 (9 - places) places)
      rw [Nat.sub_add_cancel kept.2]
    have whole (seconds : Nat) :
        (seconds * 1000000000 + t.fraction) / Nat.pow 10 (9 - places) * Nat.pow 10 (9 - places) =
          seconds * 1000000000 + t.fraction / Nat.pow 10 (9 - places) * Nat.pow 10 (9 - places) := by
      rw [steps, Nat.mul_left_comm, Nat.mul_add_div positive, Nat.add_mul, Nat.mul_comm (Nat.pow 10 _)]
    rw [value, t.nanos_eq, whole]

theorem head?_zone (m : Moment) (form : ZoneForm) (rest : Text) :
    ∀ c, (zone m form ++ '\'' :: rest).head? = some c → c.isDigit = false := by
  cases form with
  | absent =>
      rintro c same
      cases same
      rfl
  | offset | abbreviation =>
      rintro c same
      cases same
      rfl
  | compactOffset =>
      have sign : (offset [] m.offset).head? =
          some (if m.offset.seconds < 0 then '-' else '+') := rfl
      rintro c same
      rw [zone, List.head?_append, sign] at same
      cases same
      split <;> rfl

end Timestamp

namespace LocalTime

/-- The local time, rounded to the microsecond with halves rounded up. -/
def rounded (t : LocalTime) : Int :=
  (t.nanos + 500) / 1000 * 1000

end LocalTime

namespace Engine

variable (engine : Engine)

/-- The nanoseconds of the smallest step of time that an engine writes. -/
def resolution : Engine → Int
  | .sqlite | .presto => 1000000
  | _ => 1000

/-- The digits of a fraction that an engine keeps make up its steps of time. -/
theorem places_resolution :
    engine.timestampForm.places = 6 ∧ engine.resolution = 1000 ∨
      engine.timestampForm.places = 3 ∧ engine.resolution = 1000000 := by
  cases engine <;> decide

theorem civil?_opening (text : Text) :
    Timestamp.civil? (engine.timestampForm.opening ++ text) = Timestamp.civil? ('\'' :: text) := by
  cases engine <;> rfl

theorem exists_closing : ∃ rest, engine.timestampForm.closing = '\'' :: rest := by
  cases engine <;> exact ⟨_, rfl⟩

/-- The literal of a moment that shows a local time. -/
def stamp (value : Moment) (time : LocalTime) : Text :=
  engine.timestampForm.opening ++ Timestamp.date time.date ++
    ' ' :: Timestamp.clock engine.timestampForm.places time.clock ++
    Timestamp.zone value engine.timestampForm.zone ++ engine.timestampForm.closing

theorem literal_moment {value : Moment} (set : value.isUnset = false) :
    engine.literal (.moment value) =
      match value.time.halfMicrosecondLater? with
      | some later => .ok (engine.stamp value later)
      | none => .error .calendarExceeded := by
  have written : Timestamp.write? engine.timestampForm value =
    value.time.halfMicrosecondLater?.map (engine.stamp value) := if_neg (ne_true_of_eq_false set)
  rw [literal, written]
  cases value.time.halfMicrosecondLater? <;> rfl

theorem exists_civil?_stamp (value : Moment) (time : LocalTime) :
    ∃ civil, Timestamp.civil? (engine.stamp value time) =
        some (civil, Timestamp.zone value engine.timestampForm.zone ++
          engine.timestampForm.closing) ∧
      civil.nanos = time.nanos / engine.resolution * engine.resolution := by
  obtain ⟨closing, closes⟩ := engine.exists_closing
  have kept : 1 ≤ engine.timestampForm.places ∧ engine.timestampForm.places ≤ 9 := by
    rcases engine.places_resolution with ⟨six, -⟩ | ⟨three, -⟩ <;> omega
  obtain ⟨clock, read, nanos⟩ := Timestamp.clock?_clock time.clock kept
    (Timestamp.head?_zone value engine.timestampForm.zone closing)
  rw [← closes] at read
  refine ⟨⟨time.date, clock⟩, ?_, ?_⟩
  · have opened (text : Text) :
      ('\'' :: text).dropWhile (fun c => decide (c ≠ '\'')) = '\'' :: text := rfl
    rw [stamp]
    simp only [List.append_assoc, List.cons_append, civil?_opening]
    simp only [Timestamp.civil?, opened, Option.bind_eq_bind, Option.bind_some, Text.skip?_cons,
      Timestamp.date?_date, read]
    rfl
  · -- A day is a whole number of the steps, so that cutting the time of day cuts the whole.
    have size : (nanosPerDay : Int) = 86400000000000 := rfl
    rw [LocalTime.nanos, LocalTime.nanos, nanos, size]
    rcases engine.places_resolution with ⟨six, micro⟩ | ⟨three, milli⟩
    · rw [six, micro]
      change time.date.dayNumber * _ + ((time.clock.nanos / 1000 * 1000 : Nat) : Int) = _
      omega
    · rw [three, milli]
      change time.date.dayNumber * _ + ((time.clock.nanos / 1000000 * 1000000 : Nat) : Int) = _
      omega

/-- What is written of a moment is its rounded local time and its zone. -/
theorem exists_civil? {value : Moment} (set : value.isUnset = false) {text : Text}
    (written : engine.literal (.moment value) = .ok text) :
    ∃ civil, Timestamp.civil? text =
        some (civil, Timestamp.zone value engine.timestampForm.zone ++
          engine.timestampForm.closing) ∧
      civil.nanos = value.time.rounded / engine.resolution * engine.resolution := by
  rw [literal_moment engine set] at written
  cases shown : value.time.halfMicrosecondLater? with
  | none =>
      rw [shown] at written
      cases written
  | some later =>
      rw [shown] at written
      cases written
      obtain ⟨civil, read, nanos⟩ := engine.exists_civil?_stamp value later
      refine ⟨civil, read, ?_⟩
      rw [nanos, LocalTime.nanos_halfMicrosecondLater? shown, LocalTime.rounded]
      rcases engine.places_resolution with ⟨-, micro⟩ | ⟨-, milli⟩
      · rw [micro]
        omega
      · rw [milli]
        omega

/--
A moment that is set has a literal unless half a microsecond later the calendar
is over.  The local time in the literal is a time of the calendar: the local time
of the moment, rounded to the microsecond, and cut off to the milliseconds where
the engine keeps no more.
-/
theorem moment_rounded {value : Moment} (set : value.isUnset = false) :
    (LocalTime.limit ≤ value.time.nanos + 500 →
        engine.literal (.moment value) = .error .calendarExceeded) ∧
      (value.time.nanos + 500 < LocalTime.limit →
        ∃ text civil rest, engine.literal (.moment value) = .ok text ∧
          Timestamp.civil? text = some (civil, rest) ∧
          civil.nanos = value.time.rounded / engine.resolution * engine.resolution) := by
  constructor
  · intro ended
    rw [literal_moment engine set, LocalTime.halfMicrosecondLater?_eq_none_iff.2 ended]
  · intro early
    have shown : ∃ later, value.time.halfMicrosecondLater? = some later := by
      rw [← Option.ne_none_iff_exists', ne_eq, LocalTime.halfMicrosecondLater?_eq_none_iff]
      exact Int.not_le.2 early
    obtain ⟨later, shown⟩ := shown
    have written : engine.literal (.moment value) = .ok (engine.stamp value later) := by
      rw [literal_moment engine set, shown]
    obtain ⟨civil, read, nanos⟩ := engine.exists_civil? set written
    exact ⟨_, civil, _, written, read, nanos⟩

/-- Half a microsecond before the year zero, half an hour behind universal time. -/
def turnOfYear : Moment where
  time :=
    ⟨{ Date.last with year := -1, year_mem := by decide, day_mem := by decide },
      ⟨86399999999500, by decide⟩⟩
  offset := ⟨-1800, by decide⟩
  zone := none

/-- Rounding carries through every field and the sign of the year, up to the start of the year. -/
theorem moment_rounded_turnOfYear :
    turnOfYear.isUnset = false ∧
      ∃ text civil rest, postgreSQL.literal (.moment turnOfYear) = .ok text ∧
        Timestamp.civil? text = some (civil, rest) ∧ civil.nanos = -719528 * nanosPerDay := by
  have set : turnOfYear.isUnset = false := by decide +kernel
  have start : turnOfYear.time.rounded / postgreSQL.resolution * postgreSQL.resolution =
    -719528 * nanosPerDay := by decide +kernel
  refine ⟨set, ?_⟩
  rw [← start]
  exact (moment_rounded postgreSQL set).2 (by decide +kernel)

end Engine

end SqlTemplate
