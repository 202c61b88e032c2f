import Mathlib.Logic.Function.Defs
import SqlTemplate.Calendar.Moment

/-!
# Counting days and nanoseconds

Day numbers count the dates: the date that follows another has the next number,
across the ends of months and years and the sign of the year.  The last date is
the one that nothing follows, and no date has a greater number.  So the local
time half a microsecond later is later by just that, and it is missing only
where the calendar ends.
-/

namespace SqlTemplate

namespace Calendar

variable (year : Int)

/-- The next year starts when the twelve months of a year are over. -/
theorem leapsBefore_succ :
    365 * (year + 1) + leapsBefore (year + 1) =
      365 * year + leapsBefore year + daysInMonths year 12 := by
  simp only [leapsBefore, daysInMonths, daysInMonth, isLeap, Bool.and_eq_true, Bool.or_eq_true,
    decide_eq_true_eq]
  split <;> omega

theorem leapsBefore_mono {first second : Int} (le : first ≤ second) :
    leapsBefore first ≤ leapsBefore second := by
  unfold leapsBefore
  omega

theorem daysInMonth_mem (month : Nat) :
    1 ≤ daysInMonth year month ∧ daysInMonth year month ≤ 31 := by
  unfold daysInMonth
  repeat' split
  all_goals decide

theorem daysInMonths_mono {first second : Nat} (le : first ≤ second) :
    daysInMonths year first ≤ daysInMonths year second := by
  induction le with
  | refl => exact Nat.le_refl _
  | step _ ih => exact Nat.le_trans ih (Nat.le_add_right _ _)

end Calendar

namespace Date

open Calendar

variable {d e : Date}

theorem make?_eq_some_iff {year : Int} {month day : Nat} :
    make? year month day = some e ↔ e.year = year ∧ e.month = month ∧ e.day = day := by
  unfold make?
  split
  · cases e
    simp [eq_comm]
  · next missing =>
      refine ⟨nofun, ?_⟩
      rintro ⟨rfl, rfl, rfl⟩
      exact absurd ⟨e.year_mem, e.month_mem, e.day_mem⟩ missing

theorem make?_eq_none_iff {year : Int} {month day : Nat} :
    make? year month day = none ↔ ¬ ((-9999 ≤ year ∧ year ≤ 9999) ∧ (1 ≤ month ∧ month ≤ 12) ∧
      1 ≤ day ∧ day ≤ daysInMonth year month) := by
  unfold make?
  split <;> simp_all

def last : Date := ⟨9999, 12, 31, by decide, by decide, by decide⟩

theorem day_eq_of_make?_eq_none (ended : make? d.year d.month (d.day + 1) = none) :
    d.day = daysInMonth d.year d.month := by
  have day := d.day_mem
  refine Decidable.byContradiction fun short => ?_
  refine make?_eq_none_iff.1 ended ⟨d.year_mem, d.month_mem, ?_⟩
  omega

theorem month_eq_of_make?_eq_none (ended : make? d.year (d.month + 1) 1 = none) : d.month = 12 := by
  have month := d.month_mem
  have day := (daysInMonth_mem d.year (d.month + 1)).1
  refine Decidable.byContradiction fun short => ?_
  refine make?_eq_none_iff.1 ended ⟨d.year_mem, ?_, Nat.le_refl 1, day⟩
  omega

/-- What follows a date is in the same month, or starts the next month or the next year. -/
theorem next?_cases (following : d.next? = some e) :
    (e.year = d.year ∧ e.month = d.month ∧ e.day = d.day + 1) ∨
      d.day = daysInMonth d.year d.month ∧
        ((e.year = d.year ∧ e.month = d.month + 1 ∧ e.day = 1) ∨
          d.month = 12 ∧ e.year = d.year + 1 ∧ e.month = 1 ∧ e.day = 1) := by
  unfold next? at following
  rw [Option.or_eq_some_iff] at following
  rcases following with sameMonth | ⟨monthOver, following⟩
  · exact .inl (make?_eq_some_iff.1 sameMonth)
  rw [Option.or_eq_some_iff] at following
  refine .inr ⟨day_eq_of_make?_eq_none monthOver, ?_⟩
  rcases following with sameYear | ⟨yearOver, nextYear⟩
  · exact .inl (make?_eq_some_iff.1 sameYear)
  · exact .inr ⟨month_eq_of_make?_eq_none yearOver, make?_eq_some_iff.1 nextYear⟩

/-- The date that follows has the next day number. -/
theorem dayNumber_next? (following : d.next? = some e) : e.dayNumber = d.dayNumber + 1 := by
  obtain ⟨month, months⟩ := Nat.exists_eq_add_of_le' d.month_mem.1
  unfold dayNumber
  rcases next?_cases following with
    ⟨year, sameMonth, day⟩ | ⟨full, ⟨year, nextMonth, day⟩ | ⟨twelve, year, nextMonth, day⟩⟩
  · rw [year, sameMonth, day]
    omega
  · rw [months] at full
    rw [year, nextMonth, day, full, months, Nat.add_sub_cancel, Nat.add_sub_cancel, daysInMonths]
    omega
  · have whole := leapsBefore_succ d.year
    have december : daysInMonths d.year 12 =
      daysInMonths d.year (12 - 1) + daysInMonth d.year 12 := rfl
    have january : daysInMonths (d.year + 1) (1 - 1) = 0 := rfl
    rw [twelve] at full
    rw [year, nextMonth, day, full, twelve, january]
    omega

theorem next?_eq_none_iff : d.next? = none ↔ d = last := by
  constructor
  · intro ended
    unfold next? at ended
    rw [Option.or_eq_none_iff, Option.or_eq_none_iff] at ended
    obtain ⟨monthOver, yearOver, calendarOver⟩ := ended
    have twelve := month_eq_of_make?_eq_none yearOver
    have full := day_eq_of_make?_eq_none monthOver
    have year : d.year = 9999 := by
      have year := d.year_mem
      have day := (daysInMonth_mem (d.year + 1) 1).1
      refine Decidable.byContradiction fun early => ?_
      refine make?_eq_none_iff.1 calendarOver ⟨?_, by decide, Nat.le_refl 1, day⟩
      omega
    rw [twelve] at full
    cases d
    cases year
    cases twelve
    cases full
    rfl
  · rintro rfl
    decide

theorem daysInMonths_month (d : Date) :
    daysInMonths d.year d.month =
      daysInMonths d.year (d.month - 1) + daysInMonth d.year d.month := by
  obtain ⟨months, same⟩ := Nat.exists_eq_add_of_le' d.month_mem.1
  rw [same]
  rfl

theorem dayNumber_mem_year (d : Date) :
    365 * d.year + leapsBefore d.year < d.dayNumber + 719529 ∧
      d.dayNumber + 719529 ≤ 365 * (d.year + 1) + leapsBefore (d.year + 1) := by
  have day := d.day_mem
  have inYear := daysInMonths_mono d.year d.month_mem.2
  have inMonth := d.daysInMonths_month
  have whole := leapsBefore_succ d.year
  unfold dayNumber
  omega

theorem dayNumber_le_last (d : Date) : d.dayNumber ≤ last.dayNumber := by
  have year := d.year_mem
  have inYear := d.dayNumber_mem_year
  have mono := leapsBefore_mono (show d.year + 1 ≤ 10000 by omega)
  have most : leapsBefore 10000 = 2425 := by decide
  have number : last.dayNumber = 2932896 := by decide
  rw [number]
  omega

theorem dayNumber_lt_of_year_lt (earlier : d.year < e.year) : d.dayNumber < e.dayNumber := by
  have mono := leapsBefore_mono (show d.year + 1 ≤ e.year by omega)
  have upper := d.dayNumber_mem_year.2
  have lower := e.dayNumber_mem_year.1
  omega

theorem dayNumber_lt_of_month_lt (year : d.year = e.year) (earlier : d.month < e.month) :
    d.dayNumber < e.dayNumber := by
  have inMonth := d.daysInMonths_month
  have before := daysInMonths_mono d.year (show d.month ≤ e.month - 1 by omega)
  have first := d.day_mem
  have second := e.day_mem
  unfold dayNumber
  rw [← year]
  omega

theorem dayNumber_injective : Function.Injective dayNumber := by
  intro d e same
  have year : d.year = e.year := by
    rcases Int.lt_trichotomy d.year e.year with earlier | year | later
    · exact absurd same (Int.ne_of_lt (dayNumber_lt_of_year_lt earlier))
    · exact year
    · exact absurd same.symm (Int.ne_of_lt (dayNumber_lt_of_year_lt later))
  have month : d.month = e.month := by
    rcases Nat.lt_trichotomy d.month e.month with earlier | month | later
    · exact absurd same (Int.ne_of_lt (dayNumber_lt_of_month_lt year earlier))
    · exact month
    · exact absurd same.symm (Int.ne_of_lt (dayNumber_lt_of_month_lt year.symm later))
  have day : d.day = e.day := by
    simp only [dayNumber, year, month] at same
    omega
  cases d
  cases e
  cases year
  cases month
  cases day
  rfl

end Date

namespace LocalTime

variable {t u : LocalTime}

/-- The first nanosecond that no local time of the calendar has. -/
def limit : Int := (Date.last.dayNumber + 1) * nanosPerDay

theorem nanos_injective : Function.Injective nanos := by
  intro t u same
  have size : nanosPerDay = 86400000000000 := rfl
  have first := t.clock.nanos_lt
  have second := u.clock.nanos_lt
  rw [nanos, nanos, size] at same
  rw [size] at first second
  have days : t.date.dayNumber = u.date.dayNumber := by omega
  have clock : t.clock.nanos = u.clock.nanos := by omega
  obtain ⟨date, ⟨count, bound⟩⟩ := t
  obtain ⟨other, ⟨twin, less⟩⟩ := u
  cases Date.dayNumber_injective days
  cases clock
  rfl

theorem nanos_halfMicrosecondLater? (later : t.halfMicrosecondLater? = some u) :
    u.nanos = t.nanos + 500 := by
  unfold halfMicrosecondLater? at later
  split at later
  · cases later
    simp only [nanos]
    omega
  · obtain ⟨date, following, rfl⟩ := Option.map_eq_some_iff.1 later
    simp only [nanos, Date.dayNumber_next? following, Int.add_mul]
    omega

/-- Half a microsecond later there is no local time just when the calendar ends before. -/
theorem halfMicrosecondLater?_eq_none_iff :
    t.halfMicrosecondLater? = none ↔ limit ≤ t.nanos + 500 := by
  have size : nanosPerDay = 86400000000000 := rfl
  have clock := t.clock.nanos_lt
  rw [halfMicrosecondLater?, limit, nanos]
  split
  · have most := Date.dayNumber_le_last t.date
    refine iff_of_false nofun ?_
    rw [size]
    omega
  · rw [Option.map_eq_none_iff]
    constructor
    · intro ended
      rw [Date.next?_eq_none_iff.1 ended, size]
      omega
    · intro ended
      cases following : t.date.next? with
      | none => rfl
      | some date =>
          have most := Date.dayNumber_le_last date
          rw [Date.dayNumber_next? following] at most
          rw [size] at ended
          omega

end LocalTime

end SqlTemplate
