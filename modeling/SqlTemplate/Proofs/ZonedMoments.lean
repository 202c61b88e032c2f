import Mathlib.Data.List.Basic
import SqlTemplate.Proofs.CivilTimes

/-!
# Reading instants back

Three engines write the offset of a moment behind its local time.  The local
time minus the written offset is the instant of the moment, but for rounding and
for the seconds of the offset, which are not written.  So an instant is read back
to half a microsecond just when the offset is a whole number of minutes.
-/

namespace SqlTemplate

namespace Timestamp

def sign? : Text → Option (Bool × Text)
  | '+' :: rest => some (false, rest)
  | '-' :: rest => some (true, rest)
  | _ => none

/-- The seconds of an offset of hours and minutes, with or without a colon, and what follows it. -/
def offset? (text : Text) : Option (Int × Text) := do
  let (negative, text) ← sign? text
  let (hours, text) ← Text.digits? 2 text
  let (minutes, text) ← Text.digits? 2 ((Text.skip? ':' text).getD text)
  let seconds : Int := (hours * 60 + minutes) * 60
  return (if negative then -seconds else seconds, text)

/-- The instant that a literal says, its local time minus its offset, if it says nothing else. -/
def instant? (literal : Text) : Option Int := do
  let (civil, text) ← civil? literal
  let (seconds, text) ← offset? ((Text.skip? ' ' text).getD text)
  if text = ['\''] then some (civil.nanos - seconds * 1000000000) else none

end Timestamp

/-- The seconds of an offset beyond its whole minutes, with the sign of the offset. -/
def ZoneOffset.oddSeconds (o : ZoneOffset) : Int :=
  if o.seconds < 0 then -(o.seconds.natAbs % 60 : Nat) else (o.seconds.natAbs % 60 : Nat)

theorem ZoneOffset.oddSeconds_eq_zero_iff (o : ZoneOffset) :
    o.oddSeconds = 0 ↔ 60 ∣ o.seconds := by
  unfold oddSeconds
  split <;> omega

namespace Timestamp

theorem getD_skip?_colon {separator : Text} (optional : separator = [] ∨ separator = [':'])
    {n : Nat} (fits : n < 100) (rest : Text) :
    (Text.skip? ':' (separator ++ (Text.padded 2 n ++ rest))).getD
      (separator ++ (Text.padded 2 n ++ rest)) = Text.padded 2 n ++ rest := by
  rcases optional with rfl | rfl
  · have two : 0 < 2 := by decide
    rw [List.nil_append, Text.skip?_padded (by decide) two fits]
    rfl
  · rfl

theorem offset?_offset (o : ZoneOffset) {separator : Text}
    (optional : separator = [] ∨ separator = [':']) (rest : Text) :
    offset? (offset separator o ++ rest) = some (o.seconds - o.oddSeconds, rest) := by
  have size := o.seconds_mem
  have two : 0 < 2 := by decide
  have hours : o.seconds.natAbs / 60 / 60 < 100 := by omega
  have minutes : o.seconds.natAbs / 60 % 60 < 100 := by omega
  have signed (text : Text) : sign? ((if o.seconds < 0 then '-' else '+') :: text) =
      some (decide (o.seconds < 0), text) := by
    by_cases negative : o.seconds < 0
    · rw [if_pos negative, decide_eq_true negative]
      rfl
    · rw [if_neg negative, decide_eq_false negative]
      rfl
  simp only [offset?, offset, List.cons_append, List.append_assoc, signed, Option.bind_eq_bind,
    Option.bind_some, Text.digits?_padded two hours, getD_skip?_colon optional minutes,
    Text.digits?_padded two minutes, decide_eq_true_eq]
  refine congrArg (fun seconds => some (seconds, rest)) ?_
  unfold ZoneOffset.oddSeconds
  split <;> omega

end Timestamp

namespace LocalTime

/-- Rounding moves a local time by half a microsecond at most. -/
theorem natAbs_rounded_sub_le (t : LocalTime) : (t.rounded - t.nanos).natAbs ≤ 500 := by
  unfold rounded
  omega

end LocalTime

namespace Engine

def writesOffsets : Engine → Bool
  | .postgreSQL | .sqlServer | .cql => true
  | _ => false

theorem exists_offset {engine : Engine} (zoned : engine.writesOffsets = true) {value : Moment}
    (unnamed : value.zone = none) :
    ∃ lead separator, (lead = [] ∨ lead = [' ']) ∧ (separator = [] ∨ separator = [':']) ∧
      Timestamp.zone value engine.timestampForm.zone ++ engine.timestampForm.closing =
        lead ++ (Timestamp.offset separator value.offset ++ ['\'']) := by
  cases engine with
  | postgreSQL =>
      refine ⟨[' '], [':'], .inr rfl, .inr rfl, ?_⟩
      change ' ' :: value.zone.getD _ ++ _ = _
      rw [unnamed]
      rfl
  | sqlServer => exact ⟨[' '], [':'], .inr rfl, .inr rfl, rfl⟩
  | cql => exact ⟨[], [], .inl rfl, .inl rfl, rfl⟩
  | _ => cases zoned

/-- A literal with an offset is read back as the local time minus the whole minutes. -/
theorem instant?_literal {engine : Engine} (zoned : engine.writesOffsets = true) {value : Moment}
    (unnamed : value.zone = none) (set : value.instant ≠ 0) {text : Text}
    (written : engine.literal (.moment value) = .ok text) :
    Timestamp.instant? text = some (value.time.rounded -
      (value.offset.seconds - value.offset.oddSeconds) * 1000000000) := by
  have isSet : value.isUnset = false := by
    rw [Moment.isUnset, beq_false_of_ne set, Bool.false_and]
  have micro : engine.resolution = 1000 := by
    cases engine <;> first | rfl | cases zoned
  obtain ⟨civil, read, nanos⟩ := engine.exists_civil? isSet written
  obtain ⟨lead, separator, blank, optional, zone⟩ := exists_offset zoned unnamed
  have behind : (Text.skip? ' ' (lead ++ (Timestamp.offset separator value.offset ++ ['\'']))).getD
      (lead ++ (Timestamp.offset separator value.offset ++ ['\''])) =
        Timestamp.offset separator value.offset ++ ['\''] := by
    rcases blank with rfl | rfl
    · have sign : (if value.offset.seconds < 0 then '-' else '+') ≠ ' ' := by split <;> decide
      exact congrArg (Option.getD · _) (if_neg sign)
    · rfl
  rw [zone] at read
  simp only [Timestamp.instant?, read, Option.bind_eq_bind, Option.bind_some, behind,
    Timestamp.offset?_offset value.offset optional, reduceIte]
  rw [nanos, micro, LocalTime.rounded, Int.mul_ediv_cancel _ (by decide)]

/--
Where an engine writes the offset of a moment, its literal says the instant of
the moment to half a microsecond, but for the odd seconds of the offset, which are
not written.  So it says the instant just when the offset has no odd seconds.
-/
theorem instant_of_literal {engine : Engine}
    (zoned : engine = .postgreSQL ∨ engine = .sqlServer ∨ engine = .cql) {value : Moment}
    (unnamed : value.zone = none) (set : value.instant ≠ 0) {text : Text}
    (written : engine.literal (.moment value) = .ok text) :
    ∃ instant, Timestamp.instant? text = some instant ∧
      (instant - (value.instant + value.offset.oddSeconds * 1000000000)).natAbs ≤ 500 ∧
      ((instant - value.instant).natAbs ≤ 500 ↔ 60 ∣ value.offset.seconds) := by
  have writes : engine.writesOffsets = true := by
    rcases zoned with rfl | rfl | rfl <;> rfl
  have near := value.time.natAbs_rounded_sub_le
  refine ⟨_, instant?_literal writes unnamed set written, ?_, ?_⟩
  · unfold Moment.instant
    omega
  · rw [← ZoneOffset.oddSeconds_eq_zero_iff]
    unfold Moment.instant
    omega

/-- A rounded moment behind universal time, by less than an hour. -/
theorem instant_of_literal_turnOfYear :
    turnOfYear.zone = none ∧ turnOfYear.instant ≠ 0 ∧
      cql.literal (.moment turnOfYear) = .ok "'0000-01-01 00:00:00.000000-0030'".toList ∧
      ∃ instant, Timestamp.instant? "'0000-01-01 00:00:00.000000-0030'".toList = some instant ∧
        (instant - (turnOfYear.instant + turnOfYear.offset.oddSeconds * 1000000000)).natAbs ≤ 500 ∧
        ((instant - turnOfYear.instant).natAbs ≤ 500 ↔ 60 ∣ turnOfYear.offset.seconds) := by
  have set : turnOfYear.instant ≠ 0 := by decide +kernel
  have written : cql.literal (.moment turnOfYear) =
    .ok "'0000-01-01 00:00:00.000000-0030'".toList := by decide +kernel
  exact ⟨rfl, set, written, instant_of_literal (.inr (.inr rfl)) rfl set written⟩

/-- Noon on a day when clocks in Amsterdam were ahead by nineteen minutes and thirty-two seconds. -/
def amsterdamNoon : Moment where
  time := ⟨⟨1916, 4, 30, by decide, by decide, by decide⟩, ⟨43200000000000, by decide⟩⟩
  offset := ⟨1172, by decide⟩
  zone := none

/-- The literal leaves out the thirty-two seconds, and says another instant. -/
theorem amsterdamNoon_misread :
    amsterdamNoon.zone = none ∧ amsterdamNoon.instant ≠ 0 ∧
      postgreSQL.literal (.moment amsterdamNoon) =
        .ok "'1916-04-30 12:00:00.000000 +00:19'".toList ∧
      ∃ instant, Timestamp.instant? "'1916-04-30 12:00:00.000000 +00:19'".toList = some instant ∧
        ¬ (instant - amsterdamNoon.instant).natAbs ≤ 500 := by
  have set : amsterdamNoon.instant ≠ 0 := by decide +kernel
  have written : postgreSQL.literal (.moment amsterdamNoon) =
    .ok "'1916-04-30 12:00:00.000000 +00:19'".toList := by decide +kernel
  exact ⟨rfl, set, written, _, instant?_literal rfl rfl set written, by decide +kernel⟩

end Engine

end SqlTemplate
