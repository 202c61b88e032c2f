import SqlTemplate.Engine.Literal
import SqlTemplate.Proofs.Unquoted

/-!
# The text of literals

Numbers, dates and hexadecimal digits are bare text.  The body of a string is
encoded so that it is read to its end inside the quotes around it, whatever the
string contains.  For engines without prefixed strings every literal therefore
closes all that it opens, wherever it is put outside quotes.
-/

namespace SqlTemplate

def Text.Signless (text : Text) : Prop :=
  ∀ c ∈ text, c ≠ '?' ∧ c ≠ '\\'

instance (text : Text) : Decidable text.Signless :=
  List.decidableBAll _ text

namespace Text

theorem bare_of_isDigit {text : Text} (digits : ∀ c ∈ text, c.isDigit = true) : text.Bare := by
  intro c member
  have digit := digits c member
  refine ⟨QuoteMark.ofChar?_eq_none_of_isNameChar ?_, ?_, ?_⟩
  · simp [isNameChar, Char.isAlphanum, digit]
  · rintro rfl
    exact absurd digit (by decide)
  · rintro rfl
    exact absurd digit (by decide)

theorem Bare.append {first second : Text} (front : first.Bare) (back : second.Bare) :
    Bare (first ++ second) :=
  List.forall_mem_append.2 ⟨front, back⟩

theorem Bare.cons {c : Char} {rest : Text} (first : Bare [c]) (back : rest.Bare) :
    Bare (c :: rest) :=
  Bare.append first back

theorem Bare.of_subset {first second : Text} (bare : second.Bare) (subset : first ⊆ second) :
    first.Bare :=
  fun c member => bare c (subset member)

theorem Bare.signless {text : Text} (bare : text.Bare) : text.Signless :=
  fun c member => (bare c member).2

theorem Signless.append {first second : Text} (front : first.Signless) (back : second.Signless) :
    Signless (first ++ second) :=
  List.forall_mem_append.2 ⟨front, back⟩

theorem isDigit_natural (n : Nat) : ∀ c ∈ natural n, c.isDigit = true :=
  fun _ member => Nat.isDigit_of_mem_toDigits (by decide) (by decide) member

theorem isDigit_replicate_zero (n : Nat) : ∀ c ∈ List.replicate n '0', c.isDigit = true := by
  intro c member
  rw [List.eq_of_mem_replicate member]
  rfl

theorem isDigit_padded (width n : Nat) : ∀ c ∈ padded width n, c.isDigit = true :=
  List.forall_mem_append.2 ⟨isDigit_replicate_zero _, isDigit_natural n⟩

theorem bare_padded (width n : Nat) : (padded width n).Bare :=
  bare_of_isDigit (isDigit_padded width n)

theorem bare_hex (bytes : List UInt8) : (hex bytes).Bare := by
  have digit : ∀ n < 16, Bare [hexDigit n] := by decide
  induction bytes with
  | nil => exact fun c member => absurd member List.not_mem_nil
  | cons byte rest ih =>
      have size := byte.toNat_lt
      rw [hex_cons]
      exact .append (.cons (digit _ (by omega)) (digit _ (by omega))) ih

structure IsNumeral (text : Text) : Prop where
  chars : ∀ c ∈ text, c.isDigit = true ∨ c = '.'
  last : ∃ front c, text = front ++ [c] ∧ c.isDigit = true

namespace IsNumeral

variable {front back text : Text}

theorem append (chars : ∀ c ∈ front, c.isDigit = true ∨ c = '.') (numeral : back.IsNumeral) :
    IsNumeral (front ++ back) where
  chars := List.forall_mem_append.2 ⟨chars, numeral.chars⟩
  last := by
    obtain ⟨others, c, rfl, digit⟩ := numeral.last
    exact ⟨front ++ others, c, (List.append_assoc _ _ _).symm, digit⟩

theorem of_digits (digits : ∀ c ∈ text, c.isDigit = true) (nonempty : text ≠ []) :
    text.IsNumeral where
  chars c member := .inl (digits c member)
  last := ⟨_, _, (List.dropLast_concat_getLast nonempty).symm, digits _ (List.getLast_mem nonempty)⟩

theorem bare (numeral : text.IsNumeral) : text.Bare := by
  intro c member
  rcases numeral.chars c member with digit | rfl
  · exact bare_of_isDigit (List.forall_mem_singleton.2 digit) c (List.mem_singleton_self c)
  · decide

theorem noDash (numeral : text.IsNumeral) : '-' ∉ text := by
  intro member
  rcases numeral.chars '-' member with digit | point
  · exact absurd digit (by decide)
  · exact absurd point (by decide)

theorem exists_cons (numeral : text.IsNumeral) : ∃ c rest, text = c :: rest ∧ c ≠ '-' := by
  cases text with
  | nil =>
      obtain ⟨front, c, impossible, -⟩ := numeral.last
      exact absurd impossible.symm (List.append_ne_nil_of_right_ne_nil _ (List.cons_ne_nil _ _))
  | cons c rest =>
      refine ⟨c, rest, rfl, ?_⟩
      rintro rfl
      exact numeral.noDash List.mem_cons_self

theorem run_eq_word (numeral : text.IsNumeral) (rule : StringRule) (before : Preceding) :
    QuoteState.run rule (.outside before) text = .outside .word := by
  have noMark : ∀ c ∈ text, QuoteMark.ofChar? c = none := fun c member => (numeral.bare c member).1
  obtain ⟨front, c, rfl, digit⟩ := numeral.last
  obtain ⟨inFront, atEnd⟩ := List.forall_mem_append.1 noMark
  have opened : (QuoteState.run rule (.outside before) front).isOutside = true :=
    QuoteState.isOutside_run_of_noMark inFront
  obtain ⟨behind, state⟩ := QuoteState.isOutside_eq_true_iff.1 opened
  have noLetter : ¬ ((c = 'E' ∨ c = 'e') ∧ behind = .boundary) := by
    rintro ⟨rfl | rfl, -⟩ <;> exact absurd digit (by decide)
  have name : isNameChar c = true := by simp [isNameChar, Char.isAlphanum, digit]
  rw [QuoteState.run_append, state, QuoteState.run_cons, QuoteState.run_nil,
    QuoteState.next_outside (atEnd c (List.mem_singleton_self c)), Preceding.step, if_neg noLetter,
    if_pos name]

end IsNumeral

theorem isNumeral_natural (n : Nat) : (natural n).IsNumeral :=
  .of_digits (isDigit_natural n) Nat.toDigits_ne_nil

end Text

theorem Decimal.isNumeral_plain (d : Decimal) : d.plain.IsNumeral := by
  have numeral := Text.isNumeral_natural d.digits
  have digits := Text.isDigit_natural d.digits
  unfold plain
  dsimp only
  split
  · next zeros _ =>
      refine .of_digits (List.forall_mem_append.2 ⟨digits, Text.isDigit_replicate_zero zeros⟩) ?_
      exact List.append_ne_nil_of_left_ne_nil Nat.toDigits_ne_nil _
  · next n _ =>
      split
      · next whole =>
          have behind : (Text.natural d.digits).drop ((Text.natural d.digits).length - (n + 1)) ≠ [] := by
            rw [ne_eq, List.drop_eq_nil_iff]
            omega
          have fraction := Text.IsNumeral.of_digits
            (fun c member => digits c (List.mem_of_mem_drop member)) behind
          have point := fraction.append (List.forall_mem_singleton.2 (.inr rfl : '.'.isDigit = true ∨ _))
          exact point.append fun c member => .inl (digits c (List.mem_of_mem_take member))
      · next small =>
          refine Text.IsNumeral.append ?_ numeral
          intro c member
          simp only [List.mem_cons] at member
          rcases member with rfl | rfl | zero
          · exact .inl rfl
          · exact .inr rfl
          · exact .inl (Text.isDigit_replicate_zero _ c zero)

/-- The numbers below zero, and the negative zero, which keeps its sign. -/
def Scalar.isNegative : Scalar → Bool
  | .signed value => value.toInt < 0
  | .float value => value.isNegative
  | .null | .boolean _ | .unsigned _ | .string _ | .bytes _ | .moment _ => false

namespace Timestamp

theorem bare_date (d : Date) : (date d).Bare := by
  have year : (year d.year).Bare := by
    unfold Timestamp.year
    split
    · exact .cons (by decide) (Text.bare_padded 4 _)
    · exact Text.bare_padded 4 _
  have dash : Text.Bare ['-'] := by decide
  have rest := (Text.bare_padded 2 d.month).append (dash.cons (Text.bare_padded 2 d.day))
  simpa [date] using year.append (dash.cons rest)

theorem bare_clock (places : Nat) (t : ClockTime) : (clock places t).Bare := by
  have fraction : Text.Bare ((Text.padded 9 t.fraction).take places) :=
    (Text.bare_padded 9 t.fraction).of_subset (List.take_subset _ _)
  have point : Text.Bare ['.'] := by decide
  have colon : Text.Bare [':'] := by decide
  have second := (Text.bare_padded 2 t.second).append (point.cons fraction)
  have minute := (Text.bare_padded 2 t.minute).append (colon.cons second)
  simpa [clock] using (Text.bare_padded 2 t.hour).append (colon.cons minute)

theorem bare_offset {separator : Text} (bare : separator.Bare) (o : ZoneOffset) :
    (offset separator o).Bare := by
  have minutes := bare.append (Text.bare_padded 2 (o.seconds.natAbs / 60 % 60))
  have hours := (Text.bare_padded 2 (o.seconds.natAbs / 60 / 60)).append minutes
  unfold offset
  dsimp only
  split
  · have minus : Text.Bare ['-'] := by decide
    simpa using minus.cons hours
  · have plus : Text.Bare ['+'] := by decide
    simpa using plus.cons hours

/-- Only the abbreviation of a time zone can be any text. -/
theorem bare_zone (m : Moment) {form : ZoneForm} (noName : form ≠ .abbreviation) :
    (zone m form).Bare := by
  cases form with
  | absent => exact fun c member => absurd member List.not_mem_nil
  | offset => exact .cons (by decide) (bare_offset (by decide) m.offset)
  | compactOffset => exact bare_offset (by decide) m.offset
  | abbreviation => exact absurd rfl noName

theorem exists_of_write? {form : TimestampForm} {m : Moment} {text : Text}
    (set : m.isUnset = false) (written : write? form m = some text) :
    ∃ time : LocalTime, text = form.opening ++ date time.date ++
      ' ' :: clock form.places time.clock ++ zone m form.zone ++ form.closing := by
  unfold write? at written
  split at written
  · next unset => cases set.symm.trans unset
  · obtain ⟨time, -, same⟩ := Option.map_eq_some_iff.1 written
    exact ⟨time, same.symm⟩

end Timestamp

namespace QuoteState

variable {rule : StringRule} {mark : QuoteMark} {hides : Bool}

theorem reading_inside_plain {text : Text} (plain : ∀ c ∈ text, c ≠ mark.char ∧ c ≠ '\\') :
    reading rule (.inside mark hides) text = (.inside mark hides, []) := by
  induction text with
  | nil => rfl
  | cons c rest ih =>
      obtain ⟨⟨other, noSlash⟩, later⟩ := List.forall_mem_cons.1 plain
      rw [reading_cons_of_covers rfl, next_inside_plain other fun _ => noSlash]
      exact ih later

theorem ne_char_of_bare {text : Text} (bare : text.Bare) : ∀ c ∈ text, c ≠ mark.char ∧ c ≠ '\\' := by
  intro c member
  obtain ⟨noMark, -, noSlash⟩ := bare c member
  refine ⟨?_, noSlash⟩
  rintro rfl
  simp at noMark

theorem reading_inside_bare {text : Text} (bare : text.Bare) :
    reading rule (.inside mark hides) text = (.inside mark hides, []) :=
  reading_inside_plain (ne_char_of_bare bare)

/-- Text that stays inside quotes, between a text that opens them and a text that closes them. -/
theorem reading_frame {before after : Preceding} {front body back lead visible : Text}
    (opens : reading rule (.outside before) front = (.inside mark hides, lead))
    (stays : reading rule (.inside mark hides) body = (.inside mark hides, []))
    (closes : reading rule (.inside mark hides) back = (.outside after, visible)) :
    reading rule (.outside before) (front ++ body ++ back) = (.outside after, lead ++ visible) := by
  obtain ⟨opened, shown⟩ := Prod.mk.inj opens
  rw [List.append_assoc, reading_append, opened, shown, reading_append_of_silent stays, closes]
  rfl

theorem isOutside_run_frame {before : Preceding} {front body back : Text} (bare : body.Bare)
    (opens : run rule (.outside before) front = .inside mark hides)
    (closes : (run rule (.inside mark hides) back).isOutside = true) :
    (run rule (.outside before) (front ++ body ++ back)).isOutside = true := by
  rw [run_append, run_append, opens, (Prod.mk.inj (reading_inside_bare bare)).1, closes]

end QuoteState

namespace Quoted

/-- Whether a backslash hides a character in the strings that are written under a rule. -/
def hides (rule : StringRule) : Bool := rule != .standard

theorem reading_escape (rule : StringRule) (c : Char) :
    QuoteState.reading rule (.inside .single true) (escape c) = (.inside .single true, []) := by
  unfold escape
  split
  · simp [QuoteState.reading, QuoteState.next, QuoteState.unquoted, QuoteState.covers]
  · split
    · simp [QuoteState.reading, QuoteState.next, QuoteState.unquoted, QuoteState.covers]
    · next ordinary =>
        simp only [not_or] at ordinary
        simp [QuoteState.reading, QuoteState.next, QuoteState.unquoted, QuoteState.covers,
          QuoteMark.char, ordinary]

theorem reading_doubled (c : Char) :
    QuoteState.reading .standard (.inside .single false) (if c = '\'' then [c, c] else [c]) =
      (.inside .single false, []) := by
  split
  · next mark =>
      subst mark
      decide
  · next other =>
      simp [QuoteState.reading, QuoteState.next, QuoteState.unquoted, QuoteState.covers,
        QuoteMark.char, other]

/-- The body of a string is read inside the quotes, whatever it contains, and they stay open. -/
theorem reading_encode (rule : StringRule) (text : Text) :
    QuoteState.reading rule (.inside .single (hides rule)) (encode rule text) =
      (.inside .single (hides rule), []) := by
  cases rule with
  | standard => exact QuoteState.reading_flatMap reading_doubled text
  | backslash => exact QuoteState.reading_flatMap (reading_escape .backslash) text
  | escapePrefixed => exact QuoteState.reading_flatMap (reading_escape .escapePrefixed) text

end Quoted

namespace Engine

variable {engine : Engine}

/-- The lead of a string opens its quotes, unless it joins a word to a prefix. -/
theorem reading_stringLead {before : Preceding}
    (place : engine = .postgreSQL → before = .boundary) :
    QuoteState.reading engine.stringRule (.outside before) (engine.stringLead ++ ['\'']) =
      (.inside .single (Quoted.hides engine.stringRule), engine.stringLead) := by
  cases engine <;> cases before <;> first | rfl | exact absurd (place rfl) (by decide)

/--
The literal of a string shows nothing but its lead outside quotes.  Where
strings are prefixed this takes a place at which a word can start.
-/
theorem reading_string {before : Preceding} (place : engine = .postgreSQL → before = .boundary)
    (value : Text) :
    QuoteState.reading engine.stringRule (.outside before) (engine.string value) =
      (.outside .boundary, engine.stringLead) := by
  have split : engine.string value =
      (engine.stringLead ++ ['\'']) ++ (Quoted.encode engine.stringRule value ++ ['\'']) := by
    simp [string]
  obtain ⟨opened, lead⟩ := Prod.mk.inj (reading_stringLead place)
  have stays := Quoted.reading_encode engine.stringRule value
  rw [split, QuoteState.reading_append, opened, lead, QuoteState.reading_append_of_silent stays,
    QuoteState.reading_closing]
  simp

/-- The literal of bytes ends outside quotes, and shows neither question marks nor backslashes. -/
theorem exists_reading_bytes {value : List UInt8} {text : Text}
    (written : engine.bytes? value = some text) (before : Preceding) :
    ∃ after visible,
      QuoteState.reading engine.stringRule (.outside before) text = (.outside after, visible) ∧
        visible.Signless := by
  have bare := Text.bare_hex value
  obtain ⟨frame, found, rfl⟩ := Option.map_eq_some_iff.1 written
  cases engine with
  | informix | doris => simp [bytesFrame?] at found
  | sqlServer | cql =>
      obtain rfl := Option.some.inj found
      have whole : Text.Bare ("0x".toList ++ Text.hex value ++ "".toList) :=
        .append (.append (by decide) bare) (by decide)
      obtain ⟨after, ends⟩ := QuoteState.isOutside_eq_true_iff.1
        (QuoteState.isOutside_run_of_noMark fun c member => (whole c member).1)
      exact ⟨after, _, Prod.ext ends rfl,
        (whole.of_subset (QuoteState.unquoted_subset _)).signless⟩
  | postgreSQL | mySQL | clickHouse | sqlite | presto | oracle =>
      obtain rfl := Option.some.inj found
      cases before <;> exact ⟨_, _, QuoteState.reading_frame rfl
        (QuoteState.reading_inside_bare bare) rfl, by decide⟩

theorem isOutside_run_bytes {value : List UInt8} {text : Text}
    (written : engine.bytes? value = some text) (before : Preceding) :
    (QuoteState.run engine.stringRule (.outside before) text).isOutside = true := by
  obtain ⟨after, visible, read, -⟩ := exists_reading_bytes written before
  rw [(Prod.mk.inj read).1]
  rfl

theorem isOutside_run_moment (plain : engine ≠ .postgreSQL) {value : Moment} {text : Text}
    (written : Timestamp.write? engine.timestampForm value = some text) (before : Preceding) :
    (QuoteState.run engine.stringRule (.outside before) text).isOutside = true := by
  cases set : value.isUnset with
  | true =>
      obtain rfl := Option.some.inj ((if_pos set).symm.trans written)
      cases engine <;> cases before <;> decide
  | false =>
      obtain ⟨time, rfl⟩ := Timestamp.exists_of_write? set written
      have noName : engine.timestampForm.zone ≠ .abbreviation := by
        cases engine <;> first | exact absurd rfl plain | decide
      have clock := (Timestamp.bare_clock engine.timestampForm.places time.clock).append
        (Timestamp.bare_zone value noName)
      have blank : Text.Bare [' '] := by decide
      have body := (Timestamp.bare_date time.date).append (blank.cons clock)
      have framed {mark : QuoteMark} {hides : Bool}
          (opens : QuoteState.run engine.stringRule (.outside before)
            engine.timestampForm.opening = .inside mark hides)
          (closes : (QuoteState.run engine.stringRule (.inside mark hides)
            engine.timestampForm.closing).isOutside = true) :=
        QuoteState.isOutside_run_frame body opens closes
      simp only [List.append_assoc, List.cons_append] at framed ⊢
      cases engine <;> cases before <;> exact framed rfl rfl

def words : List Text :=
  ["NULL".toList, "TRUE".toList, "FALSE".toList, ['1'], ['0']]

theorem bare_word {text : Text} (word : text ∈ words) : text.Bare := by
  have all : ∀ text ∈ words, Text.Bare text := by decide
  exact all text word

/-- What the literal of a value looks like. -/
inductive Shape (engine : Engine) : Scalar → Text → Prop where
  | word {value : Scalar} {text : Text} (positive : value.isNegative = false)
      (word : text ∈ words) : Shape engine value text
  | numeral {value : Scalar} {text : Text} (positive : value.isNegative = false)
      (numeral : text.IsNumeral) : Shape engine value text
  | negative {value : Scalar} {digits : Text} (negative : value.isNegative = true)
      (numeral : digits.IsNumeral) : Shape engine value ('-' :: digits)
  | string (value : Text) : Shape engine (.string value) (engine.string value)
  | bytes {value : List UInt8} {text : Text} (written : engine.bytes? value = some text) :
      Shape engine (.bytes value) text
  | moment {value : Moment} {text : Text}
      (written : Timestamp.write? engine.timestampForm value = some text) :
      Shape engine (.moment value) text

theorem shape_literal {value : Scalar} {text : Text}
    (written : engine.literal value = .ok text) : engine.Shape value text := by
  cases value with
  | null =>
      obtain rfl := Except.ok.inj written
      exact .word rfl (by decide)
  | boolean value =>
      obtain rfl := Except.ok.inj written
      refine .word rfl ?_
      cases engine <;> cases value <;> decide
  | signed value =>
      obtain rfl := Except.ok.inj written
      cases number : value.toInt with
      | ofNat n =>
          refine .numeral ?_ (Text.isNumeral_natural n)
          exact decide_eq_false (number ▸ Int.not_lt.2 (Int.natCast_nonneg n))
      | negSucc n =>
          refine .negative ?_ (Text.isNumeral_natural (n + 1))
          exact decide_eq_true (number ▸ Int.negSucc_lt_zero n)
  | unsigned value =>
      obtain rfl := Except.ok.inj written
      exact .numeral rfl (Text.isNumeral_natural _)
  | float value =>
      simp only [literal] at written
      split at written
      · obtain rfl := Except.ok.inj written
        have numeral := value.shortest.isNumeral_plain
        unfold Binary64.plain
        split
        · next negative => exact .negative negative numeral
        · next positive => exact .numeral (Bool.eq_false_iff.2 positive) numeral
      · cases written
  | string value =>
      obtain rfl := Except.ok.inj written
      exact .string value
  | bytes value =>
      simp only [literal] at written
      split at written
      · next text found =>
          obtain rfl := Except.ok.inj written
          exact .bytes found
      · cases written
  | moment value =>
      simp only [literal] at written
      split at written
      · next text found =>
          obtain rfl := Except.ok.inj written
          exact .moment found
      · cases written

/-- What the literals of an engine are: bare text, strings, bytes and moments. -/
inductive Writes (engine : Engine) : Text → Prop where
  | bare {text : Text} (bare : text.Bare) : Writes engine text
  | string (value : Text) : Writes engine (engine.string value)
  | bytes {value : List UInt8} {text : Text} (written : engine.bytes? value = some text) :
      Writes engine text
  | moment {value : Moment} {text : Text}
      (written : Timestamp.write? engine.timestampForm value = some text) : Writes engine text

theorem writes_of_literal {value : Scalar} {text : Text}
    (written : engine.literal value = .ok text) : engine.Writes text := by
  cases shape_literal written with
  | word positive word => exact .bare (bare_word word)
  | numeral positive numeral => exact .bare numeral.bare
  | negative negative numeral => exact .bare (.cons (by decide) numeral.bare)
  | string value => exact .string value
  | bytes written => exact .bytes written
  | moment written => exact .moment written

/-- For engines without prefixed strings a literal closes all that it opens. -/
theorem isOutside_run_literal (plain : engine ≠ .postgreSQL) {value : Scalar} {text : Text}
    (written : engine.literal value = .ok text) (before : Preceding) :
    (QuoteState.run engine.stringRule (.outside before) text).isOutside = true := by
  cases writes_of_literal written with
  | bare bare => exact QuoteState.isOutside_run_of_noMark fun c member => (bare c member).1
  | string value =>
      have closed : QuoteState.run engine.stringRule (.outside before) (engine.string value) =
          .outside .boundary :=
        (Prod.mk.inj (reading_string (fun prefixed => absurd prefixed plain) value)).1
      rw [closed]
      rfl
  | bytes found => exact isOutside_run_bytes found before
  | moment found => exact isOutside_run_moment plain found before

end Engine

end SqlTemplate
