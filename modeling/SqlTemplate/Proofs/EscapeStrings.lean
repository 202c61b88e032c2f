import SqlTemplate.Proofs.Cuts

/-!
# Strings with escapes

A prefixed string is written in units: a doubled mark, a backslash with the
character that it hides, or any other character.  A doubled mark closes the
string and opens it again without the prefix, so behind it a backslash hides
nothing, and a mark that it should hide ends the string.  As long as no hidden
mark comes behind a doubled one, the string is skipped as a whole.
-/

namespace SqlTemplate

/-- A unit of a string in which a backslash hides the next character. -/
inductive EscapeUnit where
  | doubled
  | hidden (c : Char)
  | plain (c : Char) (noMark : c ≠ '\'') (noSlash : c ≠ '\\')

namespace EscapeUnit

def spelling : EscapeUnit → Text
  | .doubled => ['\'', '\'']
  | .hidden c => ['\\', c]
  | .plain c .. => [c]

def spell (units : List EscapeUnit) : Text :=
  units.flatMap spelling

def literal (letter : Char) (units : List EscapeUnit) : Text :=
  letter :: '\'' :: spell units ++ ['\'']

/-- No hidden mark comes behind a doubled one. -/
def Whole (units : List EscapeUnit) : Prop :=
  units.Pairwise fun first later => first = .doubled → later ≠ .hidden '\''

def after (hides : Bool) : EscapeUnit → QuoteState
  | .doubled => .inside .single false
  | .hidden c => if hides = false ∧ c = '\'' then .outside .boundary else .inside .single hides
  | .plain .. => .inside .single hides

open Lexeme

variable {hides : Bool} {unit : EscapeUnit} {units : List EscapeUnit}

theorem after_hidden {c : Char} (stays : ¬ (hides = false ∧ c = '\'')) :
    (hidden c).after hides = .inside .single hides :=
  if_neg stays

theorem reading_spelling (hides : Bool) (unit : EscapeUnit) :
    QuoteState.reading .escapePrefixed (.inside .single hides) unit.spelling =
      (unit.after hides, []) := by
  cases unit with
  | doubled => cases hides <;> rfl
  | plain c noMark noSlash =>
      rw [spelling, QuoteState.reading_cons_of_covers rfl,
        QuoteState.next_inside_plain noMark fun _ => noSlash]
      rfl
  | hidden c =>
      cases hides with
      | true => rfl
      | false =>
          by_cases mark : c = '\''
          · subst mark
            rfl
          · have shown : (QuoteState.inside .single false).next .escapePrefixed c =
                .inside .single false :=
              QuoteState.next_inside_plain mark fun hides => absurd hides (by decide)
            rw [after_hidden fun closes => mark closes.2]
            change QuoteState.reading .escapePrefixed (.inside .single false) [c] = _
            rw [QuoteState.reading_cons_of_covers rfl, shown]
            rfl

theorem finish_spelling (hides : Bool) (unit : EscapeUnit) (tail : Text) :
    finish .escapePrefixed (.inside .single hides) (unit.spelling ++ tail) =
      finish .escapePrefixed (unit.after hides) tail := by
  obtain ⟨run, nothing⟩ := Prod.mk.inj (reading_spelling hides unit)
  rw [finish_of_unquoted_eq_nil nothing, run]

/-- The reader is inside the string in front of every unit and behind the last. -/
def StaysInside (hides : Bool) (units : List EscapeUnit) : Prop :=
  ∀ part, part <+: units →
    (finish .escapePrefixed (.inside .single hides) (spell part)).isOutside = false

theorem staysInside_nil (hides : Bool) : StaysInside hides [] := by
  intro part inUnits
  obtain rfl := List.prefix_nil.1 inUnits
  rw [spell, List.flatMap_nil, finish_nil]
  rfl

theorem staysInside_cons_iff :
    StaysInside hides (unit :: units) ↔
      ∃ later, unit.after hides = .inside .single later ∧ StaysInside later units := by
  constructor
  · intro stays
    have later : ∃ later, unit.after hides = .inside .single later := by
      have here := stays [unit] ((List.prefix_cons_inj unit).2 (List.nil_prefix))
      rw [spell, List.flatMap_cons, finish_spelling, List.flatMap_nil, finish_nil] at here
      cases unit with
      | doubled => exact ⟨false, rfl⟩
      | plain c noMark noSlash => exact ⟨hides, rfl⟩
      | hidden c =>
          by_cases closes : hides = false ∧ c = '\''
          · obtain ⟨rfl, rfl⟩ := closes
            cases here
          · exact ⟨hides, after_hidden closes⟩
    obtain ⟨later, inside⟩ := later
    refine ⟨later, inside, fun part inUnits => ?_⟩
    have behind := stays (unit :: part) ((List.prefix_cons_inj unit).2 inUnits)
    rwa [spell, List.flatMap_cons, finish_spelling, inside] at behind
  · rintro ⟨later, inside, stays⟩ part inUnits
    cases part with
    | nil => exact staysInside_nil hides [] List.nil_prefix
    | cons first rest =>
        obtain ⟨rfl, inRest⟩ := List.cons_prefix_cons.1 inUnits
        rw [spell, List.flatMap_cons, finish_spelling, inside]
        exact stays rest inRest

/-- A doubled mark ends the hiding, and without hiding no mark may come behind a backslash. -/
theorem staysInside_iff :
    StaysInside hides units ↔ (hides = false → .hidden '\'' ∉ units) ∧ Whole units := by
  induction units generalizing hides with
  | nil => exact iff_of_true (staysInside_nil hides) ⟨fun _ => by simp, List.Pairwise.nil⟩
  | cons unit units ih =>
      rw [staysInside_cons_iff, Whole, List.pairwise_cons, ← Whole]
      -- Units other than doubled marks leave the hiding as it is.
      have step (inside : unit.after hides = .inside .single hides) (single : unit ≠ doubled)
          (noMark : hides = false → unit ≠ .hidden '\'') :
          (∃ later, unit.after hides = .inside .single later ∧ StaysInside later units) ↔
            (hides = false → .hidden '\'' ∉ unit :: units) ∧
              (∀ later ∈ units, unit = doubled → later ≠ .hidden '\'') ∧ Whole units := by
        constructor
        · rintro ⟨later, same, stays⟩
          obtain ⟨-, rfl⟩ := QuoteState.inside.inj (inside.symm.trans same)
          obtain ⟨noMore, whole⟩ := ih.1 stays
          refine ⟨fun shown => ?_, fun _ _ doubled => absurd doubled single, whole⟩
          exact List.not_mem_cons_of_ne_of_not_mem (noMark shown).symm (noMore shown)
        · rintro ⟨noMore, -, whole⟩
          refine ⟨hides, inside, ih.2 ⟨fun shown member => ?_, whole⟩⟩
          exact noMore shown (List.mem_cons_of_mem unit member)
      cases unit with
      | doubled =>
          constructor
          · rintro ⟨later, same, stays⟩
            obtain ⟨-, rfl⟩ := QuoteState.inside.inj same
            obtain ⟨noMore, whole⟩ := ih.1 stays
            refine ⟨fun _ => List.not_mem_cons_of_ne_of_not_mem nofun (noMore rfl), ?_, whole⟩
            rintro later member - rfl
            exact noMore rfl member
          · rintro ⟨-, noMore, whole⟩
            exact ⟨false, rfl, ih.2 ⟨fun _ member => noMore _ member rfl rfl, whole⟩⟩
      | plain c noMark noSlash => exact step rfl nofun fun _ => nofun
      | hidden c =>
          by_cases closes : hides = false ∧ c = '\''
          · obtain ⟨rfl, rfl⟩ := closes
            constructor
            · rintro ⟨later, same, -⟩
              cases same
            · rintro ⟨noMore, -⟩
              exact absurd List.mem_cons_self (noMore rfl)
          · refine step (after_hidden closes) nofun fun shown same => ?_
            exact closes ⟨shown, EscapeUnit.hidden.inj same⟩

/-- What stays inside quotes is read there from one end to the other. -/
theorem StaysInside.exists_reading (stays : StaysInside hides units) :
    ∃ later, QuoteState.reading .escapePrefixed (.inside .single hides) (spell units) =
      (.inside .single later, []) := by
  induction units generalizing hides with
  | nil => exact ⟨hides, rfl⟩
  | cons unit units ih =>
      obtain ⟨between, inside, staysLater⟩ := staysInside_cons_iff.1 stays
      obtain ⟨later, behind⟩ := ih staysLater
      refine ⟨later, ?_⟩
      rw [spell, List.flatMap_cons,
        QuoteState.reading_append_of_silent (reading_spelling hides unit), inside]
      exact behind

theorem StaysInside.list_literal (stays : StaysInside true units) {letter : Char}
    (isLetter : letter = 'E' ∨ letter = 'e') (rest : Text) :
    list .escapePrefixed (.outside .boundary) (literal letter units ++ rest) =
      ofText (literal letter units) ++ list .escapePrefixed (.outside .boundary) rest := by
  obtain ⟨later, inside⟩ := stays.exists_reading
  have quoted : QuoteState.reading .escapePrefixed (.outside .escapeLetter)
      ('\'' :: (spell units ++ ['\''])) = (.outside .boundary, []) := by
    rw [QuoteState.reading_cons_of_covers rfl]
    change QuoteState.reading _ (.inside .single true) _ = _
    rw [QuoteState.reading_append_of_silent inside, QuoteState.reading_closing]
  obtain ⟨closed, hidden⟩ := Prod.mk.inj quoted
  have lettered : list .escapePrefixed (.outside .boundary) (literal letter units ++ rest) =
      .plain [letter] :: list .escapePrefixed (.outside .escapeLetter)
        ('\'' :: (spell units ++ ['\'']) ++ rest) := by
    rcases isLetter with rfl | rfl
    · exact list_plain rfl (by decide) (by decide) (by decide) _
    · exact list_plain rfl (by decide) (by decide) (by decide) _
  rw [lettered, list_of_unquoted_eq_nil hidden, closed]
  rfl

theorem finish_letter {letter : Char} (isLetter : letter = 'E' ∨ letter = 'e') (text : Text) :
    finish .escapePrefixed (.outside .boundary) (letter :: '\'' :: text) =
      finish .escapePrefixed (.inside .single true) text := by
  have found (noMark : QuoteMark.ofChar? letter = none) (noSlash : letter ≠ '\\')
      (noQuestion : letter ≠ '?') (noColon : letter ≠ ':')
      (escapes : Preceding.boundary.step letter = .escapeLetter) :
      finish .escapePrefixed (.outside .boundary) (letter :: '\'' :: text) =
        finish .escapePrefixed (.inside .single true) text := by
    rw [finish_outside noMark, read_plain noSlash noQuestion noColon, escapes, finish_covered rfl]
    rfl
  rcases isLetter with rfl | rfl
  · exact found rfl (by decide) (by decide) (by decide) rfl
  · exact found rfl (by decide) (by decide) (by decide) rfl

/--
A prefixed string is skipped as a whole, and what follows it is read outside
quotes, when no hidden mark comes behind a doubled one.  Otherwise the reader
leaves the quotes before the last mark.
-/
theorem literal_skipped {front rest : Text} {letter : Char} {units : List EscapeUnit}
    (settled : Settled .escapePrefixed .start front)
    (outside : (finish .escapePrefixed .start front).isOutside = true)
    (isLetter : letter = 'E' ∨ letter = 'e') :
    ((∀ part, part <+: units →
        (finish .escapePrefixed .start (front ++ letter :: '\'' :: spell part)).isOutside = false) ↔
      Whole units) ∧
    (Whole units →
      list .escapePrefixed .start (front ++ (literal letter units ++ rest)) =
          list .escapePrefixed .start front ++ (ofText (literal letter units) ++
            list .escapePrefixed (.outside .boundary) rest) ∧
        ∀ token offset,
          (token, offset) ∈ Token.starts 0
            (Token.lex .escapePrefixed (front ++ (literal letter units ++ rest))) →
          (∀ text, token ≠ .literal text) →
          offset < front.length ∨ front.length + (literal letter units).length ≤ offset) := by
  have boundary := settled.finish_eq_boundary outside fun _ => rfl
  have noSign (text : Text) : (letter :: text).head? ≠ some '?' ∧ (letter :: text).head? ≠ some ':' := by
    rcases isLetter with rfl | rfl <;> simp
  have escapes : StaysInside true units ↔ Whole units := by
    rw [staysInside_iff]
    exact and_iff_right fun impossible => absurd impossible (by decide)
  constructor
  · rw [← escapes]
    refine forall₂_congr fun part _ => ?_
    rw [(settled.halves (noSign _).1 (noSign _).2).2, boundary, finish_letter isLetter]
  · intro whole
    have listed : list .escapePrefixed .start (front ++ (literal letter units ++ rest)) =
        list .escapePrefixed .start front ++ (ofText (literal letter units) ++
          list .escapePrefixed (.outside .boundary) rest) := by
      have cut := (settled.halves (noSign ('\'' :: spell units ++ ['\''] ++ rest)).1
        (noSign _).2).1
      rw [boundary] at cut
      exact cut.trans (congrArg _ ((escapes.2 whole).list_literal isLetter rest))
    refine ⟨listed, fun token offset member sign => ?_⟩
    obtain ⟨first, lexeme, last, split, isSign, rfl⟩ := exists_of_mem_starts member sign
    rw [listed] at split
    have apart := spell_outside split isSign
    rwa [spell_list, ← Nat.zero_add (Lexeme.spell first).length] at apart

/-- A hidden mark, a doubled mark behind it, and a question mark. -/
def quoted : List EscapeUnit :=
  [.hidden '\'', .doubled, .plain '?' (by decide) (by decide)]

/-- The question mark in the string is text, and the one behind the string is a marker. -/
theorem literal_skipped_quoted :
    Whole quoted ∧
      list .escapePrefixed .start ("a = ".toList ++ (literal 'e' quoted ++ " + ?".toList)) =
        list .escapePrefixed .start "a = ".toList ++ (ofText (literal 'e' quoted) ++
          list .escapePrefixed (.outside .boundary) " + ?".toList) := by
  have settled : Settled .escapePrefixed .start "a = ".toList := by
    constructor
    · rintro c ⟨⟩
      rfl
    · exact fun colon => absurd colon (by decide)
  have outside : (finish .escapePrefixed .start "a = ".toList).isOutside = true := by
    decide +kernel
  have whole : Whole quoted := by
    simp [Whole, quoted]
  exact ⟨whole, ((literal_skipped settled outside (.inr rfl)).2 whole).1⟩

/-- A doubled mark, a hidden mark behind it, a blank, and a question mark. -/
def broken : List EscapeUnit :=
  [.doubled, .hidden '\'', .plain ' ' (by decide) (by decide),
   .plain '?' (by decide) (by decide)]

/-- The question mark in the string is taken for a marker. -/
theorem marker_in_broken :
    literal 'E' broken = "E'''\\' ?'".toList ∧
      (.marker ⟨.value, .index 0⟩, 7) ∈
        Token.starts 0 (Token.lex .escapePrefixed (literal 'E' broken)) ∧
      7 < (literal 'E' broken).length := by
  have lexed : Token.lex .escapePrefixed (literal 'E' broken) =
      [.literal "E'''\\' ".toList, .marker ⟨.value, .index 0⟩, .literal ['\'']] := by
    decide +kernel
  refine ⟨rfl, ?_, by decide⟩
  rw [lexed]
  decide

end EscapeUnit

end SqlTemplate
