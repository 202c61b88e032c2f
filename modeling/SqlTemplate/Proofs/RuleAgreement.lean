import SqlTemplate.Engine.Writer
import SqlTemplate.Proofs.Pieces
import SqlTemplate.Proofs.Reading

/-!
# Texts that all rules read alike

The rules for strings give one meaning to every character but the backslash, and
to the backslash outside quotes as well.  Readers with different rules therefore
enter and leave the same quotes together until a backslash comes inside them; in
a text without such a backslash they find the same tokens, and in a statement
the same parameters.  A reader of a template sees the first signs of its lexemes
only, but no backslash and no mark is among the characters that it passes over.
-/

namespace SqlTemplate

namespace Lexeme

variable {rule other : StringRule} {text : Text}

theorem Reads.noEscape {c : Char} {tail : Text} {lexeme : Lexeme} {before : Preceding}
    (reads : Reads c text lexeme tail) (noMark : QuoteMark.ofChar? c = none)
    (plain : rule ≠ .escapePrefixed)
    (noEscape : QuoteState.NoEscape rule (.outside before) (c :: text)) :
    QuoteState.NoEscape rule (.outside (before.step c)) tail := by
  rw [← reads.spelling_append 0] at noEscape
  -- the reader sees the first sign only, and ends outside quotes as if it had seen all
  have outside : (QuoteState.run rule (.outside before)
      (lexeme.token 0).spelling).isOutside = true :=
    QuoteState.isOutside_run_of_noMark (reads.noMark noMark)
  exact noEscape.append.of_alike plain (.outside outside rfl)

/-- From the same region on, readers with different rules find the same lexemes. -/
theorem list_eq_of_noEscape {state second : QuoteState} (plain : rule ≠ .escapePrefixed)
    (same : state.SameRegion second) (noEscape : QuoteState.NoEscape rule state text) :
    list rule state text = list other second text := by
  induction state, text using list.induct rule generalizing second with
  | case1 state => rw [list, list]
  | case2 state c rest covers ih =>
      obtain ⟨here, later⟩ := QuoteState.NoEscape.cons_iff.1 noEscape
      have coversOther : second.covers c = true := by
        rw [← QuoteState.covers_eq_of_isOutside same.isOutside_eq, covers]
      rw [list_covered covers, list_covered coversOther, ih (same.next here) later]
  | case3 state c rest covers ih =>
      obtain ⟨before, rfl, noMark⟩ :=
        QuoteState.covers_eq_false_iff.1 (Bool.eq_false_iff.2 covers)
      cases same with
      | outside =>
          have later := (reads_read c rest).noEscape noMark plain noEscape
          rw [QuoteState.next_outside noMark] at ih
          rw [list_outside noMark, list_outside noMark, ih (.outside _) later]

end Lexeme

namespace StringRule

variable {text : Text}

theorem NoEscape.lex_eq (noEscape : standard.NoEscape text) (rule : StringRule) :
    Token.lex rule text = Token.lex .standard text := by
  have lexemes : Lexeme.list .standard .start text = Lexeme.list rule .start text :=
    Lexeme.list_eq_of_noEscape nofun (.outside .boundary) noEscape
  rw [Token.lex, Token.lex, lexemes]

theorem NoEscape.pieces_eq (noEscape : standard.NoEscape text) (rule : StringRule) :
    Piece.list rule .start text = Piece.list .standard .start text :=
  (Piece.list_congr fun n => (noEscape.sameRegion rule n).isOutside_eq).symm

/-- Backslashes before the last marks of two strings, the second of them with a prefix. -/
def divided : Text := "'\\'?E'\\'?".toList

/-- The standard rule finds two markers there, the rule for prefixed strings one, the other none. -/
theorem lex_divided {rule other : StringRule} (different : rule ≠ other) :
    Token.lex rule divided ≠ Token.lex other divided := by
  cases rule <;> cases other <;> first | exact absurd rfl different | decide +kernel

/--
A text in which no backslash stands inside the quotes of standard SQL has the
same tokens under every rule.  A statement with this text is given to drivers
alike, in every style, and is written out with the same literals or the same
failure, whichever rule it carries.  With a backslash there, any two rules can
find different tokens.
-/
theorem readings_agree (rule other : StringRule) :
    (∀ text, standard.NoEscape text →
      Token.lex rule text = Token.lex other text ∧
        ∀ s : Statement, s.text = text →
          (∀ style : PlaceholderStyle,
            Statement.native { s with stringRule := rule } style =
              Statement.native { s with stringRule := other } style) ∧
          ∀ writer : Writer,
            Statement.render { s with stringRule := rule } writer .inline =
              Statement.render { s with stringRule := other } writer .inline) ∧
      (rule ≠ other → ∃ text, Token.lex rule text ≠ Token.lex other text) := by
  refine ⟨fun text noEscape => ?_, fun different => ⟨divided, lex_divided different⟩⟩
  refine ⟨(noEscape.lex_eq rule).trans (noEscape.lex_eq other).symm, ?_⟩
  rintro s rfl
  have pieces : Statement.pieces { s with stringRule := rule } =
      Statement.pieces { s with stringRule := other } :=
    (noEscape.pieces_eq rule).trans (noEscape.pieces_eq other).symm
  constructor
  · intro style
    rw [Statement.native, Statement.native, pieces]
  · intro writer
    rw [Statement.render, Statement.render, Statement.inline, Statement.inline, pieces]
    rfl

/-- An escaped sign, quotes of three kinds, a doubled mark, and a name in front of a string. -/
def report : Text :=
  "\\? || E'it''s ?' || \"a?\".\x60b?\x60 = ? || :e'?'".toList

/-- Read under the other rules the report is what it is to the standard rule. -/
theorem readings_agree_report :
    standard.NoEscape report ∧
      Token.lex .escapePrefixed report =
        [.escaped .question, .literal " || E'it''s ?' || \"a?\".\x60b?\x60 = ".toList,
         .marker ⟨.value, .index 0⟩, .literal " || ".toList, .marker ⟨.value, .name ['e']⟩,
         .literal "'?'".toList] ∧
      (Statement.native { text := report, values := [.signed 1], stringRule := .backslash }
          .dollar).text =
        "? || E'it''s ?' || \"a?\".\x60b?\x60 = $1 || :e'?'".toList ∧
      (Statement.render { text := report, values := [], stringRule := .backslash }
          Engine.mySQL.writer .inline).map Rendered.text =
        .error (.missingArgument (.index 0)) ∧
      ∃ text, Token.lex .backslash text ≠ Token.lex .standard text := by
  have noEscape : standard.NoEscape report := by decide +kernel
  obtain ⟨tokens, -⟩ := (readings_agree .escapePrefixed .standard).1 report noEscape
  obtain ⟨-, statements⟩ := (readings_agree .backslash .standard).1 report noEscape
  obtain ⟨native, -⟩ := statements { text := report, values := [.signed 1] } rfl
  obtain ⟨-, inline⟩ := statements { text := report, values := [] } rfl
  rw [tokens, native .dollar, inline Engine.mySQL.writer]
  exact ⟨noEscape, by decide +kernel, by decide +kernel, by decide +kernel,
    (readings_agree .backslash .standard).2 nofun⟩

end StringRule

end SqlTemplate
