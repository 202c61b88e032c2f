import SqlTemplate.Proofs.FlatArguments

/-!
# Statements under another rule

A statement that is put into a template keeps its text, but the whole is read
under the rule of the engine that the template is compiled for.  As long as no
backslash stands inside quotes every rule reads the same parameters; otherwise
any two rules disagree about some statement.
-/

namespace SqlTemplate

namespace Statement

/-- A template that consists of nothing but a statement. -/
def template (s : Statement) (engine : Engine) : Template where
  text := ['?']
  arguments := .positional [.statement s]
  engine := engine

theorem compileWith_template (s : Statement) (engine : Engine) :
    (s.template engine).compileWith engine.writer =
      .ok { s with hints := .empty
                   placeholders := engine.placeholders
                   stringRule := engine.stringRule } := by
  have drafted : ((s.template engine).draft engine.writer).parts = .ok [.statement s] := by
    have read : Token.lex engine.stringRule ['?'] = [.marker ⟨.value, .index 0⟩] := by
      rw [Token.lex, QuoteState.start, Lexeme.list_value (by simp), Lexeme.list]
      rfl
    change Draft.parts ((Token.lex engine.stringRule ['?']).flatMap _) = _
    rw [read]
    rfl
  rw [Template.compileWith_eq_ok_iff]
  refine ⟨_, drafted, ?_⟩
  simp [Part.text, Part.values, template, Engine.writer]

end Statement

/-- The beginning of a text in which two rules disagree about the question mark behind it. -/
def StringRule.clash : StringRule → StringRule → Text
  | .standard, .escapePrefixed => ['E', '\'', '\\', '\'', ' ']
  | .backslash, _ => ['\'', '\\', '\'', '\'', ' ']
  | .escapePrefixed, .standard => ['E', '\'', '\\', '\'', '\'', ' ']
  | _, _ => ['\'', '\\', '\'', ' ']

namespace StringRule

variable {rule other : StringRule}

theorem list_clash (different : rule ≠ other) :
    Lexeme.list rule .start (rule.clash other ++ ['?']) =
      ((rule.clash other).map fun c => .plain [c]) ++ [.positional .value] := by
  cases rule <;> cases other <;> first | exact absurd rfl different | decide +kernel

theorem closes_clash (different : rule ≠ other) : rule.Closes (rule.clash other ++ ['?']) := by
  cases rule <;> cases other <;> first | exact absurd rfl different | decide

theorem count_clash (different : rule ≠ other) :
    (Piece.list rule .start (rule.clash other ++ ['?'])).count .parameter = 1 := by
  cases rule <;> cases other <;> first | exact absurd rfl different | decide

theorem count_clash_other (different : rule ≠ other) :
    (Piece.list other .start (rule.clash other ++ ['?'])).count .parameter = 0 := by
  cases rule <;> cases other <;> first | exact absurd rfl different | decide

end StringRule

def Template.clash (inner outer : Engine) : Template where
  text := inner.stringRule.clash outer.stringRule ++ ['?']
  arguments := .positional [.scalar .null]
  engine := inner

theorem Template.compileWith_clash {inner outer : Engine}
    (different : inner.stringRule ≠ outer.stringRule) :
    (Template.clash inner outer).compileWith inner.writer =
      .ok { text := inner.stringRule.clash outer.stringRule ++ ['?']
            values := [.null]
            placeholders := inner.placeholders
            stringRule := inner.stringRule } := by
  let start := inner.stringRule.clash outer.stringRule
  have drafted : ((Template.clash inner outer).draft inner.writer).parts =
      .ok (start.map .plain ++ [.value .null]) := by
    rw [Draft.parts_eq_ok_iff]
    change (Lexeme.number 0 (Lexeme.list inner.stringRule .start (start ++ ['?']))).flatMap _ = _
    rw [StringRule.list_clash different, flatMap_draftToken_plain_append, List.map_append,
      List.map_map]
    rfl
  rw [compileWith_eq_ok_iff]
  refine ⟨_, drafted, ?_⟩
  simp [start, Template.clash, Part.text, Part.values, Engine.writer]

/--
A statement that is put into a template of another engine keeps a parameter for
every value, whatever template it was compiled from, exactly when both engines
read strings by one rule; and it keeps them between all engines when no
backslash stands inside its quotes.
-/
theorem Statement.complete_template_iff (inner outer : Engine) :
    ((∀ (t : Template) (s whole : Statement),
        (∀ argument ∈ t.arguments.held, argument.Flat) → inner.stringRule.Closes t.text →
        t.compileWith inner.writer = .ok s → s.parameterCount = s.values.length →
        (s.template outer).compileWith outer.writer = .ok whole →
        whole.parameterCount = whole.values.length) ↔
      inner.stringRule = outer.stringRule) ∧
    ∀ s whole : Statement, s.stringRule.NoEscape s.text →
      s.parameterCount = s.values.length →
      (s.template outer).compileWith outer.writer = .ok whole →
      whole.parameterCount = whole.values.length := by
  refine ⟨⟨?_, ?_⟩, ?_⟩
  · intro complete
    by_contra different
    let s : Statement :=
      { text := inner.stringRule.clash outer.stringRule ++ ['?']
        values := [.null]
        placeholders := inner.placeholders
        stringRule := inner.stringRule }
    have flat : ∀ argument ∈ (Template.clash inner outer).arguments.held, argument.Flat :=
      List.forall_mem_singleton.2 (.scalar .null)
    have closes := StringRule.closes_clash different
    have compiled : (Template.clash inner outer).compileWith inner.writer = .ok s :=
      Template.compileWith_clash different
    have count : s.parameterCount = s.values.length := StringRule.count_clash different
    have kept := complete _ s _ flat closes compiled count (s.compileWith_template outer)
    have lost := StringRule.count_clash_other different
    exact Nat.zero_ne_one (lost.symm.trans kept)
  · intro sameRule t s whole flat closes compiled count embedded
    obtain ⟨parts, -, rfl⟩ := Template.compileWith_eq_ok_iff.1 compiled
    rw [compileWith_template] at embedded
    obtain rfl := Except.ok.inj embedded
    rw [← sameRule]
    exact count
  · intro s whole noEscape count embedded
    rw [compileWith_template] at embedded
    obtain rfl := Except.ok.inj embedded
    have pieces : Piece.list outer.stringRule .start s.text = s.pieces :=
      (Piece.list_congr fun n => (noEscape.sameRegion outer.stringRule n).isOutside_eq).symm
    change (Piece.list outer.stringRule .start s.text).count .parameter = s.values.length
    rw [pieces]
    exact count

/-- In a template of another engine a statement keeps its parameter. -/
theorem Statement.complete_template_postgreSQL :
    let s : Statement := { text := "a = ?".toList, values := [.signed 1] }
    ∃ whole, (s.template .postgreSQL).compileWith Engine.postgreSQL.writer = .ok whole ∧
      whole.parameterCount = whole.values.length := by
  intro s
  have noEscape : s.stringRule.NoEscape s.text := by
    intro front back split
    have member : '\\' ∈ s.text := split ▸ List.mem_append_right front List.mem_cons_self
    exact absurd member (by decide)
  have embedded := s.compileWith_template .postgreSQL
  exact ⟨_, embedded,
    (complete_template_iff .sqlite .postgreSQL).2 s _ noEscape (by decide) embedded⟩

/-- A backslash before a mark is a character to one engine and hides the mark from the other. -/
theorem Statement.parameter_lost :
    ∃ s whole : Statement,
      Template.compileWith
          { text := "select '\\' ?".toList
            arguments := .positional [.scalar (.signed 1)]
            engine := .sqlite } Engine.sqlite.writer = .ok s ∧
      Engine.sqlite.stringRule.Closes "select '\\' ?".toList ∧
      s.parameterCount = s.values.length ∧
      (s.template .mySQL).compileWith Engine.mySQL.writer = .ok whole ∧
      whole.parameterCount = 0 ∧ whole.values.length = 1 := by
  let t : Template :=
    { text := "select '\\' ?".toList
      arguments := .positional [.scalar (.signed 1)]
      engine := .sqlite }
  have fields : (t.compileWith Engine.sqlite.writer).map
      (fun s => (s.text, s.values.length, s.stringRule)) =
        .ok ("select '\\' ?".toList, 1, .standard) := by
    decide +kernel
  obtain ⟨s, compiled, same⟩ := Template.exists_of_map_compileWith fields
  obtain ⟨text, values, rule⟩ : s.text = "select '\\' ?".toList ∧ s.values.length = 1 ∧
      s.stringRule = .standard := by
    simpa only [Prod.mk.injEq] using same
  refine ⟨s, _, compiled, by decide +kernel, ?_, s.compileWith_template .mySQL, ?_, values⟩
  · rw [parameterCount, pieces, rule, text, values]
    decide +kernel
  · change (Piece.list Engine.mySQL.stringRule .start s.text).count .parameter = 0
    rw [text]
    decide +kernel

end SqlTemplate
