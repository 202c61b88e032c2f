import SqlTemplate.Proofs.ClosedArguments
import SqlTemplate.Proofs.Placeholders

/-!
# Numbering in one pass

A statement for a driver comes about in two stages: the template is compiled to
a text with parameters, and this text is read again to number them.  The values
could as well be numbered while the tokens of the template are read, and for
engines without prefixed strings the result is the same.
-/

namespace SqlTemplate

namespace Part

def write (style : PlaceholderStyle) (position : Nat) : Part → Text
  | .plain char => [char]
  | .question => ['?']
  | .value _ => style.write position
  | .statement compiled => Piece.write style.write position compiled.pieces

/-- Parts with placeholders that are counted along all of them. -/
def number (style : PlaceholderStyle) (position : Nat) : List Part → Text
  | [] => []
  | part :: rest =>
      part.write style position ++ number style (position + part.values.length) rest

theorem write_pieces (style : PlaceholderStyle) (position : Nat) (part : Part) :
    Piece.write style.write position part.pieces = part.write style position := by
  cases part with
  | value scalar => simp [pieces, write, Piece.write]
  | plain | question | statement => rfl

theorem write_flatMap_pieces (style : PlaceholderStyle) (position : Nat) {parts : List Part}
    (counted : ∀ part ∈ parts, part.pieces.count .parameter = part.values.length) :
    Piece.write style.write position (parts.flatMap pieces) = number style position parts := by
  induction parts generalizing position with
  | nil => rfl
  | cons part rest ih =>
      obtain ⟨here, later⟩ := List.forall_mem_cons.1 counted
      rw [List.flatMap_cons, Piece.write_append, write_pieces, here, ih _ later]
      rfl

end Part

/-- The statement of a template whose values are numbered while its tokens are read. -/
def Template.numbered (t : Template) (writer : Writer) (style : PlaceholderStyle) :
    Except CompileError Rendered :=
  (t.draft writer).parts.map fun parts =>
    ⟨Part.number style 0 parts, parts.flatMap Part.values⟩

/--
Numbering a compiled template gives what numbering in one pass gives.  The
placeholders are question marks, or the numbers from one behind the sign of the
style.
-/
theorem Template.numbered_eq_native {t : Template} {engine : Engine} {s : Statement}
    (plain : engine ≠ .postgreSQL)
    (closed : ∀ argument ∈ t.arguments.held, argument.Closed engine.stringRule)
    (compiled : t.compileWith engine.writer = .ok s) (style : PlaceholderStyle) :
    t.numbered engine.writer style = .ok (s.native style) ∧
      s.parameterCount = s.values.length ∧
      (∀ position text, style.Marks (position + 1) text ↔ text = style.write position) ∧
      ∀ first second, style.write first = style.write second ↔
        style = .question ∨ first = second := by
  obtain ⟨parts, drafted, pieces, values, counted⟩ :=
    exists_parts_of_closed plain closed compiled
  refine ⟨?_, ?_, fun _ _ => PlaceholderStyle.marks_iff,
    fun _ _ => PlaceholderStyle.write_eq_write_iff⟩
  · rw [numbered, Draft.parts_eq_ok_iff.2 drafted, Statement.native, pieces, values,
      Part.write_flatMap_pieces style 0 counted]
    rfl
  · rw [Statement.parameterCount, pieces, values, Part.count_flatMap_pieces counted]

/-- A template with a list, a nested template and a nested statement. -/
def Template.nested : Template where
  text := "'?' \\? ? in (?) or ?".toList
  arguments := .positional
    [.list [.scalar (.unsigned 1), .scalar (.unsigned 2)],
     .template "select '\\' from ??, ?".toList
       (.positional [.scalar (.string "u.id".toList), .scalar .null]),
     .statement { text := "a = ? \\?".toList, values := [.unsigned 3] }]
  engine := .sqlite

theorem Template.nested_compiles :
    (nested.compileWith Engine.sqlite.writer).map Statement.text =
      .ok "'?' \\? ?, ? in (select '\\' from \"u\".\"id\", ?) or a = ? \\?".toList := by
  decide +kernel

theorem Template.nested_closed :
    ∀ argument ∈ nested.arguments.held, argument.Closed Engine.sqlite.stringRule := by
  have fragment : Engine.sqlite.stringRule.Closes "select '\\' from ??, ?".toList := by
    decide +kernel
  have statement : Engine.sqlite.stringRule.Closes "a = ? \\?".toList := by decide +kernel
  refine List.forall_mem_cons.2 ⟨.list ?_, List.forall_mem_cons.2 ⟨.template fragment ?_,
    List.forall_mem_singleton.2 (.statement rfl statement (by decide +kernel))⟩⟩
  · simp [Argument.Closed.scalar]
  · simp [Arguments.held, Argument.Closed.scalar]

/-- The values of all fragments are numbered in one sequence. -/
theorem Template.numbered_nested :
    ∃ s, nested.compileWith Engine.sqlite.writer = .ok s ∧
      nested.numbered Engine.sqlite.writer .dollar = .ok (s.native .dollar) ∧
      s.parameterCount = s.values.length ∧
      (s.native .dollar).text =
        "'?' ? $1, $2 in (select '\\' from \"u\".\"id\", $3) or a = $4 ?".toList := by
  obtain ⟨s, compiled, -⟩ := exists_of_map_compileWith nested_compiles
  obtain ⟨numbers, counted, -⟩ := numbered_eq_native (by decide) nested_closed compiled .dollar
  have shown : (nested.numbered Engine.sqlite.writer .dollar).map Rendered.text =
      .ok "'?' ? $1, $2 in (select '\\' from \"u\".\"id\", $3) or a = $4 ?".toList := by
    decide +kernel
  rw [numbers] at shown
  exact ⟨s, compiled, numbers, counted, Except.ok.inj shown⟩

end SqlTemplate
