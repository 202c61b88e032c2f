import SqlTemplate.Proofs.Contexts
import SqlTemplate.Proofs.DirectNumbering

/-!
# Fragments and their compiled forms

Literals reach a text by two ways: they are written while the tokens of a
template are read, or they are filled into the places that are found in a
compiled text.  Both write the same literals at the same places and stop at the
same failure, and so a fragment can be exchanged for the statement it compiles
to, wherever it stands.
-/

namespace SqlTemplate

variable {writer : Writer} {parameter : Nat → Except CompileError Text} {position : Nat}

/-- From a position on, parameters stand for the literals of values. -/
def LiteralsFrom (writer : Writer) (parameter : Nat → Except CompileError Text)
    (position : Nat) (values : List Scalar) : Prop :=
  ∀ i value, values[i]? = some value → parameter (position + i) = writer.literal value

theorem LiteralsFrom.left {first second : List Scalar}
    (literals : LiteralsFrom writer parameter position (first ++ second)) :
    LiteralsFrom writer parameter position first := by
  intro i value found
  obtain ⟨below, -⟩ := List.getElem?_eq_some_iff.1 found
  exact literals i value (by rwa [List.getElem?_append_left below])

theorem LiteralsFrom.right {first second : List Scalar}
    (literals : LiteralsFrom writer parameter position (first ++ second)) :
    LiteralsFrom writer parameter (position + first.length) second := by
  intro i value found
  have shifted : (first ++ second)[first.length + i]? = some value := by
    rwa [List.getElem?_append_right (Nat.le_add_right _ _), Nat.add_sub_cancel_left]
  rw [Nat.add_assoc]
  exact literals _ value shifted

theorem Statement.literalsFrom (s : Statement) (writer : Writer) :
    LiteralsFrom writer (s.literalAt writer) 0 s.values := by
  intro i value found
  rw [Nat.zero_add, literalAt, found]

namespace Part

theorem fill_pieces {part : Part}
    (counted : part.pieces.count .parameter = part.values.length)
    (literals : LiteralsFrom writer parameter position part.values) :
    (Piece.fill parameter position part.pieces).map Rendered.plain =
      part.render writer .inline := by
  cases part with
  | plain char => rfl
  | question => rfl
  | value scalar =>
      have here : parameter position = writer.literal scalar := literals 0 scalar rfl
      simp only [pieces, Piece.fill, render, Template.renderScalar, here]
      cases writer.literal scalar with
      | error failure => rfl
      | ok text => simp [Except.map]
  | statement compiled =>
      have agree : ∀ i < compiled.pieces.count .parameter,
          parameter (position + i) = compiled.literalAt writer (0 + i) := by
        intro i below
        have inValues : i < compiled.values.length := Nat.lt_of_lt_of_eq below counted
        have found := List.getElem?_eq_getElem inValues
        rw [literals i _ found, compiled.literalsFrom writer i _ found]
      rw [pieces, Piece.fill_congr agree]
      rfl

/-- Filling the pieces of parts writes the parts, up to the first failure. -/
theorem fill_flatMap_pieces {parts : List Part}
    (counted : ∀ part ∈ parts, part.pieces.count .parameter = part.values.length)
    (literals : LiteralsFrom writer parameter position (parts.flatMap values)) :
    (Piece.fill parameter position (parts.flatMap pieces)).map Rendered.plain =
      Draft.render writer .inline (parts.map .ok) := by
  induction parts generalizing position with
  | nil => rfl
  | cons part rest ih =>
      obtain ⟨here, later⟩ := List.forall_mem_cons.1 counted
      rw [List.flatMap_cons] at literals
      have front := fill_pieces here literals.left
      have back := ih later literals.right
      rw [List.map_cons, Draft.render_cons, Draft.renderPlace, ← front, ← back,
        List.flatMap_cons, Piece.fill_append, here]
      cases Piece.fill parameter position part.pieces with
      | error failure => rfl
      | ok text =>
          cases Piece.fill parameter (position + part.values.length) (rest.flatMap pieces) <;> rfl

end Part

/-- A fragment and its statement write the same literals, or fail alike. -/
theorem Template.render_inline_of_compileWith {t : Template} {engine : Engine} {s : Statement}
    (plain : engine ≠ .postgreSQL)
    (closed : ∀ argument ∈ t.arguments.held, argument.Closed engine.stringRule)
    (compiled : t.compileWith engine.writer = .ok s) :
    s.render engine.writer .inline = t.render engine.writer .inline := by
  obtain ⟨parts, drafted, pieces, values, counted⟩ :=
    exists_parts_of_closed plain closed compiled
  have literals := s.literalsFrom engine.writer
  rw [values] at literals
  rw [Template.render_draft, drafted, ← Part.fill_flatMap_pieces counted literals, ← pieces]
  rfl

theorem Template.render_parameterized_of_compileWith {t : Template} {writer : Writer}
    {s : Statement} (compiled : t.compileWith writer = .ok s) :
    s.render writer .parameterized = t.render writer .parameterized := by
  unfold compileWith at compiled
  cases rendered : t.render writer .parameterized with
  | error failure => simp [rendered, Except.map] at compiled
  | ok result =>
      rw [rendered] at compiled
      obtain rfl := Except.ok.inj compiled
      rfl

/--
A fragment and the statement it compiles to are interchangeable: alone with
literals, and in every template in which one or the other is put.
-/
theorem Statement.exchange_fragment {t : Template} {engine : Engine} {s : Statement}
    (plain : engine ≠ .postgreSQL)
    (closed : ∀ argument ∈ t.arguments.held, argument.Closed engine.stringRule)
    (compiled : t.compileWith engine.writer = .ok s) :
    s.render engine.writer .inline = t.render engine.writer .inline ∧
      ∀ (outer : Template) (context : Arguments.Context),
        let withStatement := { outer with arguments := context.plug (.statement s) }
        let withFragment := { outer with arguments := context.plug t.toArgument }
        withStatement.inlineWith engine.writer = withFragment.inlineWith engine.writer ∧
          withStatement.compileWith engine.writer = withFragment.compileWith engine.writer := by
  have inline := Template.render_inline_of_compileWith plain closed compiled
  have same : Argument.Interchangeable engine.writer (.statement s) t.toArgument := by
    refine ⟨fun mode => ?_, fun key => rfl, fun key => rfl⟩
    cases mode with
    | inline => exact inline
    | parameterized => exact Template.render_parameterized_of_compileWith compiled
  refine ⟨inline, fun outer context => ?_⟩
  have render (mode : Mode) :
      Template.render { outer with arguments := context.plug (.statement s) } engine.writer mode =
        Template.render { outer with arguments := context.plug t.toArgument } engine.writer mode :=
    (same.inContext (.template outer.text context)).render mode
  constructor
  · simp only [Template.inlineWith, render]
  · simp only [Template.compileWith, render]

/-- In a list between parentheses the nested template and its statement read alike. -/
theorem Statement.exchange_nested :
    ∃ s, Template.nested.compileWith Engine.sqlite.writer = .ok s ∧
      s.render Engine.sqlite.writer .inline =
        Template.nested.render Engine.sqlite.writer .inline ∧
      Template.inlineWith
          { text := "(?)".toList
            arguments := .positional [.list [.statement s]]
            engine := .sqlite } Engine.sqlite.writer =
        Template.inlineWith
          { text := "(?)".toList
            arguments := .positional [.list [Template.nested.toArgument]]
            engine := .sqlite } Engine.sqlite.writer := by
  obtain ⟨s, compiled, -⟩ := Template.exists_of_map_compileWith Template.nested_compiles
  have exchanged := exchange_fragment (by decide) Template.nested_closed compiled
  let outer : Template := { text := "(?)".toList, engine := .sqlite }
  have inList := exchanged.2 outer (.positional [] (.list [] .hole []) [])
  exact ⟨s, compiled, exchanged.1, inList.1⟩

end SqlTemplate
