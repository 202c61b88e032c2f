import SqlTemplate.Proofs.Collecting
import SqlTemplate.Proofs.Interchange

/-!
# Agreement of the two modes

With parameters a template fails at the first marker that does not get what it
asks for.  With literals it also fails at a value that has no literal.  Both
modes walk along the same draft from left to right, and so the values that are
collected in one mode tell what becomes of the template in the other: it fails
at the first of them without a literal, and else where it failed before.
-/

namespace SqlTemplate

section Outcome

variable {ε α β γ : Type}

/-- What remains of a result when only its failure matters. -/
def outcome (result : Except ε α) : Except ε Unit :=
  result.map fun _ => ()

@[simp] theorem outcome_ok (value : α) : outcome (.ok value : Except ε α) = .ok () := rfl

@[simp] theorem outcome_error (failure : ε) :
    outcome (.error failure : Except ε α) = .error failure := rfl

@[simp] theorem outcome_map (f : α → β) (result : Except ε α) :
    outcome (result.map f) = outcome result := by
  cases result <;> rfl

theorem outcome_bind_map (join : α → β → γ) (first : Except ε α) (second : Except ε β) :
    outcome (first.bind fun front => second.map (join front)) =
      (outcome first).bind fun _ => outcome second := by
  cases first with
  | error failure => rfl
  | ok front => exact outcome_map (join front) second

theorem outcome_eq_ok_iff {result : Except ε α} :
    outcome result = .ok () ↔ ∃ value, result = .ok value := by
  cases result <;> simp [outcome, Except.map]

theorem outcome_eq_error_iff {result : Except ε α} {failure : ε} :
    outcome result = .error failure ↔ result = .error failure := by
  cases result <;> simp [outcome, Except.map]

end Outcome

namespace Writer

variable (writer : Writer)

def Writes (value : Scalar) : Prop :=
  ∃ text, writer.literal value = .ok text

/-- The first of some values that has no literal fails in this way. -/
def FailsAmong (values : List Scalar) (failure : CompileError) : Prop :=
  ∃ front value back, values = front ++ value :: back ∧
    (∀ earlier ∈ front, writer.Writes earlier) ∧ writer.literal value = .error failure

/-- Write the literals of values from left to right, and tell only whether it fails. -/
def attempt : List Scalar → Except CompileError Unit
  | [] => .ok ()
  | value :: rest => (writer.literal value).bind fun _ => attempt rest

theorem attempt_append (first second : List Scalar) :
    writer.attempt (first ++ second) =
      (writer.attempt first).bind fun _ => writer.attempt second := by
  induction first with
  | nil => rfl
  | cons value rest ih =>
      rw [List.cons_append, attempt, attempt, ih]
      cases writer.literal value <;> rfl

variable {writer}

theorem attempt_eq_ok_iff {values : List Scalar} :
    writer.attempt values = .ok () ↔ ∀ value ∈ values, writer.Writes value := by
  induction values with
  | nil => exact iff_of_true rfl (by simp)
  | cons value rest ih =>
      rw [List.forall_mem_cons, ← ih, attempt, Writes]
      cases writer.literal value with
      | error failure => simp [Except.bind]
      | ok text => simp [Except.bind]

theorem failsAmong_of_attempt {values : List Scalar} {failure : CompileError}
    (failed : writer.attempt values = .error failure) : writer.FailsAmong values failure := by
  induction values with
  | nil => cases failed
  | cons value rest ih =>
      rw [attempt] at failed
      cases written : writer.literal value with
      | error other =>
          rw [written] at failed
          obtain rfl := Except.error.inj failed
          exact ⟨[], value, rest, rfl, by simp, written⟩
      | ok text =>
          rw [written] at failed
          obtain ⟨front, first, back, rfl, writes, here⟩ := ih failed
          refine ⟨value :: front, first, back, rfl, ?_, here⟩
          exact List.forall_mem_cons.2 ⟨⟨text, written⟩, writes⟩

theorem attempt_eq_error_iff {values : List Scalar} {failure : CompileError} :
    writer.attempt values = .error failure ↔ writer.FailsAmong values failure := by
  constructor
  · exact failsAmong_of_attempt
  · rintro ⟨front, value, back, rfl, writes, failed⟩
    rw [attempt_append, attempt_eq_ok_iff.2 writes]
    change writer.attempt (value :: back) = .error failure
    rw [attempt, failed]
    rfl

end Writer

variable {writer : Writer}

/-- Filling a text with a place for every value fails like writing the values. -/
theorem Piece.outcome_fill {parameter : Nat → Except CompileError Text} {position : Nat}
    {pieces : List Piece} {values : List Scalar}
    (counted : pieces.count .parameter = values.length)
    (literals : LiteralsFrom writer parameter position values) :
    outcome (fill parameter position pieces) = writer.attempt values := by
  induction pieces generalizing position values with
  | nil =>
      obtain rfl := List.eq_nil_of_length_eq_zero counted.symm
      rfl
  | cons piece rest ih =>
      cases piece with
      | plain c =>
          rw [fill, outcome_map]
          exact ih (by simpa using counted) literals
      | question =>
          rw [fill, outcome_map]
          exact ih (by simpa using counted) literals
      | parameter =>
          rw [List.count_cons_self] at counted
          cases values with
          | nil => cases counted
          | cons value later =>
              have here : parameter position = writer.literal value := literals 0 value rfl
              have whole : LiteralsFrom writer parameter position ([value] ++ later) := literals
              have behind : LiteralsFrom writer parameter (position + 1) later := whole.right
              rw [fill, here, Writer.attempt]
              cases writer.literal value with
              | error failure => rfl
              | ok text =>
                  exact (outcome_map _ _).trans (ih (Nat.succ.inj counted) behind)

namespace Part

theorem outcome_render {part : Part}
    (counted : part.pieces.count .parameter = part.values.length) :
    outcome (part.render writer .inline) = writer.attempt part.values := by
  cases part with
  | plain char => rfl
  | question => rfl
  | value scalar =>
      simp only [render, Template.renderScalar, outcome_map, values, Writer.attempt]
      cases writer.literal scalar <;> rfl
  | statement compiled =>
      simp only [render, Statement.render, outcome_map]
      exact Piece.outcome_fill counted (compiled.literalsFrom writer)

theorem values_render_inline {part : Part} {rendered : Rendered}
    (written : part.render writer .inline = .ok rendered) : rendered.values = [] := by
  have plain {result : Except CompileError Text}
      (same : result.map Rendered.plain = .ok rendered) : rendered.values = [] := by
    obtain ⟨text, -, rfl⟩ := exists_of_map_eq_ok same
    rfl
  cases part with
  | plain char =>
      obtain rfl := Except.ok.inj written
      rfl
  | question =>
      obtain rfl := Except.ok.inj written
      rfl
  | value scalar => exact plain written
  | statement compiled => exact plain written

end Part

namespace Draft

theorem outcome_render {parts : List Part}
    (counted : ∀ part ∈ parts, part.pieces.count .parameter = part.values.length) :
    outcome (render writer .inline (parts.map .ok)) =
      writer.attempt (parts.flatMap Part.values) := by
  induction parts with
  | nil => rfl
  | cons part rest ih =>
      obtain ⟨here, later⟩ := List.forall_mem_cons.1 counted
      rw [List.map_cons, render_cons, outcome_bind_map, List.flatMap_cons, Writer.attempt_append,
        ih later, renderPlace, Part.outcome_render here]

theorem values_render_inline {draft : Draft} {rendered : Rendered}
    (written : draft.render writer .inline = .ok rendered) : rendered.values = [] := by
  induction draft generalizing rendered with
  | nil =>
      obtain rfl := Except.ok.inj written
      rfl
  | cons place rest ih =>
      obtain ⟨first, later, front, back, rfl⟩ := render_cons_eq_ok_iff.1 written
      cases place with
      | error failure => cases front
      | ok part =>
          rw [Rendered.values_append, Part.values_render_inline front, ih back]
          rfl

end Draft

/--
What becomes of a template with literals is told by the other mode.  If it
compiles, it is written exactly when all collected values have literals, and
fails like the first that has none.  If it does not compile, it fails in the
same way, unless a value in front of the failing place has no literal: then it
fails like the first of these.
-/
theorem Template.modes_agree {t : Template}
    (complete : ∀ argument ∈ t.arguments.held, argument.Complete) (writer : Writer) :
    (∀ compiled, t.render writer .parameterized = .ok compiled →
        ((∃ written, t.render writer .inline = .ok written) ↔
          ∀ value ∈ compiled.values, writer.Writes value) ∧
        ∀ failure, t.render writer .inline = .error failure ↔
          writer.FailsAmong compiled.values failure) ∧
      (∀ failure, t.render writer .parameterized = .error failure →
        ∃ (front : List Part) (back : Draft),
          t.draft writer = front.map .ok ++ .error failure :: back ∧
          ∃ first, t.render writer .inline = .error first ∧
            (writer.FailsAmong (front.flatMap Part.values) first ∨
              first = failure ∧
                ∀ value ∈ front.flatMap Part.values, writer.Writes value)) ∧
      ∀ written, t.render writer .inline = .ok written → written.values = [] := by
  have inline : t.render writer .inline = (t.draft writer).render writer .inline :=
    Argument.render_eq_render_draft writer .inline t.toArgument
  have counted {part : Part} (member : .ok part ∈ t.draft writer) :=
    counted_of_complete complete member
  refine ⟨fun compiled rendered => ?_, fun failure failed => ?_, fun written same => ?_⟩
  · obtain ⟨parts, drafted, rfl⟩ := render_parameterized_eq_ok_iff.1 rendered
    have fails : outcome (t.render writer .inline) =
        writer.attempt (parts.flatMap Part.values) := by
      rw [inline, drafted]
      exact Draft.outcome_render fun part member =>
        counted (drafted ▸ List.mem_map_of_mem member)
    constructor
    · rw [← outcome_eq_ok_iff, fails, Writer.attempt_eq_ok_iff]
    · intro failure
      rw [← outcome_eq_error_iff, fails, Writer.attempt_eq_error_iff]
  · obtain ⟨front, back, drafted⟩ := exists_of_render_parameterized_eq_error failed
    have fails : outcome (t.render writer .inline) =
        (writer.attempt (front.flatMap Part.values)).bind fun _ => .error failure := by
      have here : outcome (Draft.render writer .inline (front.map .ok)) =
          writer.attempt (front.flatMap Part.values) :=
        Draft.outcome_render fun part member =>
          counted (drafted ▸ List.mem_append_left _ (List.mem_map_of_mem member))
      rw [inline, drafted, Draft.render_append, outcome_bind_map, here]
      rfl
    refine ⟨front, back, drafted, ?_⟩
    cases attempted : writer.attempt (front.flatMap Part.values) with
    | error first =>
        rw [attempted] at fails
        have among := Writer.attempt_eq_error_iff.1 attempted
        exact ⟨first, outcome_eq_error_iff.1 fails, .inl among⟩
    | ok done =>
        rw [attempted] at fails
        have writes := Writer.attempt_eq_ok_iff.1 attempted
        exact ⟨failure, outcome_eq_error_iff.1 fails, .inr ⟨rfl, writes⟩⟩
  · rw [inline] at same
    exact Draft.values_render_inline same

/-- Bytes inside a nested statement, in front of an identifier marker that gets no path. -/
def Template.refused : Template where
  text := "select ? from ??".toList
  arguments := .positional
    [.list [.scalar .null, .statement { text := "length(?)".toList, values := [.bytes [1]] }],
     .scalar (.boolean true)]
  engine := .doris

/-- The engine has no literal for the bytes, and with literals they fail before the identifier. -/
theorem Template.modes_agree_refused :
    (∀ argument ∈ refused.arguments.held, argument.Complete) ∧
      refused.render Engine.doris.writer .parameterized =
        .error (.notIdentifier (.index 1) .boolean) ∧
      refused.render Engine.doris.writer .inline = .error (.noLiteral .doris .bytes) ∧
      ∃ (front : List Part) (back : Draft), refused.draft Engine.doris.writer =
          front.map .ok ++ .error (.notIdentifier (.index 1) .boolean) :: back ∧
        Engine.doris.writer.FailsAmong (front.flatMap Part.values) (.noLiteral .doris .bytes) := by
  have complete : ∀ argument ∈ refused.arguments.held, argument.Complete := by
    refine List.forall_mem_cons.2 ⟨.list ?_, List.forall_mem_singleton.2 (.scalar _)⟩
    refine List.forall_mem_cons.2 ⟨.scalar _, List.forall_mem_singleton.2 (.statement ?_)⟩
    decide +kernel
  have failed : refused.render Engine.doris.writer .parameterized =
      .error (.notIdentifier (.index 1) .boolean) :=
    outcome_eq_error_iff.1 (by decide +kernel)
  have inline : refused.render Engine.doris.writer .inline = .error (.noLiteral .doris .bytes) :=
    outcome_eq_error_iff.1 (by decide +kernel)
  obtain ⟨front, back, drafted, first, same, agrees⟩ :=
    (modes_agree complete Engine.doris.writer).2.1 _ failed
  obtain rfl := Except.error.inj (inline.symm.trans same)
  refine ⟨complete, failed, inline, front, back, drafted, agrees.resolve_right ?_⟩
  rintro ⟨other, -⟩
  cases other

end SqlTemplate
