import SqlTemplate.Proofs.ModeAgreement
import SqlTemplate.Proofs.Skeleton

/-!
# Statements with literals

A statement is put together by hand as well as by compiling, and then it may
have more places than values, or values that have no literals.  With literals
its places are filled from left to right.  They are found before any literal is
written, so question marks and quotes in literals are text like any other.
-/

namespace SqlTemplate

section Results

variable {ε α : Type}

theorem bind_guard_eq_ok_iff {result : Except ε α} {failure : ε} {value : α} {enough : Prop}
    [Decidable enough] :
    (result.bind fun first => if enough then .ok first else .error failure) = .ok value ↔
      enough ∧ result = .ok value := by
  cases result with
  | error other => simp [Except.bind]
  | ok first => by_cases holds : enough <;> simp [Except.bind, holds]

theorem bind_guard_eq_error_iff {result : Except ε α} {failure other : ε} {enough : Prop}
    [Decidable enough] :
    (result.bind fun first => if enough then .ok first else .error failure) = .error other ↔
      result = .error other ∨ (∃ value, result = .ok value) ∧ ¬ enough ∧ other = failure := by
  cases result with
  | error first => simp [Except.bind]
  | ok first => by_cases holds : enough <;> simp [Except.bind, holds, eq_comm]

end Results

namespace Writer

variable {writer : Writer}

theorem outcome_mapM_literal (values : List Scalar) :
    outcome (values.mapM writer.literal) = writer.attempt values := by
  induction values with
  | nil => rfl
  | cons value rest ih =>
      rw [mapM_cons_eq, attempt, ← ih]
      cases writer.literal value with
      | error failure => rfl
      | ok text => exact outcome_map (text :: ·) (rest.mapM writer.literal)

theorem exists_mapM_literal_iff {values : List Scalar} :
    (∃ literals, values.mapM writer.literal = .ok literals) ↔
      ∀ value ∈ values, writer.Writes value := by
  rw [← outcome_eq_ok_iff, outcome_mapM_literal, attempt_eq_ok_iff]

theorem mapM_literal_eq_error_iff {values : List Scalar} {failure : CompileError} :
    values.mapM writer.literal = .error failure ↔ writer.FailsAmong values failure := by
  rw [← outcome_eq_error_iff, outcome_mapM_literal, attempt_eq_error_iff]

theorem map_literal_of_mapM {values : List Scalar} {literals : List Text}
    (written : values.mapM writer.literal = .ok literals) :
    values.map writer.literal = literals.map .ok := by
  induction values generalizing literals with
  | nil =>
      obtain rfl := Except.ok.inj written
      rfl
  | cons value rest ih =>
      rw [mapM_cons_eq] at written
      cases here : writer.literal value with
      | error failure =>
          rw [here] at written
          cases written
      | ok text =>
          rw [here] at written
          obtain ⟨later, behind, rfl⟩ := exists_of_map_eq_ok written
          rw [List.map_cons, List.map_cons, here, ih behind]

end Writer

namespace Statement

variable {s : Statement}

/-- With literals the chunks stand as for a driver. -/
theorem inline_eq (s : Statement) (writer : Writer) :
    s.inline writer =
      ((List.range s.places.length).mapM (s.literalAt writer)).map (Text.weave s.shown) := by
  rw [← parameterCount_eq, List.range_eq_range']
  exact s.aligned_pieces.fill_eq (s.literalAt writer) 0

/-- Of the values from some position on, as many are written as are asked for and are there. -/
theorem mapM_literalAt (s : Statement) (writer : Writer) {position : Nat}
    (inside : position ≤ s.values.length) (count : Nat) :
    (List.range' position count).mapM (s.literalAt writer) =
      (((s.values.drop position).take count).mapM writer.literal).bind fun literals =>
        if position + count ≤ s.values.length then .ok literals
        else .error (.missingArgument (.index s.values.length)) := by
  induction count generalizing position with
  | zero =>
      rw [List.take_zero]
      exact (if_pos inside).symm
  | succ count ih =>
      rw [List.range'_succ, mapM_cons_eq]
      rcases Nat.lt_or_eq_of_le inside with below | rfl
      · have here : s.literalAt writer position = writer.literal s.values[position] := by
          rw [literalAt, List.getElem?_eq_getElem below]
        rw [List.drop_eq_getElem_cons below, List.take_succ_cons, mapM_cons_eq, here,
          ih (Nat.succ_le_of_lt below), Nat.succ_add_eq_add_succ]
        cases writer.literal s.values[position] with
        | error failure => rfl
        | ok text =>
            cases ((s.values.drop (position + 1)).take count).mapM writer.literal with
            | error failure => rfl
            | ok literals => exact apply_ite (Except.map (text :: ·)) ..
      · -- No value is left, and so the position that is asked for is the first one without a value.
        have missing : s.literalAt writer s.values.length =
            .error (.missingArgument (.index s.values.length)) := by
          rw [literalAt, List.getElem?_eq_none (Nat.le_refl _)]
        rw [missing, List.drop_length, List.take_nil]
        exact (if_neg (by omega)).symm

/-- The literals of the values that are there are put together before a missing one counts. -/
theorem render_inline_eq (s : Statement) (writer : Writer) :
    s.render writer .inline =
      (((s.values.take s.places.length).mapM writer.literal).bind fun literals =>
        if s.places.length ≤ s.values.length then .ok literals
        else .error (.missingArgument (.index s.values.length))).map fun literals =>
          ⟨Text.weave s.shown literals, []⟩ := by
  have asked := s.mapM_literalAt writer (Nat.zero_le s.values.length) s.places.length
  rw [Nat.zero_add, List.drop_zero, ← List.range_eq_range'] at asked
  rw [render, inline_eq, asked]
  exact map_map_eq _ fun literals => rfl

/--
With literals a statement is written exactly when it has a value for every
place and the values of the places have literals.  Then the literals stand
between the chunks that every driver is given, and no values are left.  Else
it fails like the first value of a place that has no literal.  If all of these
have literals, a value is missing, and the failure tells the position behind
the last one.
-/
theorem render_inline (s : Statement) (writer : Writer) :
    (∀ style, s.native style =
        ⟨Text.weave s.shown ((List.range s.places.length).map style.write), s.values⟩) ∧
      ((∃ rendered, s.render writer .inline = .ok rendered) ↔
        s.places.length ≤ s.values.length ∧
          ∀ value ∈ s.values.take s.places.length, writer.Writes value) ∧
      (∀ rendered, s.render writer .inline = .ok rendered → ∃ literals,
        (s.values.take s.places.length).map writer.literal = literals.map .ok ∧
          rendered = ⟨Text.weave s.shown literals, []⟩) ∧
      ∀ failure, s.render writer .inline = .error failure ↔
        writer.FailsAmong (s.values.take s.places.length) failure ∨
          (∀ value ∈ s.values.take s.places.length, writer.Writes value) ∧
            s.values.length < s.places.length ∧
              failure = .missingArgument (.index s.values.length) := by
  have whole := s.render_inline_eq writer
  refine ⟨s.native_eq, ?_, fun rendered written => ?_, fun failure => ?_⟩
  · rw [← outcome_eq_ok_iff, whole, outcome_map, outcome_eq_ok_iff]
    simp only [bind_guard_eq_ok_iff, exists_and_left, Writer.exists_mapM_literal_iff]
  · rw [whole] at written
    obtain ⟨literals, enough, rfl⟩ := exists_of_map_eq_ok written
    exact ⟨literals, Writer.map_literal_of_mapM (bind_guard_eq_ok_iff.1 enough).2, rfl⟩
  · rw [← outcome_eq_error_iff, whole, outcome_map, outcome_eq_error_iff, bind_guard_eq_error_iff,
      Writer.mapM_literal_eq_error_iff, Writer.exists_mapM_literal_iff, Nat.not_le]

/-- What looks like a place or a quote in a literal is not read again. -/
example :
    ((Statement.render
        { text := "x = ? or y = '?' or z \\? ?".toList
          values := [.string "it's ?".toList, .null, .boolean true] }
        Engine.sqlite.writer .inline).map Rendered.text).toOption =
      some "x = 'it''s ?' or y = '?' or z ? NULL".toList := by
  decide +kernel

end Statement

end SqlTemplate
