import SqlTemplate.Proofs.Agreement

/-!
# Equal templates

Equality of templates is coarser than identity: the two zeros are equal, and so
are moments that are one instant, whatever their offsets.  Nothing of this is
seen in a text with parameters, and so equal templates compile to equal
statements, or fail with the same error.
-/

namespace SqlTemplate

theorem forall₂_beq_iff {α : Type} [BEq α] {first second : List α} :
    (first == second) = true ↔ List.Forall₂ (fun a b => (a == b) = true) first second := by
  induction first generalizing second with
  | nil => cases second <;> simp
  | cons a rest ih =>
      cases second with
      | nil => simp
      | cons b others => rw [List.cons_beq_cons, Bool.and_eq_true, ih, List.forall₂_cons]

namespace Argument

variable {argument twin : Argument} {items twins : List Argument}

theorem equalItems_iff_forall₂ :
    equal.equalItems items twins = true ↔
      List.Forall₂ (fun a b => (a == b) = true) items twins := by
  induction items generalizing twins with
  | nil => cases twins <;> simp [equal.equalItems]
  | cons a rest ih =>
      cases twins with
      | nil => simp [equal.equalItems]
      | cons b others =>
          rw [equal.equalItems, Bool.and_eq_true, ih, List.forall₂_cons]
          rfl

/-- Equal arguments are equal scalars, or lists of equal arguments. -/
inductive Equal : Argument → Argument → Prop where
  | scalar {value other : Scalar} (same : (value == other) = true) :
      Equal (.scalar value) (.scalar other)
  | list {items twins : List Argument}
      (same : List.Forall₂ (fun a b => (a == b) = true) items twins) :
      Equal (.list items) (.list twins)

theorem equal_of_beq (same : (argument == twin) = true) : argument.Equal twin := by
  cases argument with
  | scalar value =>
      cases twin with
      | scalar other => exact .scalar same
      | list | template | statement => cases same
  | list items =>
      cases twin with
      | list twins => exact .list (equalItems_iff_forall₂.1 same)
      | scalar | template | statement => cases same
  | template | statement => cases twin <;> cases same

end Argument

namespace Scalar

variable {value other : Scalar}

/-- Equal scalars are the same, or equal numbers, or equal moments. -/
inductive Equal : Scalar → Scalar → Prop where
  | same {value other : Scalar} (same : value = other) : Equal value other
  | float {x y : Binary64} (same : (x == y) = true) : Equal (.float x) (.float y)
  | moment {m n : Moment} (same : (m == n) = true) : Equal (.moment m) (.moment n)

theorem equal_of_beq (same : (value == other) = true) : value.Equal other := by
  cases value <;> cases other <;> first
    | exact .float same
    | exact .moment same
    | exact .same rfl
    | exact .same (congrArg _ (eq_of_beq same))
    | cases same

theorem text?_eq_of_beq (same : (value == other) = true) :
    value.text? = other.text? ∧ value.kind = other.kind := by
  cases equal_of_beq same with
  | same equal => exact ⟨congrArg text? equal, congrArg kind equal⟩
  | float | moment => exact ⟨rfl, rfl⟩

end Scalar

def Rendered.Equal (first second : Rendered) : Prop :=
  first.text = second.text ∧ (first.values == second.values) = true

theorem Rendered.congruence_equal : Congruence Equal where
  plain text := ⟨rfl, rfl⟩
  append same other := by
    obtain ⟨text, values⟩ := same
    obtain ⟨behind, others⟩ := other
    constructor
    · rw [text_append, text_append, text, behind]
    · exact forall₂_beq_iff.2
        (List.rel_append (forall₂_beq_iff.1 values) (forall₂_beq_iff.1 others))

/-- Attempts that fail with one error, or succeed with equal pieces. -/
abbrev SameRendering :
    Except CompileError Rendered → Except CompileError Rendered → Prop :=
  Agree Eq Rendered.Equal

namespace Argument

variable {argument twin : Argument} {writer : Writer}

theorem samePath_of_beq (same : (argument == twin) = true) : argument.SamePath twin := by
  cases equal_of_beq same with
  | scalar value => exact Scalar.text?_eq_of_beq value
  | list => exact ⟨rfl, rfl⟩

/-- Equal arguments stand for the same text, with equal values as parameters. -/
theorem sameRendering_of_beq (same : (argument == twin) = true) :
    SameRendering (argument.render writer .parameterized) (twin.render writer .parameterized) := by
  induction argument using nested_induction generalizing twin with
  | scalar value =>
      cases equal_of_beq same with
      | scalar value => exact .ok ⟨rfl, forall₂_beq_iff.2 (.cons value .nil)⟩
  | list items ih =>
      cases equal_of_beq same with
      | list itemwise =>
          rw [render, render, slotItems_eq, slotItems_eq, List.map_map, List.map_map]
          apply Agree.commaSeparated Rendered.congruence_equal
          apply List.forall₂_map_left_iff.2
          apply List.forall₂_map_right_iff.2
          exact ((List.forall₂_and_left _ _).2 ⟨ih, itemwise⟩).imp fun _ _ both => both.1 both.2
  | template text arguments => cases equal_of_beq same
  | statement compiled => cases equal_of_beq same

theorem renderIdentifier_of_beq (key : Key) (same : (argument == twin) = true) :
    SameRendering (Template.renderIdentifier writer key argument)
      (Template.renderIdentifier writer key twin) := by
  have path := samePath_of_beq same
  cases equal_of_beq same with
  | scalar => exact .renderPath Rendered.congruence_equal (fun _ => rfl) path
  | list itemwise =>
      apply Agree.renderIdentifier_list Rendered.congruence_equal fun _ => rfl
      exact itemwise.imp fun _ _ => samePath_of_beq

end Argument

namespace Arguments

variable {first second : Arguments Argument}

/-- Equal arguments are equal item by item, or equal under equal names. -/
inductive Equal : Arguments Argument → Arguments Argument → Prop where
  | positional {items others : List Argument}
      (same : List.Forall₂ (fun a b => (a == b) = true) items others) :
      Equal (.positional items) (.positional others)
  | named {entries others : List (Text × Argument)}
      (same : List.Forall₂ (fun a b => a.1 = b.1 ∧ (a.2 == b.2) = true) entries others) :
      Equal (.named entries) (.named others)

theorem equal_of_beq (same : (first == second) = true) : first.Equal second := by
  cases first with
  | positional items =>
      cases second with
      | positional others => exact .positional (forall₂_beq_iff.1 same)
      | named => cases same
  | named entries =>
      cases second with
      | positional => cases same
      | named others =>
          refine .named ((forall₂_beq_iff.1 same).imp fun a b equal => ?_)
          obtain ⟨name, argument⟩ := Bool.and_eq_true_iff.1 equal
          exact ⟨eq_of_beq name, argument⟩

namespace Equal

theorem style_eq (equal : first.Equal second) : first.style = second.style := by
  cases equal <;> rfl

theorem isPlain_eq {α : Type} (equal : first.Equal second) (slot : Argument → Slot α) (key : Key) :
    Slot.isPlain (first.map slot) key = Slot.isPlain (second.map slot) key := by
  cases equal with
  | positional same => cases same <;> cases key <;> rfl
  | named => rfl

theorem find? (equal : first.Equal second) (key : Key) :
    Option.Rel (fun a b => (a == b) = true) (first.find? key) (second.find? key) := by
  cases equal with
  | positional same =>
      cases key with
      | name word => exact .none
      | index position =>
          change Option.Rel _ _[position]? _[position]?
          induction same generalizing position with
          | nil => exact .none
          | cons here _ ih =>
              cases position with
              | zero => exact .some here
              | succ position => exact ih position
  | named same =>
      cases key with
      | index position => exact .none
      | name word =>
          change Option.Rel _ (KeyMap.find? word _) (KeyMap.find? word _)
          induction same with
          | nil => exact .none
          | @cons a b _ _ here _ ih =>
              rw [KeyMap.find?, KeyMap.find?, here.1]
              split
              · exact .some here.2
              · exact ih

end Equal

end Arguments

namespace Template

variable {writer : Writer} {first second : Arguments Argument} {t u : Template}

theorem renderMarker_of_equal (equal : first.Equal second) (marker : Marker) :
    SameRendering
      (renderMarker writer (first.map (Argument.slot writer .parameterized)) marker)
      (renderMarker writer (second.map (Argument.slot writer .parameterized)) marker) := by
  obtain ⟨role, key⟩ := marker
  have sameShape := equal.isPlain_eq (Argument.slot writer .parameterized) key
  cases plain : Slot.isPlain (second.map (Argument.slot writer .parameterized)) key with
  | true =>
      rw [renderMarker, renderMarker, sameShape, plain]
      exact .ok (Rendered.congruence_equal.plain _)
  | false =>
      have shape := sameShape.trans plain
      have found := equal.find? key
      generalize atFirst : first.find? key = argument? at found
      generalize atSecond : second.find? key = twin? at found
      cases found with
      | none =>
          rw [renderMarker_of_find?_none shape atFirst, renderMarker_of_find?_none plain atSecond,
            equal.style_eq]
          exact .error rfl
      | some same =>
          rw [renderMarker_of_find? shape atFirst, renderMarker_of_find? plain atSecond]
          cases role with
          | value => exact Argument.sameRendering_of_beq same
          | identifier => exact Argument.renderIdentifier_of_beq key same

theorem renderText_of_equal (writer : Writer) (equal : first.Equal second) (text : Text) :
    SameRendering
      (renderText writer .parameterized text (first.map (Argument.slot writer .parameterized)))
      (renderText writer .parameterized text
        (second.map (Argument.slot writer .parameterized))) := by
  apply Agree.concat Rendered.congruence_equal
  apply List.forall₂_map_left_iff.2
  apply List.forall₂_map_right_iff.2
  apply List.forall₂_same.2
  intro token _
  cases token with
  | literal text => exact .ok (Rendered.congruence_equal.plain text)
  | escaped sign => cases sign <;> exact .ok (Rendered.congruence_equal.plain _)
  | marker place => exact renderMarker_of_equal equal place

/-- Equal templates compile to equal statements, or fail with the same error, for every writer. -/
theorem compile_congr (same : (t == u) = true) :
    (∀ writer, Agree Eq (fun r s => (r == s) = true) (t.compileWith writer)
        (u.compileWith writer)) ∧
      Agree Eq (fun r s => (r == s) = true) t.compile u.compile := by
  obtain ⟨⟨⟨text, arguments⟩, hints⟩, engine⟩ :
      ((t.text = u.text ∧ (t.arguments == u.arguments) = true) ∧ (t.hints == u.hints) = true) ∧
        t.engine = u.engine := by
    have fields : (t.text == u.text && t.arguments == u.arguments && t.hints == u.hints &&
        t.engine == u.engine) = true := same
    simpa [and_assoc] using fields
  have compileWith (writer : Writer) :
      Agree Eq (fun r s => (r == s) = true) (t.compileWith writer) (u.compileWith writer) := by
    have rendered := renderText_of_equal writer (Arguments.equal_of_beq arguments) t.text
    rw [Template.compileWith, Template.compileWith, render_eq, render_eq, ← text]
    refine rendered.map fun r s equal => ?_
    obtain ⟨sameText, sameValues⟩ := equal
    have fields : (r.text == s.text && r.values == s.values && t.hints == u.hints &&
        writer.placeholders == writer.placeholders &&
          writer.stringRule == writer.stringRule) = true := by
      rw [sameText, sameValues, hints]
      simp
    exact fields
  refine ⟨compileWith, ?_⟩
  rw [compile, compile, ← engine]
  exact compileWith t.engine.writer

/-- The first of January 1970 by a clock that shows a time and is ahead by a number of seconds. -/
def newYear (clock : ClockTime) (offset : ZoneOffset) : Argument :=
  .scalar (.moment
    ⟨⟨⟨1970, 1, 1, by decide, by decide, by decide⟩, clock⟩, offset, none⟩)

/-- A zero, and a list that ends with midnight at the start of 1970. -/
def midnightRow : Template where
  text := "values (:n, :m)".toList
  arguments := .ofPairs
    [(['n'], .scalar (.float ⟨0⟩)),
     (['m'], .list [.scalar .null, newYear .midnight ⟨0, by decide⟩])]
  engine := .oracle

/-- The negative zero, and the same instant as an hour after midnight, with the names in another order. -/
def oneOClockRow : Template where
  text := "values (:n, :m)".toList
  arguments := .ofPairs
    [(['m'], .list [.scalar .null, newYear ⟨3600000000000, by decide⟩ ⟨3600, by decide⟩]),
     (['n'], .scalar (.float ⟨0x8000000000000000⟩))]
  engine := .oracle

/-- The two rows are equal and compile to equal statements, although literals tell them apart. -/
theorem compile_congr_rows :
    (midnightRow == oneOClockRow) = true ∧
      Agree Eq (fun r s => (r == s) = true) midnightRow.compile oneOClockRow.compile ∧
      midnightRow.compile.map Statement.text = .ok "values (?, ?, ?)".toList ∧
      midnightRow.inline ≠ oneOClockRow.inline := by
  have equal : (midnightRow == oneOClockRow) = true := by decide +kernel
  exact ⟨equal, (compile_congr equal).2, by decide +kernel, by decide +kernel⟩

end Template

end SqlTemplate
