import SqlTemplate.Proofs.Agreement
import SqlTemplate.Proofs.Collecting

/-!
# The first fault of a template

A template does not compile when one of its tokens is bad, and the failure is
that of the first bad token.  Only markers are bad.  What makes a marker bad is
told by the arguments alone: by the style in which they are given, by the keys
they have, by what an identifier marker finds, and by the first fault of a
fragment at a value marker.
-/

namespace SqlTemplate

section First

variable {α β ε : Type}

/-- The first item of a list that fails, fails in this way. -/
inductive First (fails : α → ε → Prop) : List α → ε → Prop where
  | here {item : α} {rest : List α} {failure : ε} (fault : fails item failure) :
      First fails (item :: rest) failure
  | later {item : α} {rest : List α} {failure : ε} (fine : ∀ other, ¬ fails item other)
      (behind : First fails rest failure) : First fails (item :: rest) failure

namespace First

variable {fails other : α → ε → Prop} {item : α} {items rest : List α} {failure : ε}

theorem not_nil : ¬ First fails [] failure := nofun

theorem cons_iff :
    First fails (item :: rest) failure ↔
      fails item failure ∨ (∀ other, ¬ fails item other) ∧ First fails rest failure := by
  constructor
  · intro first
    cases first with
    | here fault => exact .inl fault
    | later fine behind => exact .inr ⟨fine, behind⟩
  · rintro (fault | ⟨fine, behind⟩)
    · exact .here fault
    · exact .later fine behind

theorem exists_iff :
    (∃ failure, First fails items failure) ↔ ∃ item ∈ items, ∃ failure, fails item failure := by
  induction items with
  | nil => simp [not_nil]
  | cons item rest ih =>
      rw [List.exists_mem_cons_iff, ← ih]
      by_cases fault : ∃ failure, fails item failure
      · obtain ⟨failure, here⟩ := fault
        exact iff_of_true ⟨failure, .here here⟩ (.inl ⟨failure, here⟩)
      · have fine : ∀ other, ¬ fails item other := not_exists.1 fault
        simp [cons_iff, fine]

theorem map_iff {fails : β → ε → Prop} {f : α → β} :
    First fails (items.map f) failure ↔ First (fun item => fails (f item)) items failure := by
  induction items with
  | nil => exact iff_of_false not_nil not_nil
  | cons item rest ih => rw [List.map_cons, cons_iff, cons_iff, ih]

theorem image_iff {γ : Type} {f : ε → γ} {made : γ} :
    First (fun item made => ∃ cause, fails item cause ∧ made = f cause) items made ↔
      ∃ cause, First fails items cause ∧ made = f cause := by
  induction items with
  | nil => simp [not_nil]
  | cons item rest ih =>
      have fine : (∀ made, ¬ ∃ cause, fails item cause ∧ made = f cause) ↔
          ∀ cause, ¬ fails item cause := by
        constructor
        · exact fun none cause fault => none (f cause) ⟨cause, fault, rfl⟩
        · rintro none made ⟨cause, fault, -⟩
          exact none cause fault
      simp only [cons_iff, ih, fine, or_and_right, exists_or, and_assoc, exists_and_left]

theorem congr (same : ∀ item ∈ items, ∀ failure, fails item failure ↔ other item failure) :
    First fails items failure ↔ First other items failure := by
  induction items with
  | nil => exact iff_of_false not_nil not_nil
  | cons item rest ih =>
      obtain ⟨here, later⟩ := List.forall_mem_cons.1 same
      simp only [cons_iff, here, ih later]

theorem intersperse_iff {between : α} (fine : ∀ other, ¬ fails between other) :
    First fails (items.intersperse between) failure ↔ First fails items failure := by
  induction items with
  | nil => exact Iff.rfl
  | cons item rest ih =>
      cases rest with
      | nil => exact Iff.rfl
      | cons second others =>
          have behind : First fails (between :: (second :: others).intersperse between) failure ↔
              First fails (second :: others) failure := by
            rw [cons_iff, or_iff_right (fine failure), and_iff_right fine, ih]
          rw [List.intersperse_cons_cons, cons_iff, behind]
          exact cons_iff.symm

end First

end First

namespace Rendered

variable {ε : Type} {pieces : List (Except ε Rendered)} {failure : ε}

theorem concat_eq_error_iff :
    concat pieces = .error failure ↔
      First (fun piece other => piece = .error other) pieces failure := by
  induction pieces with
  | nil => exact iff_of_false nofun First.not_nil
  | cons piece rest ih =>
      rw [First.cons_iff, ← ih]
      cases piece with
      | error other => simp
      | ok first =>
          rw [concat_ok]
          cases concat rest <;> simp [Except.map]

theorem commaSeparated_eq_error_iff :
    commaSeparated pieces = .error failure ↔
      First (fun piece other => piece = .error other) pieces failure := by
  rw [commaSeparated, concat_eq_error_iff]
  exact First.intersperse_iff nofun

end Rendered

theorem Kind.name_inj {kind other : Kind} : kind.name = other.name ↔ kind = other := by
  constructor
  · intro same
    cases kind <;> cases other <;> simp [name] at same ⊢
  · rintro rfl
    rfl

/-- The word by which messages call an argument. -/
inductive Argument.Called : Argument → String → Prop where
  | null : Called (.scalar .null) "null"
  | boolean (value : Bool) : Called (.scalar (.boolean value)) "boolean"
  | signed (value : Int64) : Called (.scalar (.signed value)) "integer"
  | unsigned (value : UInt64) : Called (.scalar (.unsigned value)) "integer"
  | float (value : Binary64) : Called (.scalar (.float value)) "float"
  | string (value : Text) : Called (.scalar (.string value)) "string"
  | bytes (value : List UInt8) : Called (.scalar (.bytes value)) "bytes"
  | moment (value : Moment) : Called (.scalar (.moment value)) "datetime"
  | list (items : List Argument) : Called (.list items) "list"
  | template (text : Text) (arguments : Arguments Argument) :
      Called (.template text arguments) "fragment"
  | statement (compiled : Statement) : Called (.statement compiled) "fragment"

/-- An argument that is no path, and its kind; in a list the first item that is no string counts. -/
inductive Argument.NoPath : Argument → Kind → Prop where
  | single {argument : Argument} {kind : Kind} (called : argument.Called kind.name)
      (noList : kind ≠ .list) (noString : kind ≠ .string) : NoPath argument kind
  | item {items : List Argument} {kind : Kind}
      (first : First (fun item found => item.Called found.name ∧ found ≠ .string) items kind) :
      NoPath (.list items) kind

namespace Argument

variable {argument : Argument} {kind : Kind}

theorem called_iff {word : String} : argument.Called word ↔ argument.kind.name = word := by
  constructor
  · intro called
    cases called <;> rfl
  · rintro rfl
    cases argument with
    | scalar value => cases value <;> constructor
    | list items => exact .list items
    | template text arguments => exact .template text arguments
    | statement compiled => exact .statement compiled

theorem called_name_iff : argument.Called kind.name ↔ argument.kind = kind :=
  called_iff.trans Kind.name_inj

theorem path?_eq_none_iff : argument.path? = none ↔ argument.kind ≠ .string := by
  cases argument with
  | scalar value => cases value <;> simp [path?, Scalar.text?, kind, Scalar.kind]
  | list | template | statement => simp [path?, kind]

theorem eq_list_of_kind (isList : argument.kind = .list) : ∃ items, argument = .list items := by
  cases argument with
  | scalar value => cases value <;> cases isList
  | list items => exact ⟨items, rfl⟩
  | template text arguments => cases isList
  | statement compiled => cases isList

theorem noPath_list_iff {items : List Argument} :
    (Argument.list items).NoPath kind ↔
      First (fun item found => item.Called found.name ∧ found ≠ .string) items kind := by
  constructor
  · intro noPath
    cases noPath with
    | single called noList _ => exact absurd (called_name_iff.1 called).symm noList
    | item first => exact first
  · exact .item

theorem noPath_iff (noList : argument.kind ≠ .list) :
    argument.NoPath kind ↔ argument.Called kind.name ∧ kind ≠ .string := by
  constructor
  · intro noPath
    cases noPath with
    | single called _ noString => exact ⟨called, noString⟩
    | item first => exact absurd rfl noList
  · rintro ⟨called, noString⟩
    exact .single called (called_name_iff.1 called ▸ noList) noString

end Argument

/--
What makes a token bad, where each argument comes with what makes it fail.  A
marker whose colon is text is never bad.
-/
inductive Token.Bad (slots : Arguments (Slot (CompileError → Prop))) :
    Token → CompileError → Prop where
  | mixedStyle {marker : Marker} (refers : slots.ignores marker.key = false)
      (differs : marker.key.style ≠ slots.style) :
      Bad slots (.marker marker) (.mixedStyle marker slots.style)
  | missingArgument {marker : Marker} (fits : marker.key.style = slots.style)
      (missing : slots.find? marker.key = none) :
      Bad slots (.marker marker) (.missingArgument marker.key)
  | notIdentifier {key : Key} {slot : Slot (CompileError → Prop)} {kind : Kind}
      (found : slots.find? key = some slot) (noPath : slot.argument.NoPath kind) :
      Bad slots (.marker ⟨.identifier, key⟩) (.notIdentifier key kind)
  | value {key : Key} {slot : Slot (CompileError → Prop)} {failure : CompileError}
      (found : slots.find? key = some slot) (fault : slot.value failure) :
      Bad slots (.marker ⟨.value, key⟩) failure

namespace Argument

/-- How arguments fail: scalars and statements never do, and all else at the first fault inside. -/
def failing (rule : StringRule) : Algebra (CompileError → Prop) where
  scalar _ _ := False
  list := First fun fails => fails
  template text slots := First (Token.Bad slots) (Token.lex rule text)
  statement _ _ := False

def Fails (rule : StringRule) (argument : Argument) : CompileError → Prop :=
  argument.fold (failing rule)

end Argument

def Arguments.faults (rule : StringRule) (arguments : Arguments Argument) :
    Arguments (Slot (CompileError → Prop)) :=
  arguments.map fun argument => ⟨argument, argument.Fails rule⟩

namespace Argument

variable {rule : StringRule} {failure : CompileError}

theorem fails_list_iff {items : List Argument} :
    (Argument.list items).Fails rule failure ↔ First (Fails rule) items failure := by
  rw [Fails, fold_list]
  exact First.map_iff

theorem fails_template_iff {text : Text} {arguments : Arguments Argument} :
    (Argument.template text arguments).Fails rule failure ↔
      First (Token.Bad (arguments.faults rule)) (Token.lex rule text) failure := by
  rw [Fails, fold_template]
  exact Iff.rfl

end Argument

/-- A key in the style of the arguments is no text with a colon. -/
theorem Arguments.ignores_eq_false {α : Type} {arguments : Arguments α} {key : Key}
    (fits : key.style = arguments.style) : arguments.ignores key = false := by
  cases key with
  | index position => rfl
  | name word =>
      cases arguments with
      | positional items => cases fits
      | named entries => rfl

namespace Token.Bad

variable {slots : Arguments (Slot (CompileError → Prop))} {marker : Marker} {key : Key}
  {slot : Slot (CompileError → Prop)} {failure : CompileError}

theorem ignores_eq_false (bad : Bad slots (.marker marker) failure) :
    slots.ignores marker.key = false := by
  cases bad with
  | mixedStyle refers differs => exact refers
  | missingArgument fits missing => exact Arguments.ignores_eq_false fits
  | notIdentifier found noPath => exact Arguments.ignores_eq_false (Slot.style_eq_of_find? found)
  | value found fault => exact Arguments.ignores_eq_false (Slot.style_eq_of_find? found)

theorem iff_of_find?_none (refers : slots.ignores marker.key = false)
    (missing : slots.find? marker.key = none) :
    Bad slots (.marker marker) failure ↔
      failure = if marker.key.style = slots.style then .missingArgument marker.key
        else .mixedStyle marker slots.style := by
  constructor
  · intro bad
    cases bad with
    | mixedStyle _ differs => rw [if_neg differs]
    | missingArgument fits _ => rw [if_pos fits]
    | notIdentifier found _ => cases missing.symm.trans found
    | value found _ => cases missing.symm.trans found
  · rintro rfl
    by_cases fits : marker.key.style = slots.style
    · rw [if_pos fits]
      exact .missingArgument fits missing
    · rw [if_neg fits]
      exact .mixedStyle refers fits

theorem iff_of_find? {role : Role} (found : slots.find? key = some slot) :
    Bad slots (.marker ⟨role, key⟩) failure ↔
      match role with
      | .value => slot.value failure
      | .identifier => ∃ kind, slot.argument.NoPath kind ∧ failure = .notIdentifier key kind := by
  constructor
  · intro bad
    cases bad with
    | mixedStyle _ differs => exact absurd (Slot.style_eq_of_find? found) differs
    | missingArgument _ missing => cases missing.symm.trans found
    | notIdentifier other noPath =>
        obtain rfl := Option.some.inj (other.symm.trans found)
        exact ⟨_, noPath, rfl⟩
    | value other fault =>
        obtain rfl := Option.some.inj (other.symm.trans found)
        exact fault
  · cases role with
    | value => exact .value found
    | identifier =>
        rintro ⟨kind, noPath, rfl⟩
        exact .notIdentifier found noPath

end Token.Bad

namespace Template

variable {writer : Writer} {key : Key} {argument : Argument} {failure : CompileError}

theorem renderPath_eq_error_iff :
    renderPath writer key argument = .error failure ↔
      ∃ kind, (argument.Called kind.name ∧ kind ≠ .string) ∧
        failure = .notIdentifier key kind := by
  simp only [Argument.called_name_iff, and_assoc, exists_eq_left']
  rw [← Argument.path?_eq_none_iff, renderPath]
  cases argument.path? with
  | none => simp [eq_comm]
  | some path => simp

theorem renderIdentifier_of_noList (noList : argument.kind ≠ .list) :
    renderIdentifier writer key argument = renderPath writer key argument := by
  rw [renderIdentifier]
  rintro items rfl
  exact noList rfl

/-- An identifier marker fails when its argument is neither a path nor a list of paths. -/
theorem renderIdentifier_eq_error_iff :
    renderIdentifier writer key argument = .error failure ↔
      ∃ kind, argument.NoPath kind ∧ failure = .notIdentifier key kind := by
  by_cases isList : argument.kind = .list
  · obtain ⟨items, rfl⟩ := Argument.eq_list_of_kind isList
    simp only [renderIdentifier, Rendered.commaSeparated_eq_error_iff, First.map_iff,
      renderPath_eq_error_iff, First.image_iff, Argument.noPath_list_iff]
  · simp only [renderIdentifier_of_noList isList, Argument.noPath_iff isList,
      renderPath_eq_error_iff]

def Slots.faults (slots : Slots) : Arguments (Slot (CompileError → Prop)) :=
  slots.map (Slot.map fun rendered failure => rendered = .error failure)

theorem renderMarker_eq_error_iff (slots : Slots) (marker : Marker) :
    renderMarker writer slots marker = .error failure ↔
      Token.Bad slots.faults (.marker marker) failure := by
  obtain ⟨role, key⟩ := marker
  have ignores : slots.faults.ignores key = slots.ignores key := Arguments.ignores_map ..
  have style : slots.faults.style = slots.style := Arguments.style_map ..
  have find? : slots.faults.find? key = (slots.find? key).map _ := Arguments.find?_map ..
  rw [renderMarker, Slot.isPlain_eq_ignores]
  cases ignored : slots.ignores key with
  | true =>
      refine iff_of_false (by simp) fun bad => ?_
      cases (ignores.trans ignored).symm.trans bad.ignores_eq_false
  | false =>
      cases found : slots.find? key with
      | none =>
          rw [found] at find?
          rw [Token.Bad.iff_of_find?_none (ignores.trans ignored) find?, style]
          by_cases fits : key.style = slots.style
          · simp [Slot.ofMarker, fits, found, eq_comm]
          · simp [Slot.ofMarker, fits, eq_comm]
      | some slot =>
          have read : Slot.ofMarker slots ⟨role, key⟩ = .ok slot := Slot.ofMarker_eq_ok_iff.2 found
          rw [found] at find?
          rw [read, Token.Bad.iff_of_find? find?]
          cases role with
          | value => exact Iff.rfl
          | identifier => exact renderIdentifier_eq_error_iff

/-- A text fails like its first bad token, whatever the mode. -/
theorem renderText_eq_error_iff {mode : Mode} {text : Text} {slots : Slots} :
    renderText writer mode text slots = .error failure ↔
      First (Token.Bad slots.faults) (Token.lex writer.stringRule text) failure := by
  rw [renderText, Rendered.concat_eq_error_iff, First.map_iff]
  apply First.congr
  intro token member failure
  cases token with
  | literal | escaped => constructor <;> intro impossible <;> cases impossible
  | marker place => exact renderMarker_eq_error_iff slots place

end Template

theorem Argument.render_eq_error_iff {writer : Writer} {argument : Argument}
    {failure : CompileError} :
    argument.render writer .parameterized = .error failure ↔
      argument.Fails writer.stringRule failure := by
  induction argument using Argument.nested_induction generalizing failure with
  | scalar value => exact iff_of_false nofun id
  | list items ih =>
      rw [render, slotItems_eq, List.map_map, Rendered.commaSeparated_eq_error_iff, First.map_iff,
        fails_list_iff]
      exact First.congr fun item member failure => ih item member
  | template text arguments ih =>
      -- The hypothesis is about every argument, so the slots are compared as functions of failures.
      have faults : Template.Slots.faults (arguments.map (slot writer .parameterized)) =
          arguments.faults writer.stringRule := by
        rw [Template.Slots.faults, Arguments.map_map]
        refine Arguments.map_congr fun argument member => ?_
        exact congrArg (Slot.mk argument) (funext fun failure => propext (ih argument member))
      rw [render, slots_eq, Template.renderText_eq_error_iff, faults, fails_template_iff]
  | statement compiled => exact iff_of_false nofun id

namespace Template

variable (t : Template) (writer : Writer)

theorem render_eq_error_iff (failure : CompileError) :
    t.render writer .parameterized = .error failure ↔
      First (Token.Bad (t.arguments.faults writer.stringRule)) (Token.lex writer.stringRule t.text)
        failure := by
  rw [render, Argument.render_eq_error_iff, toArgument, Argument.fails_template_iff]

/--
Among parameters a template fails exactly when a token of its text is bad, and
its failure is that of the first bad token.  A name is never bad where its colon
is text.  What a failure says of an argument is what the argument is called.
-/
theorem fails_at_first_bad_token :
    (∀ failure, t.render writer .parameterized = .error failure ↔
        First (Token.Bad (t.arguments.faults writer.stringRule))
          (Token.lex writer.stringRule t.text) failure) ∧
      ((∃ failure, t.render writer .parameterized = .error failure) ↔
        ∃ token ∈ Token.lex writer.stringRule t.text,
          ∃ failure, Token.Bad (t.arguments.faults writer.stringRule) token failure) ∧
      (∀ marker, t.arguments.ignores marker.key = true → ∀ failure,
        ¬ Token.Bad (t.arguments.faults writer.stringRule) (.marker marker) failure) ∧
      ∀ (argument : Argument) (word : String),
        argument.Called word ↔ argument.kind.name = word := by
  refine ⟨t.render_eq_error_iff writer, ?_, fun marker ignored failure bad => ?_,
    fun _ _ => Argument.called_iff⟩
  · simp only [render_eq_error_iff]
    exact First.exists_iff
  · have refers := bad.ignores_eq_false
    rw [Arguments.faults, Arguments.ignores_map, ignored] at refers
    cases refers

example :
    (render
      { text := "select ??, ?".toList
        arguments := .positional [.list [.scalar (.string "u.id".toList), .scalar .null]]
        engine := .sqlite }
      Engine.sqlite.writer .parameterized).map Rendered.text =
        .error (.notIdentifier (.index 0) .null) := by
  decide +kernel

end Template

end SqlTemplate
