import Mathlib.Data.List.Basic
import SqlTemplate.Proofs.DraftRendering

/-!
# What a statement owes to its writer

A template that is compiled with parameters asks its writer two things only:
how strings are read, and how identifier paths are written.  It writes neither
literals nor the placeholders of a driver.  Writers that agree on the two things
compile every template to one statement, up to the placeholders it is meant
for, or fail with one error.
-/

namespace SqlTemplate

/-- Writers that read strings alike and write every identifier path alike. -/
structure Writer.Alike (first second : Writer) : Prop where
  stringRule : first.stringRule = second.stringRule
  wrapPath : ∀ path, first.wrapPath path = second.wrapPath path

namespace Template

variable {first second : Writer}

theorem draftIdentifier_of_alike (alike : first.Alike second) :
    draftIdentifier first = draftIdentifier second := by
  have paths : draftPath first = draftPath second := by
    funext key argument
    unfold draftPath
    cases argument.path? with
    | none => rfl
    | some path => exact congrArg Draft.ofText (alike.wrapPath path)
  funext key argument
  cases argument with
  | list items => rw [draftIdentifier, draftIdentifier, paths]
  | scalar value => exact congrFun (congrFun paths key) (.scalar value)
  | template text arguments => exact congrFun (congrFun paths key) (.template text arguments)
  | statement compiled => exact congrFun (congrFun paths key) (.statement compiled)

theorem draftToken_of_alike (alike : first.Alike second) :
    draftToken first = draftToken second := by
  funext slots token
  cases token with
  | literal text => rfl
  | escaped sign => cases sign <;> rfl
  | marker place =>
      rw [draftToken, draftToken, draftMarker, draftMarker, draftIdentifier_of_alike alike]

theorem draftText_of_alike (alike : first.Alike second) :
    draftText first = draftText second := by
  funext text slots
  rw [draftText, draftText, alike.stringRule, draftToken_of_alike alike]

end Template

theorem Argument.draft_of_alike {first second : Writer} (alike : first.Alike second)
    (argument : Argument) : argument.draft first = argument.draft second := by
  induction argument using nested_induction with
  | scalar value => rfl
  | list items ih =>
      rw [draft, draft, draftItems_eq, draftItems_eq, List.map_map, List.map_map]
      exact congrArg Draft.commaSeparated (List.map_congr_left ih)
  | template text arguments ih =>
      have slots : arguments.map (draftSlot first) = arguments.map (draftSlot second) :=
        Arguments.map_congr fun argument member => congrArg (Slot.mk argument) (ih argument member)
      rw [draft, draft, draftSlots_eq, draftSlots_eq, slots, Template.draftText_of_alike alike]
  | statement compiled => rfl

/-- Two engines have writers that are alike when their marks and their rules for strings are. -/
theorem Engine.alike_writer_iff {first second : Engine} :
    first.writer.Alike second.writer ↔
      first.nameMark = second.nameMark ∧ first.stringRule = second.stringRule := by
  constructor
  · rintro ⟨rule, paths⟩
    refine ⟨?_, rule⟩
    have quoted (engine : Engine) :
        engine.writer.wrapPath [] = [engine.nameMark.char, engine.nameMark.char] := by
      cases engine <;> decide +kernel
    have marks : first.nameMark.char = second.nameMark.char := by
      have whole := paths []
      rw [quoted, quoted] at whole
      exact (List.cons.inj whole).1
    have same := QuoteMark.ofChar?_char first.nameMark
    rw [marks, QuoteMark.ofChar?_char] at same
    exact (Option.some.inj same).symm
  · rintro ⟨mark, rule⟩
    refine ⟨rule, fun path => ?_⟩
    have quote : first.quoteName = second.quoteName := by
      funext segment
      rw [quoteName, quoteName, mark]
    exact congrArg (Identifier.wrap · path) quote

namespace Template

/--
Writers that are alike compile a template to statements that differ in nothing
but their placeholders, or fail with the same error, whatever literals they
write; and drivers are given the same, in every style.  Engines with the same
mark around names and the same rule for strings have such writers.
-/
theorem compileWith_of_alike (t : Template) :
    (∀ first second : Writer, first.Alike second →
      t.compileWith second =
          (t.compileWith first).map (fun s => { s with placeholders := second.placeholders }) ∧
        ∀ style : PlaceholderStyle,
          (t.compileWith second).map (Statement.native · style) =
            (t.compileWith first).map (Statement.native · style)) ∧
      ∀ first second : Engine, first.writer.Alike second.writer ↔
        first.nameMark = second.nameMark ∧ first.stringRule = second.stringRule := by
  refine ⟨fun first second alike => ?_, fun first second => Engine.alike_writer_iff⟩
  have compiled : t.compileWith second =
      (t.compileWith first).map fun s => { s with placeholders := second.placeholders } := by
    have drafted : t.draft second = t.draft first := (t.toArgument.draft_of_alike alike).symm
    rw [compileWith, compileWith, render_parameterized, render_parameterized, drafted,
      ← alike.stringRule]
    cases (t.draft first).parts <;> rfl
  refine ⟨compiled, fun style => ?_⟩
  rw [compiled]
  -- the placeholders that a statement is meant for play no part when a style is given
  cases t.compileWith first <;> rfl

/-- Bytes, a number that is not finite, and a statement, in a list and in a fragment. -/
def ledger : Template where
  text := "select ?? from t where a in (?) and (?) and note = '\\' ?'".toList
  arguments := .positional
    [.scalar (.string "t.a as b".toList),
     .list [.scalar (.bytes [0, 255]), .scalar (.float ⟨0x7ff8000000000000⟩)],
     .template "b < :limit".toList (.ofPairs
       [("limit".toList, .statement { text := "f(?)".toList, values := [.bytes []] })])]
  engine := .mySQL

/-- The writer of an engine, but without literals and with numbered placeholders. -/
def wordless (engine : Engine) : Writer :=
  { engine.writer with
    literal := fun value => .error (.noLiteral engine value.kind)
    placeholders := .dollar }

/-- Two engines that share marks and strings, and one of them without any literals. -/
theorem compileWith_of_alike_ledger :
    Engine.clickHouse.writer.Alike Engine.doris.writer ∧
      Engine.clickHouse.writer.Alike (wordless .doris) ∧
      (ledger.compileWith (wordless .doris)).map Statement.text =
        .ok
          "select \x60t\x60.\x60a\x60 as \x60b\x60 from t where a in (?, ?) and (b < f(?)) and note = '\\' ?'".toList ∧
      (ledger.compileWith (wordless .doris)).map (Statement.native · .atSign) =
        (ledger.compileWith Engine.clickHouse.writer).map (Statement.native · .atSign) ∧
      ledger.inlineWith Engine.doris.writer = .error (.noLiteral .doris .bytes) := by
  have engines : Engine.clickHouse.writer.Alike Engine.doris.writer :=
    (ledger.compileWith_of_alike.2 .clickHouse .doris).2 ⟨rfl, rfl⟩
  have alike : Engine.clickHouse.writer.Alike (wordless .doris) := ⟨rfl, engines.wrapPath⟩
  obtain ⟨compiled, native⟩ := ledger.compileWith_of_alike.1 _ _ alike
  refine ⟨engines, alike, ?_, native .atSign, by decide +kernel⟩
  rw [compiled]
  decide +kernel

end Template

end SqlTemplate
