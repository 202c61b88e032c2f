import Mathlib.Data.List.Basic
import SqlTemplate.Proofs.ClosedArguments

/-!
# The values that a template collects

Every value marker brings the values of the argument that it refers to: a
scalar brings itself, a list what its items bring, a template what its own
value markers bring, and a statement the values that it was compiled with.  A
compiled template holds what its value markers bring, from left to right;
identifier markers and arguments without a marker bring nothing, and an
argument with several markers brings its values once for each of them.
-/

namespace SqlTemplate

/-- Whether a key is no reference among arguments but plain text with a colon. -/
def Arguments.ignores {α : Type} (arguments : Arguments α) : Key → Bool
  | .index _ => false
  | .name word =>
      match arguments with
      | .positional items => items.isEmpty || word.head?.any Char.isDigit
      | .named _ => false

/-- The key that a token takes values from, if it is a value marker. -/
def Token.source? {α : Type} (arguments : Arguments α) : Token → Option Key
  | .marker ⟨.value, key⟩ => if arguments.ignores key then none else some key
  | .marker ⟨.identifier, _⟩ | .literal _ | .escaped _ => none

/-- The keys of the value markers of a text, from left to right and as often as they occur. -/
def Template.sources {α : Type} (rule : StringRule) (text : Text) (arguments : Arguments α) :
    List Key :=
  (Token.lex rule text).filterMap (Token.source? arguments)

/-- What the value markers of a text bring, given what each argument brings. -/
def Template.collect (rule : StringRule) (text : Text) (brought : Arguments (List Scalar)) :
    List Scalar :=
  ((sources rule text brought).filterMap brought.find?).flatten

namespace Argument

mutual

def collected (rule : StringRule) : Argument → List Scalar
  | .scalar value => [value]
  | .list items => (collectedItems rule items).flatten
  | .template text arguments => Template.collect rule text (collectedArguments rule arguments)
  | .statement compiled => compiled.values
termination_by structural argument => argument

def collectedArguments (rule : StringRule) : Arguments Argument → Arguments (List Scalar)
  | .positional items => .positional (collectedItems rule items)
  | .named entries => .named (collectedEntries rule entries)
termination_by structural arguments => arguments

def collectedItems (rule : StringRule) : List Argument → List (List Scalar)
  | [] => []
  | argument :: rest => collected rule argument :: collectedItems rule rest
termination_by structural items => items

def collectedEntries (rule : StringRule) : List (Text × Argument) → List (Text × List Scalar)
  | [] => []
  | (name, argument) :: rest => (name, collected rule argument) :: collectedEntries rule rest
termination_by structural entries => entries

end

variable (rule : StringRule)

theorem collectedItems_eq (items : List Argument) :
    collectedItems rule items = items.map (collected rule) := by
  induction items with
  | nil => simp [collectedItems]
  | cons argument rest ih => simp [collectedItems, ih]

theorem collectedEntries_eq (entries : List (Text × Argument)) :
    collectedEntries rule entries =
      entries.map fun entry => (entry.1, collected rule entry.2) := by
  induction entries with
  | nil => simp [collectedEntries]
  | cons entry rest ih => simp [collectedEntries, ih]

theorem collectedArguments_eq (arguments : Arguments Argument) :
    collectedArguments rule arguments = arguments.map (collected rule) := by
  cases arguments with
  | positional items => simp [collectedArguments, collectedItems_eq, Arguments.map]
  | named entries => simp [collectedArguments, collectedEntries_eq, Arguments.map]

theorem collected_list (items : List Argument) :
    (Argument.list items).collected rule = items.flatMap (collected rule) := by
  rw [collected, collectedItems_eq, List.flatMap_def]

end Argument

section

variable {α β : Type}

@[simp] theorem Arguments.ignores_map (f : α → β) (arguments : Arguments α) (key : Key) :
    (arguments.map f).ignores key = arguments.ignores key := by
  cases arguments <;> cases key <;> simp [ignores, map]

theorem Slot.isPlain_eq_ignores (slots : Arguments (Slot α)) (key : Key) :
    isPlain slots key = slots.ignores key := by
  cases slots <;> cases key <;> rfl

theorem Token.source?_map (f : α → β) (arguments : Arguments α) (token : Token) :
    token.source? (arguments.map f) = token.source? arguments := by
  unfold source?
  split <;> simp

theorem Template.sources_map (rule : StringRule) (text : Text) (f : α → β)
    (arguments : Arguments α) :
    sources rule text (arguments.map f) = sources rule text arguments :=
  List.filterMap_congr fun token _ => token.source?_map f arguments

end

theorem Argument.collected_template (rule : StringRule) (text : Text)
    (arguments : Arguments Argument) :
    (Argument.template text arguments).collected rule =
      ((Template.sources rule text arguments).filterMap arguments.find?).flatMap
        (collected rule) := by
  have brought : (arguments.map (collected rule)).find? =
      fun key => (arguments.find? key).map (collected rule) :=
    funext fun key => Arguments.find?_map (collected rule) arguments key
  rw [collected, Template.collect, collectedArguments_eq, Template.sources_map, List.flatMap_def,
    List.map_filterMap, brought]

namespace Draft

def values (draft : Draft) : List Scalar :=
  draft.flatMap fun place =>
    match place with
    | .ok part => part.values
    | .error _ => []

theorem values_append (first second : Draft) :
    values (first ++ second) = first.values ++ second.values :=
  List.flatMap_append

theorem values_flatMap {α : Type} (items : List α) (draft : α → Draft) :
    values (items.flatMap draft) = items.flatMap fun item => (draft item).values :=
  List.flatMap_assoc

@[simp] theorem values_map_ok (parts : List Part) :
    values (parts.map .ok) = parts.flatMap Part.values := by
  rw [values, List.flatMap_map]

theorem values_eq_nil {draft : Draft} (nothing : ∀ part : Part, part.Given → .ok part ∉ draft) :
    draft.values = [] := by
  refine List.flatMap_eq_nil_iff.2 fun place member => ?_
  cases place with
  | error failure => rfl
  | ok part =>
      cases part with
      | plain | question => rfl
      | value scalar => exact absurd member (nothing _ (.value scalar))
      | statement compiled => exact absurd member (nothing _ (.statement compiled))

@[simp] theorem values_ofText (text : Text) : values (ofText text) = [] :=
  values_eq_nil fun _ given => Template.given_notMem_ofText given

theorem values_commaSeparated (drafts : List Draft) :
    values (commaSeparated drafts) = drafts.flatMap values := by
  induction drafts with
  | nil => rfl
  | cons first rest ih =>
      cases rest with
      | nil => simp [commaSeparated]
      | cons second others =>
          rw [commaSeparated_cons_cons, values_append, values_append, ih, values_ofText,
            List.append_nil]
          exact List.flatMap_cons.symm

end Draft

namespace Template

variable {writer : Writer} {arguments : Arguments Argument}

theorem ofMarker_draftSlot_eq_ok {marker : Marker} {slot : Slot Draft}
    (read : Slot.ofMarker (arguments.map (Argument.draftSlot writer)) marker = .ok slot) :
    ∃ argument ∈ arguments.held,
      arguments.find? marker.key = some argument ∧ slot = argument.draftSlot writer := by
  have found := Slot.ofMarker_eq_ok_iff.1 read
  rw [Arguments.find?_map] at found
  obtain ⟨argument, here, rfl⟩ := Option.map_eq_some_iff.1 found
  exact ⟨argument, Arguments.mem_held_of_find? here, here, rfl⟩

theorem find?_eq_none_of_ofMarker {marker : Marker} {failure : CompileError}
    (read : Slot.ofMarker (arguments.map (Argument.draftSlot writer)) marker = .error failure) :
    arguments.find? marker.key = none := by
  cases found : arguments.find? marker.key with
  | none => rfl
  | some argument =>
      have inSlots : (arguments.map (Argument.draftSlot writer)).find? marker.key =
          some (argument.draftSlot writer) := by
        rw [Arguments.find?_map, found]
        rfl
      rw [Slot.ofMarker_eq_ok_iff.2 inSlots] at read
      cases read

theorem values_draftToken
    (values : ∀ argument ∈ arguments.held,
      (argument.draft writer).values = argument.collected writer.stringRule) (token : Token) :
    (draftToken writer (arguments.map (Argument.draftSlot writer)) token).values =
      (((token.source? arguments).bind arguments.find?).map
        (Argument.collected writer.stringRule)).getD [] := by
  cases token with
  | literal text => exact Draft.values_ofText text
  | escaped sign =>
      cases sign with
      | question => rfl
      | colon => rfl
  | marker place =>
      obtain ⟨role, key⟩ := place
      simp only [draftToken, draftMarker, Slot.isPlain_eq_ignores, Arguments.ignores_map]
      by_cases ignored : arguments.ignores key = true
      · rw [if_pos ignored, Draft.values_ofText]
        cases role with
        | value => simp [Token.source?, ignored]
        | identifier => rfl
      · rw [if_neg ignored]
        cases read : Slot.ofMarker (arguments.map (Argument.draftSlot writer)) ⟨role, key⟩ with
        | error failure =>
            have missing := find?_eq_none_of_ofMarker read
            cases role with
            | value => simp [Token.source?, ignored, missing, Draft.values]
            | identifier => rfl
        | ok slot =>
            obtain ⟨argument, held, found, rfl⟩ := ofMarker_draftSlot_eq_ok read
            cases role with
            | value =>
                simpa [Token.source?, ignored, found, Argument.draftSlot] using values argument held
            | identifier =>
                exact Draft.values_eq_nil fun _ given => given_notMem_draftIdentifier given

/-- In a draft without errors every value marker finds an argument. -/
theorem exists_of_mem_sources {text : Text} {parts : List Part}
    (drafted : draftText writer text (arguments.map (Argument.draftSlot writer)) =
      parts.map .ok) {key : Key} (source : key ∈ sources writer.stringRule text arguments) :
    ∃ argument, arguments.find? key = some argument := by
  obtain ⟨token, inText, same⟩ := List.mem_filterMap.1 source
  unfold Token.source? at same
  split at same
  · next place =>
      split at same
      · cases same
      · next taken =>
          obtain rfl := Option.some.inj same
          cases read : Slot.ofMarker (arguments.map (Argument.draftSlot writer))
              ⟨.value, place⟩ with
          | ok slot =>
              obtain ⟨argument, -, found, -⟩ := ofMarker_draftSlot_eq_ok read
              exact ⟨argument, found⟩
          | error failure =>
              have token : draftToken writer (arguments.map (Argument.draftSlot writer))
                  (.marker ⟨.value, place⟩) = [.error failure] := by
                simp [draftToken, draftMarker, Slot.isPlain_eq_ignores, taken, read]
              have inDraft : .error failure ∈ parts.map (Except.ok (ε := CompileError)) := by
                rw [← drafted]
                exact List.mem_flatMap.2 ⟨_, inText, token ▸ List.mem_singleton_self _⟩
              exact absurd inDraft Draft.error_notMem_ok
  all_goals cases same

end Template

/-- The draft of an argument holds the values that the argument brings. -/
theorem Argument.values_draft (writer : Writer) (argument : Argument) :
    (argument.draft writer).values = argument.collected writer.stringRule := by
  induction argument using Argument.nested_induction with
  | scalar value => rfl
  | list items ih =>
      rw [draft, draftItems_eq, Draft.values_commaSeparated, List.map_map, List.flatMap_map,
        collected_list]
      exact List.flatMap_congr ih
  | template text arguments ih =>
      rw [draft, draftSlots_eq, Template.draftText, Draft.values_flatMap, collected_template,
        Template.sources, List.filterMap_filterMap, List.filterMap_eq_flatMap_toList,
        List.flatMap_assoc]
      refine List.flatMap_congr fun token _ => ?_
      rw [Template.values_draftToken ih]
      cases (token.source? arguments).bind arguments.find? with
      | none => rfl
      | some argument => simp
  | statement compiled => simp [draft, Draft.values, Part.values, collected]

/--
A compiled template holds the values of the arguments that its value markers
find, in the order of the markers.  Each of these markers finds an argument.
-/
theorem Template.values_eq_collected {t : Template} {writer : Writer} {rendered : Rendered}
    (compiled : t.render writer .parameterized = .ok rendered) :
    (∀ key ∈ sources writer.stringRule t.text t.arguments,
        ∃ argument, t.arguments.find? key = some argument) ∧
      rendered.values =
        ((sources writer.stringRule t.text t.arguments).filterMap t.arguments.find?).flatMap
          (Argument.collected writer.stringRule) := by
  obtain ⟨parts, drafted, rfl⟩ := render_parameterized_eq_ok_iff.1 compiled
  constructor
  · intro key source
    exact exists_of_mem_sources ((t.draft_eq writer).symm.trans drafted) source
  · rw [← Argument.collected_template, ← Template.toArgument, ← Argument.values_draft]
    change _ = (t.draft writer).values
    rw [drafted, Draft.values_map_ok]

/-- A name with two markers, an identifier, an argument without a marker, and a nested template. -/
def Template.report : Template where
  text := ":a, :list as :as:, ':b', :a and :inner".toList
  arguments := .ofPairs
    [("inner".toList, .template "x in (?) or ?? = :1".toList (.positional
        [.statement { text := "f(?, ?)".toList, values := [.string ['5'], .string ['6']] },
         .scalar (.string ['y'])])),
     ("list".toList, .list [.scalar (.string ['2']), .list [.scalar (.string ['3'])]]),
     ("a".toList, .scalar (.string ['1'])),
     ("b".toList, .scalar (.string ['4'])),
     ("as".toList, .scalar (.string "n.m".toList))]
  engine := .sqlite

/-- The values stand in the order of the markers, twice where the marker is written twice. -/
theorem Template.values_report :
    ∃ rendered, report.render Engine.sqlite.writer .parameterized = .ok rendered ∧
      rendered.text =
        "?, ?, ? as \"n\".\"m\", ':b', ? and x in (f(?, ?)) or \"y\" = :1".toList ∧
      rendered.values =
        ((sources .standard report.text report.arguments).filterMap
          report.arguments.find?).flatMap (Argument.collected .standard) ∧
      rendered.values.filterMap Scalar.text? = [['1'], ['2'], ['3'], ['1'], ['5'], ['6']] := by
  have written : (report.render Engine.sqlite.writer .parameterized).map Rendered.text =
      .ok "?, ?, ? as \"n\".\"m\", ':b', ? and x in (f(?, ?)) or \"y\" = :1".toList := by
    decide +kernel
  obtain ⟨rendered, compiled, text⟩ := exists_of_map_eq_ok written
  have values := (values_eq_collected compiled).2
  refine ⟨rendered, compiled, text, values, ?_⟩
  rw [values]
  decide +kernel

end SqlTemplate
