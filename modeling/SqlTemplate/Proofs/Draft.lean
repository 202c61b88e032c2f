import SqlTemplate.Proofs.Arguments
import SqlTemplate.Template.Basic

/-!
# Drafts

A draft is what a template says before it is decided what becomes of values:
its characters, its question marks that are no parameters, its scalars and its
compiled statements, from left to right, with an error in every place that
cannot be filled.  A draft depends neither on the mode nor on how literals are
written, and both modes of rendering are readings of the one draft.
-/

namespace SqlTemplate

/-- A part of a draft. -/
inductive Part where
  | plain (char : Char)
  /-- A question mark that is no parameter. -/
  | question
  | value (scalar : Scalar)
  | statement (compiled : Statement)

namespace Part

def render (writer : Writer) (mode : Mode) : Part → Except CompileError Rendered
  | .plain char => .ok (.plain [char])
  | .question => .ok (Template.renderEscaped mode .question)
  | .value scalar => Template.renderScalar writer mode scalar
  | .statement compiled => compiled.render writer mode

def text : Part → Text
  | .plain char => [char]
  | .question => ['\\', '?']
  | .value _ => ['?']
  | .statement compiled => compiled.text

def values : Part → List Scalar
  | .plain _ | .question => []
  | .value scalar => [scalar]
  | .statement compiled => compiled.values

@[simp] theorem render_parameterized (writer : Writer) (part : Part) :
    part.render writer .parameterized = .ok ⟨part.text, part.values⟩ := by
  cases part <;> rfl

end Part

/-- What a template says, with errors in the places that cannot be filled. -/
abbrev Draft := List (Except CompileError Part)

namespace Draft

def ofText (text : Text) : Draft :=
  text.map fun char => .ok (.plain char)

def commaSeparated (drafts : List Draft) : Draft :=
  (drafts.intersperse (ofText [',', ' '])).flatten

def renderPlace (writer : Writer) (mode : Mode) :
    Except CompileError Part → Except CompileError Rendered
  | .ok part => part.render writer mode
  | .error failure => .error failure

def render (writer : Writer) (mode : Mode) (draft : Draft) : Except CompileError Rendered :=
  Rendered.concat (draft.map (renderPlace writer mode))

/-- The parts of a draft, or its first error. -/
def parts : Draft → Except CompileError (List Part)
  | [] => .ok []
  | .error failure :: _ => .error failure
  | .ok part :: rest => (parts rest).map (part :: ·)

end Draft

namespace Template

def draftPath (writer : Writer) (key : Key) (argument : Argument) : Draft :=
  match argument.path? with
  | some path => .ofText (writer.wrapPath path)
  | none => [.error (.notIdentifier key argument.kind)]

def draftIdentifier (writer : Writer) (key : Key) : Argument → Draft
  | .list items => .commaSeparated (items.map (draftPath writer key))
  | argument => draftPath writer key argument

/-- The draft of a marker, given the drafts of the arguments. -/
def draftMarker (writer : Writer) (slots : Arguments (Slot Draft)) (marker : Marker) : Draft :=
  if Slot.isPlain slots marker.key then .ofText marker.spelling
  else
    match Slot.ofMarker slots marker with
    | .error failure => [.error failure]
    | .ok slot =>
        match marker.role with
        | .value => slot.value
        | .identifier => draftIdentifier writer marker.key slot.argument

def draftToken (writer : Writer) (slots : Arguments (Slot Draft)) : Token → Draft
  | .literal text => .ofText text
  | .escaped .question => [.ok .question]
  | .escaped .colon => .ofText [':']
  | .marker place => draftMarker writer slots place

def draftText (writer : Writer) (text : Text) (slots : Arguments (Slot Draft)) : Draft :=
  (Token.lex writer.stringRule text).flatMap (draftToken writer slots)

end Template

namespace Argument

mutual

/-- The draft of an argument at a value marker. -/
def draft (writer : Writer) : Argument → Draft
  | .scalar value => [.ok (.value value)]
  | .list items => .commaSeparated ((draftItems writer items).map Slot.value)
  | .template text arguments => Template.draftText writer text (draftSlots writer arguments)
  | .statement compiled => [.ok (.statement compiled)]
termination_by structural argument => argument

def draftSlots (writer : Writer) : Arguments Argument → Arguments (Slot Draft)
  | .positional items => .positional (draftItems writer items)
  | .named entries => .named (draftEntries writer entries)
termination_by structural arguments => arguments

def draftItems (writer : Writer) : List Argument → List (Slot Draft)
  | [] => []
  | argument :: rest => ⟨argument, draft writer argument⟩ :: draftItems writer rest
termination_by structural items => items

def draftEntries (writer : Writer) : List (Text × Argument) → List (Text × Slot Draft)
  | [] => []
  | (name, argument) :: rest =>
      (name, ⟨argument, draft writer argument⟩) :: draftEntries writer rest
termination_by structural entries => entries

end

def draftSlot (writer : Writer) (argument : Argument) : Slot Draft :=
  ⟨argument, argument.draft writer⟩

theorem draftItems_eq (writer : Writer) (items : List Argument) :
    draftItems writer items = items.map (draftSlot writer) := by
  induction items with
  | nil => simp [draftItems]
  | cons argument rest ih => simp [draftItems, draftSlot, ih]

theorem draftEntries_eq (writer : Writer) (entries : List (Text × Argument)) :
    draftEntries writer entries =
      entries.map fun entry => (entry.1, draftSlot writer entry.2) := by
  induction entries with
  | nil => simp [draftEntries]
  | cons entry rest ih => simp [draftEntries, draftSlot, ih]

theorem draftSlots_eq (writer : Writer) (arguments : Arguments Argument) :
    draftSlots writer arguments = arguments.map (draftSlot writer) := by
  cases arguments with
  | positional items => simp [draftSlots, draftItems_eq, Arguments.map]
  | named entries => simp [draftSlots, draftEntries_eq, Arguments.map]

end Argument

def Template.draft (t : Template) (writer : Writer) : Draft :=
  t.toArgument.draft writer

theorem Template.draft_eq (t : Template) (writer : Writer) :
    t.draft writer =
      draftText writer t.text (t.arguments.map (Argument.draftSlot writer)) := by
  rw [← Argument.draftSlots_eq]
  rfl

end SqlTemplate
