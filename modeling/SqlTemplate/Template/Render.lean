import SqlTemplate.Argument
import SqlTemplate.Token.Lexer

/-!
# Rendering templates

A template is rendered token by token.  Literal text is copied; a value marker
becomes what its argument renders to, an identifier marker the quoted path that
its argument names.  Colons that cannot mean a named argument stay as they are:
names without any arguments at all, and, among positional arguments, names that
start with a digit.

Fragments are rendered with the writer and in the mode of the template around
them, whatever engine they were made for.
-/

namespace SqlTemplate

/-- An argument together with what stands for it at a value marker. -/
structure Slot (α : Type) where
  argument : Argument
  value : α

namespace Slot

variable {α : Type}

/-- Whether a key is not a reference but plain text with a colon. -/
def isPlain (slots : Arguments (Slot α)) (key : Key) : Bool :=
  match slots, key with
  | .positional items, .name word => items.isEmpty || (word.head?.any Char.isDigit)
  | _, _ => false

def ofMarker (slots : Arguments (Slot α)) (marker : Marker) : Except CompileError (Slot α) :=
  if marker.key.style = slots.style then
    match slots.find? marker.key with
    | some slot => .ok slot
    | none => .error (.missingArgument marker.key)
  else .error (.mixedStyle marker slots.style)

end Slot

namespace Template

abbrev Slots := Arguments (Slot (Except CompileError Rendered))

def renderScalar (writer : Writer) (mode : Mode) (value : Scalar) :
    Except CompileError Rendered :=
  match mode with
  | .inline => (writer.literal value).map Rendered.plain
  | .parameterized => .ok ⟨['?'], [value]⟩

/-- An escaped sign; parameters must stay distinct from question marks that are text. -/
def renderEscaped (mode : Mode) (sign : Sign) : Rendered :=
  match mode, sign with
  | .parameterized, .question => .plain ['\\', '?']
  | _, sign => .plain [sign.char]

def renderPath (writer : Writer) (key : Key) (argument : Argument) :
    Except CompileError Rendered :=
  match argument.path? with
  | some path => .ok (.plain (writer.wrapPath path))
  | none => .error (.notIdentifier key argument.kind)

/-- An argument at an identifier marker: a path, or a list of paths. -/
def renderIdentifier (writer : Writer) (key : Key) : Argument → Except CompileError Rendered
  | .list items => Rendered.commaSeparated (items.map (renderPath writer key))
  | argument => renderPath writer key argument

def renderMarker (writer : Writer) (slots : Slots) (marker : Marker) :
    Except CompileError Rendered :=
  if Slot.isPlain slots marker.key then .ok (.plain marker.spelling)
  else
    match Slot.ofMarker slots marker with
    | .error failure => .error failure
    | .ok slot =>
        match marker.role with
        | .value => slot.value
        | .identifier => renderIdentifier writer marker.key slot.argument

def renderToken (writer : Writer) (mode : Mode) (slots : Slots) :
    Token → Except CompileError Rendered
  | .literal text => .ok (.plain text)
  | .escaped sign => .ok (renderEscaped mode sign)
  | .marker place => renderMarker writer slots place

def renderText (writer : Writer) (mode : Mode) (text : Text) (slots : Slots) :
    Except CompileError Rendered :=
  Rendered.concat ((Token.lex writer.stringRule text).map (renderToken writer mode slots))

end Template

namespace Argument

mutual

/-- An argument at a value marker. -/
def render (writer : Writer) (mode : Mode) : Argument → Except CompileError Rendered
  | .scalar value => Template.renderScalar writer mode value
  | .list items =>
      Rendered.commaSeparated ((slotItems writer mode items).map Slot.value)
  | .template text arguments =>
      Template.renderText writer mode text (slots writer mode arguments)
  | .statement compiled => compiled.render writer mode
termination_by structural argument => argument

def slots (writer : Writer) (mode : Mode) : Arguments Argument → Template.Slots
  | .positional items => .positional (slotItems writer mode items)
  | .named entries => .named (slotEntries writer mode entries)
termination_by structural arguments => arguments

def slotItems (writer : Writer) (mode : Mode) :
    List Argument → List (Slot (Except CompileError Rendered))
  | [] => []
  | argument :: rest => ⟨argument, render writer mode argument⟩ :: slotItems writer mode rest
termination_by structural items => items

def slotEntries (writer : Writer) (mode : Mode) :
    List (Text × Argument) → List (Text × Slot (Except CompileError Rendered))
  | [] => []
  | (name, argument) :: rest =>
      (name, ⟨argument, render writer mode argument⟩) :: slotEntries writer mode rest
termination_by structural entries => entries

end

def slot (writer : Writer) (mode : Mode) (argument : Argument) :
    Slot (Except CompileError Rendered) :=
  ⟨argument, argument.render writer mode⟩

theorem slotItems_eq (writer : Writer) (mode : Mode) (items : List Argument) :
    slotItems writer mode items = items.map (slot writer mode) := by
  induction items with
  | nil => simp [slotItems]
  | cons argument rest ih => simp [slotItems, slot, ih]

theorem slotEntries_eq (writer : Writer) (mode : Mode) (entries : List (Text × Argument)) :
    slotEntries writer mode entries =
      entries.map fun entry => (entry.1, slot writer mode entry.2) := by
  induction entries with
  | nil => simp [slotEntries]
  | cons entry rest ih => simp [slotEntries, slot, ih]

theorem slots_eq (writer : Writer) (mode : Mode) (arguments : Arguments Argument) :
    slots writer mode arguments = arguments.map (slot writer mode) := by
  cases arguments with
  | positional items => simp [slots, slotItems_eq, Arguments.map]
  | named entries => simp [slots, slotEntries_eq, Arguments.map]

end Argument

end SqlTemplate
