import SqlTemplate.KeyMap
import SqlTemplate.Statement.Basic

/-!
# Arguments of templates

An argument is a scalar, a list of arguments, or a fragment of SQL: a template
with arguments of its own, or a compiled statement.  Arguments are given either
by position or by name.
-/

namespace SqlTemplate

/--
The arguments of one template.  A named entry may stand anywhere: a proof about
the names cannot be held where arguments are nested in arguments, so the order of
the names is a fact about `ofPairs`.
-/
inductive Arguments (α : Type) where
  | positional (items : List α)
  | named (entries : List (Text × α))

/-- What a marker can be replaced by. -/
inductive Argument where
  | scalar (value : Scalar)
  | list (items : List Argument)
  | template (text : Text) (arguments : Arguments Argument)
  | statement (compiled : Statement)

namespace Arguments

variable {α β : Type}

def none : Arguments α := .positional []

/-- Named arguments in increasing order of their names; of several with one name the last counts. -/
def ofPairs (pairs : List (Text × α)) : Arguments α :=
  .named (KeyMap.ofPairs pairs)

def style : Arguments α → Style
  | .positional _ => .positional
  | .named _ => .named

def size : Arguments α → Nat
  | .positional items => items.length
  | .named entries => entries.length

def isEmpty (arguments : Arguments α) : Bool :=
  arguments.size == 0

def find? : Arguments α → Key → Option α
  | .positional items, .index position => items[position]?
  | .named entries, .name word => KeyMap.find? word entries
  | _, _ => Option.none

def map (f : α → β) : Arguments α → Arguments β
  | .positional items => .positional (items.map f)
  | .named entries => .named (entries.map fun entry => (entry.1, f entry.2))

@[simp] theorem style_map (f : α → β) (arguments : Arguments α) :
    (arguments.map f).style = arguments.style := by
  cases arguments <;> rfl

@[simp] theorem find?_map (f : α → β) (arguments : Arguments α) (key : Key) :
    (arguments.map f).find? key = (arguments.find? key).map f := by
  cases arguments with
  | positional items => cases key <;> simp [map, find?]
  | named entries =>
      cases key with
      | index position => rfl
      | name word =>
          simp only [map, find?]
          induction entries with
          | nil => rfl
          | cons entry rest ih =>
              simp only [List.map_cons, KeyMap.find?]
              split <;> simp_all

end Arguments

namespace Argument

def kind : Argument → Kind
  | .scalar value => value.kind
  | .list _ => .list
  | .template .. => .fragment
  | .statement _ => .fragment

/-- Equality of arguments: fragments are never equal, not even to themselves. -/
def equal : Argument → Argument → Bool
  | .scalar a, .scalar b => a == b
  | .list a, .list b => equalItems a b
  | _, _ => false
where
  /-- Equality of lists of arguments, item by item. -/
  equalItems : List Argument → List Argument → Bool
    | [], [] => true
    | a :: rest, b :: others => equal a b && equalItems rest others
    | _, _ => false

instance : BEq Argument := ⟨equal⟩

/-- The path that an argument names, if it is a string. -/
def path? : Argument → Option Text
  | .scalar value => value.text?
  | _ => none

end Argument

/-- Equality of arguments given in one style, entry by entry. -/
def Arguments.equal : Arguments Argument → Arguments Argument → Bool
  | .positional a, .positional b => a == b
  | .named a, .named b => a == b
  | _, _ => false

instance : BEq (Arguments Argument) := ⟨Arguments.equal⟩

end SqlTemplate
