import SqlTemplate.Calendar.Moment
import SqlTemplate.Number.Binary64

/-!
# Scalar values

The values that a database takes as parameters or that are written into a
statement as literals.
-/

namespace SqlTemplate

/-- What an argument is, in the words of error messages. -/
inductive Kind where
  | null
  | boolean
  | integer
  | float
  | string
  | bytes
  | datetime
  | list
  | fragment
  deriving DecidableEq

def Kind.name : Kind → String
  | .null => "null"
  | .boolean => "boolean"
  | .integer => "integer"
  | .float => "float"
  | .string => "string"
  | .bytes => "bytes"
  | .datetime => "datetime"
  | .list => "list"
  | .fragment => "fragment"

inductive Scalar where
  | null
  | boolean (value : Bool)
  | signed (value : Int64)
  | unsigned (value : UInt64)
  | float (value : Binary64)
  | string (value : Text)
  | bytes (value : List UInt8)
  | moment (value : Moment)

namespace Scalar

def kind : Scalar → Kind
  | .null => .null
  | .boolean _ => .boolean
  | .signed _ | .unsigned _ => .integer
  | .float _ => .float
  | .string _ => .string
  | .bytes _ => .bytes
  | .moment _ => .datetime

def text? : Scalar → Option Text
  | .string value => some value
  | _ => none

@[simp] theorem text?_eq_some_iff {scalar : Scalar} {value : Text} :
    scalar.text? = some value ↔ scalar = .string value := by
  cases scalar <;> simp [text?]

/-- Equality within one form; signed and unsigned integers are different forms. -/
def equal : Scalar → Scalar → Bool
  | .null, .null => true
  | .boolean a, .boolean b => a == b
  | .signed a, .signed b => a == b
  | .unsigned a, .unsigned b => a == b
  | .float a, .float b => a == b
  | .string a, .string b => a == b
  | .bytes a, .bytes b => a == b
  | .moment a, .moment b => a == b
  | _, _ => false

instance : BEq Scalar := ⟨equal⟩

end Scalar

end SqlTemplate
