import SqlTemplate.KeyMap
import SqlTemplate.Number.Binary64

/-!
# Hints for drivers

Hints are data that travel with a template to the driver and have no influence
on its SQL.  They form a map whose values are plain data.
-/

namespace SqlTemplate

/--
Plain data, as drivers take them.  Whole numbers are kept apart from
floating-point numbers, which are finite.  A record can hold its entries in any
order; `ofPairs` puts them in the order of their keys.
-/
inductive Datum where
  | null
  | boolean (value : Bool)
  | integer (value : Int)
  | float (value : Binary64) (finite : value.isFinite = true)
  | string (value : Text)
  | list (items : List Datum)
  | record (entries : List (Text × Datum))

namespace Datum

mutual

def equal : Datum → Datum → Bool
  | .null, .null => true
  | .boolean a, .boolean b => a == b
  | .integer a, .integer b => a == b
  | .float a _, .float b _ => a == b
  | .string a, .string b => a == b
  | .list a, .list b => equalItems a b
  | .record a, .record b => equalEntries a b
  | _, _ => false

def equalItems : List Datum → List Datum → Bool
  | [], [] => true
  | a :: rest, b :: others => equal a b && equalItems rest others
  | _, _ => false

def equalEntries : List (Text × Datum) → List (Text × Datum) → Bool
  | [], [] => true
  | (key, a) :: rest, (other, b) :: others =>
      key == other && equal a b && equalEntries rest others
  | _, _ => false

end

instance : BEq Datum := ⟨equal⟩

def ofPairs (pairs : List (Text × Datum)) : Datum :=
  .record (KeyMap.ofPairs pairs)

end Datum

structure Hints where
  entries : List (Text × Datum)
  sorted : KeyMap.Sorted entries

namespace Hints

def empty : Hints := ⟨[], KeyMap.sorted_nil⟩

def insert (hints : Hints) (key : Text) (value : Datum) : Hints :=
  ⟨KeyMap.insert key value hints.entries, KeyMap.sorted_insert key value hints.sorted⟩

def insertAll (hints : Hints) (pairs : List (Text × Datum)) : Hints :=
  ⟨KeyMap.insertAll pairs hints.entries, KeyMap.sorted_insertAll pairs hints.sorted⟩

def ofPairs (pairs : List (Text × Datum)) : Hints :=
  empty.insertAll pairs

def find? (hints : Hints) (key : Text) : Option Datum :=
  KeyMap.find? key hints.entries

/-- Write one hint and tell what it replaces. -/
def replace (hints : Hints) (key : Text) (value : Datum) : Option Datum × Hints :=
  (hints.find? key, hints.insert key value)

def size (hints : Hints) : Nat :=
  hints.entries.length

def toDatum (hints : Hints) : Datum :=
  .record hints.entries

instance : BEq Hints := ⟨fun a b => a.toDatum == b.toDatum⟩

@[simp] theorem find?_empty (key : Text) : empty.find? key = none := rfl

@[simp] theorem find?_insert_self (hints : Hints) (key : Text) (value : Datum) :
    (hints.insert key value).find? key = some value := by
  simp [insert, find?]

theorem find?_insert_of_ne (hints : Hints) {key other : Text} (different : key ≠ other)
    (value : Datum) : (hints.insert other value).find? key = hints.find? key := by
  simp [insert, find?, KeyMap.find?_insert_of_ne different]

end Hints

end SqlTemplate
