import SqlTemplate.Scalar

/-!
# Rendered SQL

Rendering yields a text and the values that its parameters take, in order.
Rendered pieces are put together from left to right, and the first failure
among them is the failure of the whole.
-/

namespace SqlTemplate

@[ext]
structure Rendered where
  text : Text
  values : List Scalar

namespace Rendered

def plain (text : Text) : Rendered := ⟨text, []⟩

def empty : Rendered := plain []

def append (first second : Rendered) : Rendered :=
  ⟨first.text ++ second.text, first.values ++ second.values⟩

instance : Append Rendered := ⟨append⟩

@[simp] theorem text_append (first second : Rendered) :
    (first ++ second).text = first.text ++ second.text := rfl

@[simp] theorem values_append (first second : Rendered) :
    (first ++ second).values = first.values ++ second.values := rfl

@[simp] theorem empty_append (piece : Rendered) : empty ++ piece = piece := rfl

@[simp] theorem append_empty (piece : Rendered) : piece ++ empty = piece := by
  ext1 <;> simp [empty, plain]

theorem append_assoc (first second third : Rendered) :
    first ++ second ++ third = first ++ (second ++ third) := by
  ext1 <;> simp [List.append_assoc]

variable {ε : Type}

/-- The pieces one after the other, or the first failure. -/
def concat : List (Except ε Rendered) → Except ε Rendered
  | [] => .ok empty
  | .error failure :: _ => .error failure
  | .ok piece :: rest => (concat rest).map (piece ++ ·)

def commaSeparated (pieces : List (Except ε Rendered)) : Except ε Rendered :=
  concat (pieces.intersperse (.ok (plain [',', ' '])))

@[simp] theorem concat_nil : concat ([] : List (Except ε Rendered)) = .ok empty := rfl

@[simp] theorem concat_error (failure : ε) (rest : List (Except ε Rendered)) :
    concat (.error failure :: rest) = .error failure := rfl

theorem concat_ok (piece : Rendered) (rest : List (Except ε Rendered)) :
    concat (.ok piece :: rest) = (concat rest).map (piece ++ ·) := rfl

end Rendered

end SqlTemplate
