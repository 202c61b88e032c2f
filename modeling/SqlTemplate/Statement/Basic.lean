import SqlTemplate.Hints
import SqlTemplate.Rendered
import SqlTemplate.Statement.Piece
import SqlTemplate.Writer

/-!
# Compiled statements

A statement is a text with places for parameters, the values they take, and
all that is needed to hand it to a driver.  It keeps the rule for strings under
which its text was compiled, because the places are found again by reading the
text under that rule.
-/

namespace SqlTemplate

structure Statement where
  text : Text
  values : List Scalar
  hints : Hints := .empty
  placeholders : PlaceholderStyle := .question
  stringRule : StringRule := .standard

/-- What becomes of values: literals in the text, or parameters. -/
inductive Mode where
  | inline
  | parameterized
  deriving DecidableEq

namespace Statement

def method (_ : Statement) : String := "raw"

def pieces (s : Statement) : List Piece :=
  Piece.list s.stringRule .start s.text

/-- The statement as a driver takes it, with placeholders of a style. -/
def native (s : Statement) (style : PlaceholderStyle) : Rendered :=
  ⟨Piece.write style.write 0 s.pieces, s.values⟩

def literalAt (s : Statement) (writer : Writer) (position : Nat) :
    Except CompileError Text :=
  match s.values[position]? with
  | some value => writer.literal value
  | none => .error (.missingArgument (.index position))

def inline (s : Statement) (writer : Writer) : Except CompileError Text :=
  Piece.fill (s.literalAt writer) 0 s.pieces

/-- The statement as a part of another one. -/
def render (s : Statement) (writer : Writer) : Mode → Except CompileError Rendered
  | .inline => (s.inline writer).map Rendered.plain
  | .parameterized => .ok ⟨s.text, s.values⟩

def equal (s t : Statement) : Bool :=
  s.text == t.text && s.values == t.values && s.hints == t.hints &&
    s.placeholders == t.placeholders && s.stringRule == t.stringRule

instance : BEq Statement := ⟨equal⟩

end Statement

end SqlTemplate
