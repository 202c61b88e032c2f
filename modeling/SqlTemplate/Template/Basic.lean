import SqlTemplate.Engine.Writer
import SqlTemplate.Template.Render

/-!
# Templates

A template is a text with markers, the arguments they take, hints for the
driver, and the engine it is made for.  It compiles to a statement whose values
are parameters, or to a text in which all values are literals.
-/

namespace SqlTemplate

structure Template where
  text : Text
  arguments : Arguments Argument := .none
  hints : Hints := .empty
  engine : Engine

namespace Template

/-- The template as an argument of another one; its hints and its engine do not matter there. -/
def toArgument (t : Template) : Argument :=
  .template t.text t.arguments

def render (t : Template) (writer : Writer) (mode : Mode) : Except CompileError Rendered :=
  t.toArgument.render writer mode

/-- The statement for a writer. -/
def compileWith (t : Template) (writer : Writer) : Except CompileError Statement :=
  (t.render writer .parameterized).map fun rendered =>
    { text := rendered.text
      values := rendered.values
      hints := t.hints
      placeholders := writer.placeholders
      stringRule := writer.stringRule }

def compile (t : Template) : Except CompileError Statement :=
  t.compileWith t.engine.writer

/-- The text for a writer, with all values as literals. -/
def inlineWith (t : Template) (writer : Writer) : Except CompileError Text :=
  (t.render writer .inline).map Rendered.text

def inline (t : Template) : Except CompileError Text :=
  t.inlineWith t.engine.writer

def setEngine (t : Template) (engine : Engine) : Template :=
  { t with engine }

def setHint (t : Template) (key : Text) (value : Datum) : Template :=
  { t with hints := t.hints.insert key value }

def setHints (t : Template) (pairs : List (Text × Datum)) : Template :=
  { t with hints := t.hints.insertAll pairs }

def equal (t u : Template) : Bool :=
  t.text == u.text && t.arguments == u.arguments && t.hints == u.hints && t.engine == u.engine

instance : BEq Template := ⟨equal⟩

end Template

end SqlTemplate
