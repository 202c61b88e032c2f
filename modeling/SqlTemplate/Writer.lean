import SqlTemplate.CompileError
import SqlTemplate.Identifier

/-!
# Writers

A writer holds everything about the target of a compilation: how identifiers
and literals are written, how strings are read, and which placeholders the
driver expects.  Every engine has a writer, and others can be put together.
-/

namespace SqlTemplate

/-- What compilation needs to know about its target. -/
structure Writer where
  quoteName : Text → Text
  literal : Scalar → Except CompileError Text
  placeholders : PlaceholderStyle := .question
  stringRule : StringRule := .standard
  wrapPath : Text → Text := Identifier.wrap quoteName

end SqlTemplate
