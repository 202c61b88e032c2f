import SqlTemplate.Engine.Literal
import SqlTemplate.Writer

/-!
# The writer of an engine
-/

namespace SqlTemplate.Engine

def quoteName (engine : Engine) (segment : Text) : Text :=
  Identifier.quote engine.nameMark.char segment

def writer (engine : Engine) : Writer where
  quoteName := engine.quoteName
  literal := engine.literal
  placeholders := engine.placeholders
  stringRule := engine.stringRule

end SqlTemplate.Engine
