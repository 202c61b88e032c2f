import SqlTemplate.Engine.Basic
import SqlTemplate.Scalar
import SqlTemplate.Token.Basic

/-!
# Errors of compilation

A template that cannot be compiled yields the first thing that is wrong with
it, and no partial statement.
-/

namespace SqlTemplate

inductive CompileError where
  | missingArgument (key : Key)
  /-- A marker addresses its argument in another style than the arguments are given in. -/
  | mixedStyle (marker : Marker) (style : Style)
  | notIdentifier (key : Key) (found : Kind)
  | noLiteral (engine : Engine) (kind : Kind)
  /-- Rounding a moment passes the end of the calendar. -/
  | calendarExceeded
  deriving DecidableEq

def Key.label : Key → String
  | .index position => "#" ++ toString position
  | .name word => ":" ++ String.ofList word

/-- The message of an error; exceeding the calendar is not reported by a message. -/
def CompileError.message? : CompileError → Option String
  | .missingArgument key => some ("raw missing binding for placeholder " ++ key.label)
  | .mixedStyle marker style =>
      some ("raw placeholder \x60" ++ String.ofList marker.spelling ++
        "\x60 cannot be used with " ++ style.name ++ " bindings")
  | .notIdentifier key found =>
      some ("raw identifier placeholder " ++ key.label ++ " expects a string, found " ++
        found.name)
  | .noLiteral engine kind =>
      some ("raw " ++ kind.name ++ " values cannot be rendered as " ++ engine.name ++
        " literals")
  | .calendarExceeded => none

end SqlTemplate
