import SqlTemplate.Text.Numeral

/-!
# Placeholders of database drivers

A driver marks the places of parameters by plain question marks, or by numbers
counted from one behind a sign of its own.
-/

namespace SqlTemplate

inductive PlaceholderStyle where
  | question
  | dollar
  | atSign
  | colon
  deriving DecidableEq

/-- The placeholder of the parameter at a position counted from zero. -/
def PlaceholderStyle.write (style : PlaceholderStyle) (position : Nat) : Text :=
  match style with
  | .question => ['?']
  | .dollar => '$' :: Text.natural (position + 1)
  | .atSign => '@' :: 'p' :: Text.natural (position + 1)
  | .colon => ':' :: Text.natural (position + 1)

end SqlTemplate
