import SqlTemplate.Text.Quoting

/-!
# String literals

The body of a string literal.  Where backslashes hide nothing, a quotation mark
is written twice.  Elsewhere a backslash goes before marks and backslashes, and
six control characters are written by letters.
-/

namespace SqlTemplate.Quoted

/-- The letter that stands for a control character behind a backslash. -/
def letter? (c : Char) : Option Char :=
  if c = '\x00' then some '0'
  else if c = '\x08' then some 'b'
  else if c = '\n' then some 'n'
  else if c = '\x0d' then some 'r'
  else if c = '\t' then some 't'
  else if c = '\x1a' then some 'Z'
  else none

/-- One character of a string in which a backslash hides the next character. -/
def escape (c : Char) : Text :=
  match letter? c with
  | some letter => ['\\', letter]
  | none => if c = '\'' ∨ c = '"' ∨ c = '\\' then ['\\', c] else [c]

def encode (rule : StringRule) (text : Text) : Text :=
  match rule with
  | .standard => Text.double '\'' text
  | .backslash | .escapePrefixed => text.flatMap escape

end SqlTemplate.Quoted
