import SqlTemplate.Text.Basic

/-!
# Tokens of a template

A template consists of literal text, escaped signs and markers.  A marker asks
for a value or for an identifier, and names the argument it takes by position
or by name.  Every token has one spelling.
-/

namespace SqlTemplate

inductive Style where
  | positional
  | named
  deriving DecidableEq

def Style.name : Style → String
  | .positional => "positional"
  | .named => "named"

/-- What a marker refers to: the argument at a position counted from zero, or a name. -/
inductive Key where
  | index (position : Nat)
  | name (word : Text)
  deriving DecidableEq

def Key.style : Key → Style
  | .index _ => .positional
  | .name _ => .named

inductive Role where
  | value
  | identifier
  deriving DecidableEq

structure Marker where
  role : Role
  key : Key
  deriving DecidableEq

def Marker.spelling : Marker → Text
  | ⟨.value, .index _⟩ => ['?']
  | ⟨.identifier, .index _⟩ => ['?', '?']
  | ⟨.value, .name word⟩ => ':' :: word
  | ⟨.identifier, .name word⟩ => ':' :: word ++ [':']

/-- The two signs that start a marker and that a backslash turns into plain text. -/
inductive Sign where
  | question
  | colon
  deriving DecidableEq

def Sign.char : Sign → Char
  | .question => '?'
  | .colon => ':'

inductive Token where
  | literal (text : Text)
  | escaped (sign : Sign)
  | marker (place : Marker)
  deriving DecidableEq

namespace Token

def spelling : Token → Text
  | .literal text => text
  | .escaped sign => ['\\', sign.char]
  | .marker place => place.spelling

/-- Put literal text in front of a list of tokens, as part of its first literal if it has one. -/
def prepend (text : Text) : List Token → List Token
  | .literal next :: rest => .literal (text ++ next) :: rest
  | tokens => .literal text :: tokens

def spell (tokens : List Token) : Text :=
  tokens.flatMap spelling

@[simp] theorem spell_nil : spell [] = [] := rfl

@[simp] theorem spell_cons (token : Token) (tokens : List Token) :
    spell (token :: tokens) = token.spelling ++ spell tokens := by
  simp [spell]

@[simp] theorem spell_prepend (text : Text) (tokens : List Token) :
    spell (prepend text tokens) = text ++ spell tokens := by
  unfold prepend
  split <;> simp [spelling]

end Token

end SqlTemplate
