import SqlTemplate.Text.Quoting
import SqlTemplate.Token.Basic

/-!
# Reading the tokens of a template

Quoted regions are literal text.  Elsewhere the longest marker is taken:

* `\?` and `\:` are escaped signs;
* `??` asks for an identifier by position, any other `?` for a value;
* two or more colons in a row are literal text;
* a colon and a name ask for a value by name, and for an identifier when the
  name is followed by one colon, or by three and more, the first of which
  belongs to the marker.

Positions count the `?` and `??` markers from zero.  Reading never fails.
-/

namespace SqlTemplate

/-- A piece of a template before positions are counted. -/
inductive Lexeme where
  | plain (text : Text)
  | escaped (sign : Sign)
  | positional (role : Role)
  | named (role : Role) (name : Text)
  deriving DecidableEq

namespace Lexeme

/-- What a name is asked for, and what is left, given the text behind the name. -/
def roleAfterName : Text → Role × Text
  | ':' :: ':' :: ':' :: rest => (.identifier, ':' :: ':' :: rest)
  | ':' :: ':' :: rest => (.value, ':' :: ':' :: rest)
  | ':' :: rest => (.identifier, rest)
  | rest => (.value, rest)

/-- The lexeme that starts with a single colon, given the text behind the colon. -/
def readName (rest : Text) : Lexeme × Text :=
  match rest.takeWhile Text.isNameChar with
  | [] => (.plain [':'], rest)
  | name =>
      let after := roleAfterName (rest.dropWhile Text.isNameChar)
      (.named after.1 name, after.2)

def read : Char → Text → Lexeme × Text
  | '\\', '?' :: rest => (.escaped .question, rest)
  | '\\', ':' :: rest => (.escaped .colon, rest)
  | '?', '?' :: rest => (.positional .identifier, rest)
  | '?', rest => (.positional .value, rest)
  | ':', ':' :: rest =>
      (.plain (':' :: ':' :: rest.takeWhile (· = ':')), rest.dropWhile (· = ':'))
  | ':', rest => readName rest
  | c, rest => (.plain [c], rest)

theorem length_roleAfterName_le (rest : Text) :
    (roleAfterName rest).2.length ≤ rest.length := by
  unfold roleAfterName
  split <;> simp

theorem length_readName_le (rest : Text) : (readName rest).2.length ≤ rest.length := by
  unfold readName
  split
  · simp
  · have dropped := (List.dropWhile_suffix (l := rest) Text.isNameChar).length_le
    exact Nat.le_trans (length_roleAfterName_le _) dropped

theorem length_read_le (c : Char) (rest : Text) : (read c rest).2.length ≤ rest.length := by
  unfold read
  split
  · simp
  · simp
  · simp
  · simp
  · next tail =>
      have dropped := (List.dropWhile_suffix (l := tail) (· = ':')).length_le
      simp only [List.length_cons]
      omega
  · exact length_readName_le _
  · simp

/-- The lexemes of a text that is entered in a given state. -/
def list (rule : StringRule) (state : QuoteState) : Text → List Lexeme
  | [] => []
  | c :: rest =>
      if state.covers c then .plain [c] :: list rule (state.next rule c) rest
      else (read c rest).1 :: list rule (state.next rule c) (read c rest).2
termination_by text => text.length
decreasing_by
  · simp
  · have := length_read_le c rest
    simp only [List.length_cons]
    omega

/-- The tokens that lexemes stand for, with positions counted from `position`. -/
def number (position : Nat) : List Lexeme → List Token
  | [] => []
  | .plain text :: rest => Token.prepend text (number position rest)
  | .escaped sign :: rest => .escaped sign :: number position rest
  | .positional role :: rest => .marker ⟨role, .index position⟩ :: number (position + 1) rest
  | .named role name :: rest => .marker ⟨role, .name name⟩ :: number position rest

end Lexeme

def Token.lex (rule : StringRule) (text : Text) : List Token :=
  Lexeme.number 0 (Lexeme.list rule .start text)

end SqlTemplate
