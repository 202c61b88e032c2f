/-!
# Texts

A text is the list of its characters.  Marks, markers and names consist of
ASCII characters; of the others only blanks at the ends of identifier paths
matter, and all the rest pass through untouched.
-/

namespace SqlTemplate

/-- A text is the list of its characters. -/
abbrev Text := List Char

namespace Text

/-- Marker names are written with ASCII letters, digits and the underscore. -/
def isNameChar (c : Char) : Bool :=
  c.isAlphanum || c == '_'

/-- Write every occurrence of one character twice. -/
def double (mark : Char) (text : Text) : Text :=
  text.flatMap fun c => if c = mark then [c, c] else [c]

@[simp] theorem double_nil (mark : Char) : double mark [] = [] := rfl

theorem double_cons (mark c : Char) (text : Text) :
    double mark (c :: text) =
      (if c = mark then [c, c] else [c]) ++ double mark text := by
  simp [double]

end Text

end SqlTemplate
