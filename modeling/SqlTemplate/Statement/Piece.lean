import SqlTemplate.Text.Quoting

/-!
# Pieces of a compiled text

In a compiled text every question mark outside quotes is the place of a
parameter, unless a backslash stands before it, which makes it a plain question
mark.  All other characters stand for themselves.
-/

namespace SqlTemplate

inductive Piece where
  | plain (char : Char)
  /-- A question mark that is no parameter, written with a backslash. -/
  | question
  /-- The place of a parameter. -/
  | parameter
  deriving DecidableEq

namespace Piece

/-- The pieces of a text that is entered in a given state. -/
def list (rule : StringRule) (state : QuoteState) : Text → List Piece
  | [] => []
  | '\\' :: '?' :: rest =>
      if state.covers '\\' then
        .plain '\\' :: list rule (state.next rule '\\') ('?' :: rest)
      else .question :: list rule (state.next rule '\\') rest
  | c :: rest =>
      (if c = '?' ∧ state.covers c = false then .parameter else .plain c) ::
        list rule (state.next rule c) rest
termination_by structural text => text

def spelling : Piece → Text
  | .plain c => [c]
  | .question => ['\\', '?']
  | .parameter => ['?']

/-- Write pieces, with the parameters counted from `position` replaced by texts. -/
def write (parameter : Nat → Text) (position : Nat) : List Piece → Text
  | [] => []
  | .plain c :: rest => c :: write parameter position rest
  | .question :: rest => '?' :: write parameter position rest
  | .parameter :: rest => parameter position ++ write parameter (position + 1) rest

/-- Write pieces, where replacing a parameter may fail; the first failure counts. -/
def fill {ε : Type} (parameter : Nat → Except ε Text) (position : Nat) :
    List Piece → Except ε Text
  | [] => .ok []
  | .plain c :: rest => (fill parameter position rest).map (c :: ·)
  | .question :: rest => (fill parameter position rest).map ('?' :: ·)
  | .parameter :: rest =>
      match parameter position with
      | .error failure => .error failure
      | .ok text => (fill parameter (position + 1) rest).map (text ++ ·)

@[simp] theorem fill_ok {ε : Type} (parameter : Nat → Text) (position : Nat)
    (pieces : List Piece) :
    fill (fun place => (.ok (parameter place) : Except ε Text)) position pieces =
      .ok (write parameter position pieces) := by
  induction pieces generalizing position with
  | nil => rfl
  | cons piece rest ih => cases piece <;> simp [fill, write, ih, Except.map]

end Piece

end SqlTemplate
