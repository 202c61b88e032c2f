import SqlTemplate.Text.Basic

/-!
# Quoted regions of a statement

A statement is read from left to right.  A quotation mark outside quotes opens
a region that the next mark of the same kind closes; a mark written twice
closes the region and opens it again at once.  Only in single-quoted strings a
backslash may hide the character after it, and whether it does is a rule of
the SQL in use.
-/

namespace SqlTemplate

/-- What a backslash means inside a single-quoted string. -/
inductive StringRule where
  /-- A backslash is an ordinary character. -/
  | standard
  /-- A backslash hides the next character in every string. -/
  | backslash
  /-- A backslash hides the next character in strings written `E'..'` only. -/
  | escapePrefixed
  deriving DecidableEq

inductive QuoteMark where
  | single
  | double
  | back
  deriving DecidableEq

namespace QuoteMark

def char : QuoteMark → Char
  | .single => '\''
  | .double => '"'
  | .back => '\x60'

def ofChar? (c : Char) : Option QuoteMark :=
  if c = '\'' then some .single
  else if c = '"' then some .double
  else if c = '\x60' then some .back
  else none

@[simp] theorem ofChar?_char (mark : QuoteMark) : ofChar? mark.char = some mark := by
  cases mark <;> decide

theorem ofChar?_eq_some_iff {c : Char} {mark : QuoteMark} :
    ofChar? c = some mark ↔ c = mark.char := by
  constructor
  · intro h
    unfold ofChar? at h
    split at h
    · simp_all [← Option.some.inj h, char]
    · split at h
      · simp_all [← Option.some.inj h, char]
      · split at h
        · simp_all [← Option.some.inj h, char]
        · simp at h
  · rintro rfl
    exact ofChar?_char mark

end QuoteMark

/-- What stands before the next character outside quotes, as far as it matters. -/
inductive Preceding where
  /-- The start of the text, a closing mark, or a character that is not part of a word. -/
  | boundary
  /-- A character of a word. -/
  | word
  /-- The letter `E` or `e` at the start of a word. -/
  | escapeLetter
  deriving DecidableEq

namespace Preceding

def step (before : Preceding) (c : Char) : Preceding :=
  if (c = 'E' ∨ c = 'e') ∧ before = .boundary then .escapeLetter
  else if Text.isNameChar c then .word
  else .boundary

end Preceding

def StringRule.hides (rule : StringRule) (before : Preceding) : QuoteMark → Bool
  | .single =>
      match rule with
      | .standard => false
      | .backslash => true
      | .escapePrefixed => before = .escapeLetter
  | .double | .back => false

/-- How far the reading of a statement has come. -/
inductive QuoteState where
  | outside (before : Preceding)
  /-- In a region that `mark` closes; `hides` tells whether a backslash hides a character. -/
  | inside (mark : QuoteMark) (hides : Bool)
  /-- In a region that `mark` closes, directly after a hiding backslash. -/
  | hidden (mark : QuoteMark)
  deriving DecidableEq

namespace QuoteState

def start : QuoteState := .outside .boundary

def next (rule : StringRule) : QuoteState → Char → QuoteState
  | .outside before, c =>
      match QuoteMark.ofChar? c with
      | some mark => .inside mark (rule.hides before mark)
      | none => .outside (before.step c)
  | .inside mark hides, c =>
      if hides && c = '\\' then .hidden mark
      else if c = mark.char then .outside .boundary
      else .inside mark hides
  | .hidden mark, _ => .inside mark true

/-- Whether the next character belongs to a quoted region; its two marks do. -/
def covers : QuoteState → Char → Bool
  | .outside _, c => (QuoteMark.ofChar? c).isSome
  | .inside .., _ => true
  | .hidden _, _ => true

def run (rule : StringRule) (state : QuoteState) (text : Text) : QuoteState :=
  text.foldl (next rule) state

@[simp] theorem run_nil (rule : StringRule) (state : QuoteState) :
    run rule state [] = state := rfl

@[simp] theorem run_cons (rule : StringRule) (state : QuoteState) (c : Char) (text : Text) :
    run rule state (c :: text) = run rule (state.next rule c) text := rfl

theorem run_append (rule : StringRule) (state : QuoteState) (first second : Text) :
    run rule state (first ++ second) = run rule (run rule state first) second := by
  simp [run, List.foldl_append]

end QuoteState

end SqlTemplate
