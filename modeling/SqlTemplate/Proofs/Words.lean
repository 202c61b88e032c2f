import SqlTemplate.Proofs.Cuts

/-!
# Words in front of quotes

The reader of a template sees a marker by its first sign only, while a reader of
all characters also sees the name.  Behind a whole word the two go on alike: a
word matters to the quotes behind it only as the letter of a prefixed string.
So both find the same quotes in every text in which no such letter is the name
of a marker that a string follows.
-/

namespace SqlTemplate

def Text.StartsPrefixed (text : Text) : Prop :=
  ∃ letter rest, (letter = 'E' ∨ letter = 'e') ∧ text = letter :: '\'' :: rest

namespace QuoteState

variable {rule : StringRule}

/-- Only the letter of a prefixed string tells the inside of a word from its end. -/
theorem inStep_boundary_word {rest : Text} (plain : ¬ rest.StartsPrefixed) :
    InStep rule (.outside .boundary) (.outside .word) rest := by
  cases rest with
  | nil => exact .nil (.outside rfl rfl)
  | cons c tail =>
      refine .of_next (.outside rfl rfl) ?_
      by_cases letter : c = 'E' ∨ c = 'e'
      · have noMark : QuoteMark.ofChar? c = none := by rcases letter with rfl | rfl <;> rfl
        have first : Preceding.boundary.step c = .escapeLetter := if_pos ⟨letter, rfl⟩
        have second : Preceding.word.step c = .word := by rcases letter with rfl | rfl <;> rfl
        rw [next_outside noMark, next_outside noMark, first, second]
        cases tail with
        | nil => exact .nil (.outside rfl rfl)
        | cons d others =>
            have single : d ≠ '\'' := fun mark => plain ⟨c, others, letter, by rw [mark]⟩
            have same : (outside .escapeLetter).next rule d = (outside .word).next rule d := by
              cases found : QuoteMark.ofChar? d with
              | none => simp [next_outside found, Preceding.step]
              | some mark =>
                  obtain rfl := QuoteMark.ofChar?_eq_some_iff.1 found
                  cases mark with
                  | single => exact absurd rfl single
                  | double | back => rfl
            refine .of_next (.outside rfl rfl) ?_
            rw [same]
            exact .refl _ _
      · have same : (outside .boundary).next rule c = (outside .word).next rule c := by
          cases found : QuoteMark.ofChar? c with
          | none => simp [next_outside found, Preceding.step, letter]
          | some mark =>
              cases mark <;> cases rule <;> simp [QuoteState.next, found, StringRule.hides]
        rw [same]
        exact .refl _ _

theorem inStep_word {rest : Text} (whole : ∀ c ∈ rest.head?, Text.isNameChar c = false) :
    InStep rule (.outside .boundary) (.outside .word) rest := by
  refine inStep_boundary_word ?_
  rintro ⟨letter, tail, rfl | rfl, rfl⟩
  · exact absurd (whole 'E' rfl) (by decide)
  · exact absurd (whole 'e' rfl) (by decide)

theorem run_word {text : Text} (name : ∀ c ∈ text, Text.isNameChar c = true) :
    run rule (.outside .word) text = .outside .word := by
  induction text with
  | nil => rfl
  | cons c rest ih =>
      obtain ⟨here, later⟩ := List.forall_mem_cons.1 name
      have step : Preceding.word.step c = .word := by simp [Preceding.step, here]
      rw [run_cons, next_outside (QuoteMark.ofChar?_eq_none_of_isNameChar here), step, ih later]

theorem run_name {word : Text} (name : word.IsName) :
    run rule (.outside .boundary) word = .outside .word ∨
      ∃ letter, (letter = 'E' ∨ letter = 'e') ∧ word = [letter] := by
  cases word with
  | nil => exact absurd rfl name.1
  | cons c rest =>
      obtain ⟨here, later⟩ := List.forall_mem_cons.1 name.2
      rw [run_cons, next_outside (QuoteMark.ofChar?_eq_none_of_isNameChar here)]
      by_cases letter : c = 'E' ∨ c = 'e'
      · have step : Preceding.boundary.step c = .escapeLetter := if_pos ⟨letter, rfl⟩
        cases rest with
        | nil => exact .inr ⟨c, letter, rfl⟩
        | cons d others =>
            obtain ⟨next, later⟩ := List.forall_mem_cons.1 later
            have goesOn : Preceding.escapeLetter.step d = .word := by simp [Preceding.step, next]
            rw [step, run_cons, next_outside (QuoteMark.ofChar?_eq_none_of_isNameChar next),
              goesOn, run_word later]
            exact .inl rfl
      · have step : Preceding.boundary.step c = .word := by simp [Preceding.step, here, letter]
        rw [step, run_word later]
        exact .inl rfl

theorem run_colon_digit {word : Text} (name : word.IsName)
    (digit : word.head?.any Char.isDigit = true) (before : Preceding) :
    run rule (.outside before) (':' :: word) = .outside .word := by
  have colon : (outside before).next rule ':' = .outside .boundary := by cases before <;> rfl
  rw [run_cons, colon]
  rcases run_name name with isWord | ⟨letter, rfl | rfl, rfl⟩
  · exact isWord
  · cases digit
  · cases digit

/-- Where no string follows, the letter of a prefixed string is a word like others. -/
theorem inStep_escapeLetter {rest : Text} (whole : ∀ c ∈ rest.head?, Text.isNameChar c = false)
    (apart : rest.head? ≠ some '\'') :
    InStep rule (.outside .boundary) (.outside .escapeLetter) rest := by
  cases rest with
  | nil => exact .nil (.outside rfl rfl)
  | cons c tail =>
      refine .of_next (.outside rfl rfl) ?_
      have same : (outside .boundary).next rule c = (outside .escapeLetter).next rule c := by
        cases found : QuoteMark.ofChar? c with
        | none =>
            have noName := whole c rfl
            rw [next_outside found, next_outside found, Preceding.step_eq_boundary noName,
              Preceding.step_eq_boundary noName]
        | some mark =>
            obtain rfl := QuoteMark.ofChar?_eq_some_iff.1 found
            cases mark with
            | single => exact absurd rfl apart
            | double | back => rfl
      rw [same]
      exact .refl _ _

end QuoteState

/-- No marker for a value is named like the letter of a string that follows it at once. -/
def Text.NoLetterMarker (text : Text) : Prop :=
  ∀ letter, letter = 'E' ∨ letter = 'e' → ¬ [':', letter, '\''] <:+: text

theorem Text.NoLetterMarker.of_isInfix {text part : Text} (apart : text.NoLetterMarker)
    (within : part <:+: text) : part.NoLetterMarker :=
  fun letter isLetter inside => apart letter isLetter (inside.trans within)

namespace Lexeme

variable {rule : StringRule} {lexeme : Lexeme}

/--
The reader of a template goes on behind a lexeme as a reader of all its
characters would, if no string follows a name that is the letter of its prefix.
-/
theorem Reads.inStep_run {c : Char} {text tail : Text} {before : Preceding}
    (reads : Reads c text lexeme tail) (noMark : QuoteMark.ofChar? c = none)
    (apart : ∀ letter, lexeme = .named .value [letter] → letter = 'E' ∨ letter = 'e' →
      tail.head? ≠ some '\'') :
    QuoteState.InStep rule (.outside (before.step c))
      (QuoteState.run rule (.outside before) lexeme.spelling) tail := by
  have same (state : QuoteState)
      (run : QuoteState.run rule (.outside before) lexeme.spelling = state)
      (step : .outside (before.step c) = state) :
      QuoteState.InStep rule (.outside (before.step c))
        (QuoteState.run rule (.outside before) lexeme.spelling) tail := by
    rw [run, step]
    exact .refl _ _
  have boundary : before.step ':' = .boundary := by cases before <;> rfl
  have entered (word : Text) : QuoteState.run rule (.outside before) (':' :: word) =
      QuoteState.run rule (.outside .boundary) word := by
    rw [QuoteState.run_cons, QuoteState.next_outside rfl, boundary]
  cases reads with
  | escaped sign => exact same (.outside .boundary) (by cases sign <;> cases before <;> rfl) (by cases before <;> rfl)
  | identifier => exact same (.outside .boundary) (by cases before <;> rfl) (by cases before <;> rfl)
  | value single => exact same (.outside .boundary) (by cases before <;> rfl) (by cases before <;> rfl)
  | @colons run tail all whole =>
      refine same (.outside .boundary) ?_ (by cases before <;> rfl)
      have colons : ∀ d ∈ ':' :: ':' :: run, d = ':' := by simpa using all
      change QuoteState.run rule (.outside before) (':' :: ':' :: run) = _
      refine QuoteState.run_eq_boundary (fun d member => ?_) (List.cons_ne_nil _ _) ?_
      · rw [colons d member]
        rfl
      · rw [colons _ (List.getLast_mem _)]
        rfl
  | @namedIdentifier word name tail =>
      refine same (.outside .boundary) ?_ (by rw [boundary])
      change QuoteState.run rule (.outside before) (':' :: word ++ [':']) = _
      rw [QuoteState.run_append, entered]
      rcases QuoteState.run_name name with isWord | ⟨letter, rfl | rfl, rfl⟩
      · rw [isWord]
        rfl
      · rfl
      · rfl
  | @namedValue word tail name whole cast =>
      change QuoteState.InStep rule _ (QuoteState.run rule (.outside before) (':' :: word)) tail
      rw [entered, boundary]
      rcases QuoteState.run_name name with isWord | ⟨letter, isLetter, rfl⟩
      · rw [isWord]
        exact QuoteState.inStep_word whole
      · have step : QuoteState.run rule (.outside .boundary) [letter] = .outside .escapeLetter := by
          rcases isLetter with rfl | rfl <;> rfl
        rw [step]
        exact QuoteState.inStep_escapeLetter whole (apart letter rfl isLetter)
  | plain => exact same _ rfl (QuoteState.next_outside noMark).symm

/--
Readers that are in step in front of a lexeme are in step behind it, when one
reads the first sign of it and the other reads all of it.
-/
theorem Reads.inStep_tail {c : Char} {text tail : Text} {before : Preceding} {other : QuoteState}
    (reads : Reads c text lexeme tail) (noMark : QuoteMark.ofChar? c = none)
    (apart : rule = .escapePrefixed → Text.NoLetterMarker (lexeme.spelling ++ tail))
    (inStep : QuoteState.InStep rule (.outside before) other (lexeme.spelling ++ tail)) :
    QuoteState.InStep rule (.outside (before.step c)) (other.run rule lexeme.spelling) tail := by
  have noString (prefixed : rule = .escapePrefixed) (letter : Char)
      (same : lexeme = .named .value [letter]) (isLetter : letter = 'E' ∨ letter = 'e') :
      tail.head? ≠ some '\'' := by
    subst same
    intro mark
    obtain ⟨behind, rfl⟩ := List.head?_eq_some_iff.1 mark
    exact apart prefixed letter isLetter (List.prefix_append _ behind).isInfix
  have step : QuoteState.InStep rule (.outside (before.step c))
      (QuoteState.run rule (.outside before) lexeme.spelling) tail := by
    by_cases prefixed : rule = .escapePrefixed
    · exact reads.inStep_run noMark (noString prefixed)
    · exact .of_alike prefixed
        (.outside rfl (QuoteState.isOutside_run_of_noMark (reads.noMark noMark))) tail
  exact step.trans inStep.append

/-- The reader of a template finds the quotes that a reader of all characters finds. -/
theorem finish_alike {state other : QuoteState} {text : Text}
    (apart : rule = .escapePrefixed → text.NoLetterMarker)
    (inStep : QuoteState.InStep rule state other text) :
    (finish rule state text).Alike (other.run rule text) := by
  induction state, text using list.induct rule generalizing other with
  | case1 state =>
      rw [finish_nil]
      exact inStep.alike
  | case2 state c rest covers ih =>
      rw [finish_covered covers]
      exact ih (fun prefixed => (apart prefixed).of_isInfix (List.infix_cons List.infix_rfl))
        inStep.next
  | case3 state c rest covers ih =>
      obtain ⟨before, rfl, noMark⟩ :=
        QuoteState.covers_eq_false_iff.1 (Bool.eq_false_iff.2 covers)
      have reads := reads_read c rest
      have spelled := reads.spelling_append 0
      rw [QuoteState.next_outside noMark] at ih
      rw [finish_outside noMark]
      generalize (read c rest).1 = lexeme, (read c rest).2 = tail at reads spelled ih ⊢
      rw [← spelled] at inStep apart ⊢
      rw [QuoteState.run_append]
      refine ih (fun prefixed => (apart prefixed).of_isInfix (List.suffix_append _ _).isInfix) ?_
      exact reads.inStep_tail noMark apart inStep

end Lexeme

end SqlTemplate
