import SqlTemplate.Proofs.Reading

/-!
# Reading up to a question mark

The reader of a template looks no further than the next question mark.  So a
positional marker can be replaced, with all that stands behind it, by another
text that starts with a question mark, and the lexemes in front of it stay.
-/

namespace SqlTemplate

theorem Text.head?_append_question (front first second : Text) :
    (front ++ '?' :: first).head? = (front ++ '?' :: second).head? := by
  cases front <;> rfl

theorem Text.exists_of_append_question {text last front back : Text} (none : '?' ∉ text)
    (same : text ++ last = front ++ '?' :: back) :
    ∃ middle, front = text ++ middle ∧ last = middle ++ '?' :: back := by
  rcases List.append_eq_append_iff.1 same with ⟨middle, spelled, behind⟩ | ⟨beyond, spelled, behind⟩
  · exact ⟨middle, spelled, behind⟩
  · cases beyond with
    | nil => exact ⟨[], by simpa using spelled.symm, behind.symm⟩
    | cons c others =>
        obtain ⟨rfl, -⟩ := List.cons.inj behind
        exact absurd (by rw [spelled]; simp) none

namespace Lexeme

variable {rule : StringRule} {state : QuoteState} {c : Char} {text front back : Text}

theorem exists_roleAfterName_question (spelled : (roleAfterName text).2 = front ++ '?' :: back)
    (tail : Text) :
    ∃ anew : Text, anew.head? = text.head? ∧
      roleAfterName anew = ((roleAfterName text).1, front ++ '?' :: tail) := by
  obtain ⟨count, behind, rfl, whole⟩ := Text.exists_colons text
  obtain ⟨role, left, found⟩ := exists_roleAfterName count
  rw [found behind whole] at spelled ⊢
  obtain ⟨middle, rfl, rfl⟩ := Text.exists_of_append_question (by simp) spelled
  have first := Text.head?_append_question middle back tail
  refine ⟨List.replicate count ':' ++ (middle ++ '?' :: tail), ?_, ?_⟩
  · rw [← List.append_assoc, ← List.append_assoc]
    exact Text.head?_append_question _ tail back
  · rw [found _ (first ▸ whole), List.append_assoc]

theorem exists_readName_question (spelled : (readName text).2 = front ++ '?' :: back)
    (tail : Text) :
    ∃ anew : Text, anew.head? = text.head? ∧
      readName anew = ((readName text).1, front ++ '?' :: tail) := by
  obtain ⟨word, behind, rfl, all, ends⟩ := Text.exists_span Text.isNameChar text
  cases word with
  | nil =>
      rw [List.nil_append, readName_of_noName ends] at spelled ⊢
      obtain rfl : behind = front ++ '?' :: back := spelled
      have first := Text.head?_append_question front tail back
      exact ⟨_, first, readName_of_noName (first ▸ ends)⟩
  | cons c others =>
      have name : Text.IsName (c :: others) := ⟨List.cons_ne_nil c others, all⟩
      rw [readName_append name ends] at spelled ⊢
      obtain ⟨anew, first, found⟩ := exists_roleAfterName_question spelled tail
      refine ⟨c :: others ++ anew, rfl, ?_⟩
      rw [readName_append name (first ▸ ends), found]

/-- What is read in front of a question mark does not depend on what follows the question mark. -/
theorem exists_read_question (spelled : (read c text).2 = front ++ '?' :: back) (tail : Text) :
    ∃ anew : Text, read c anew = ((read c text).1, front ++ '?' :: tail) := by
  have first := Text.head?_append_question front tail back
  by_cases slash : c = '\\'
  · subst slash
    by_cases escape : ∃ sign : Sign, text.head? = some sign.char
    · obtain ⟨sign, isSign⟩ := escape
      obtain ⟨behind, rfl⟩ := List.head?_eq_some_iff.1 isSign
      refine ⟨sign.char :: (front ++ '?' :: tail), ?_⟩
      cases sign <;> rfl
    · have noSign (sign : Sign) : text.head? ≠ some sign.char := fun isSign => escape ⟨sign, isSign⟩
      rw [read_backslash (noSign .question) (noSign .colon)] at spelled ⊢
      obtain rfl : text = front ++ '?' :: back := spelled
      exact ⟨_, read_backslash (first ▸ noSign .question) (first ▸ noSign .colon)⟩
  by_cases question : c = '?'
  · subst question
    by_cases double : text.head? = some '?'
    · obtain ⟨behind, rfl⟩ := List.head?_eq_some_iff.1 double
      exact ⟨'?' :: (front ++ '?' :: tail), rfl⟩
    · rw [read_value double] at spelled ⊢
      obtain rfl : text = front ++ '?' :: back := spelled
      exact ⟨_, read_value (first ▸ double)⟩
  by_cases colon : c = ':'
  · subst colon
    obtain ⟨count, behind, rfl, whole⟩ := Text.exists_colons text
    cases count with
    | zero =>
        change (read ':' behind).2 = _ at spelled
        change ∃ anew, read ':' anew = ((read ':' behind).1, _)
        rw [read_colon whole] at spelled ⊢
        obtain ⟨anew, same, found⟩ := exists_readName_question spelled tail
        exact ⟨anew, (read_colon (same ▸ whole)).trans found⟩
    | succ count =>
        rw [read_colons count whole] at spelled ⊢
        obtain rfl : behind = front ++ '?' :: back := spelled
        exact ⟨_, read_colons count (first ▸ whole)⟩
  · rw [read_plain slash question colon] at spelled ⊢
    exact ⟨_, read_plain slash question colon _⟩

/-- A question mark leaves a place where a word can start, whatever stands in front of it. -/
theorem list_question (before : Preceding) (tail : Text) :
    list rule (.outside before) ('?' :: tail) = list rule (.outside .boundary) ('?' :: tail) := by
  rw [list_outside rfl, list_outside rfl]
  rfl

theorem Reads.positional {role : Role} {rest : Text} (reads : Reads c text (.positional role) rest) :
    c = '?' ∧ (role = .value → rest.head? ≠ some '?') := by
  cases reads with
  | identifier => exact ⟨rfl, nofun⟩
  | value single => exact ⟨rfl, fun _ => single⟩

theorem exists_spell_positional (front : List Lexeme) (role : Role) (back : List Lexeme) :
    ∃ rest, spell (front ++ .positional role :: back) = spell front ++ '?' :: rest := by
  rw [spell, List.flatMap_append, List.flatMap_cons]
  cases role <;> exact ⟨_, rfl⟩

/--
A positional marker and what follows it can be replaced by anything that starts
with a question mark: the lexemes in front stay.
-/
theorem exists_of_list_eq {front back : List Lexeme} {role : Role}
    (listed : list rule state text = front ++ .positional role :: back) :
    ∃ rest, back = list rule (.outside .boundary) rest ∧
      (role = .value → rest.head? ≠ some '?') ∧
      ∀ tail, list rule state (spell front ++ '?' :: tail) =
        front ++ list rule (.outside .boundary) ('?' :: tail) := by
  induction state, text using list.induct rule generalizing front with
  | case1 state =>
      rw [list] at listed
      cases front <;> cases listed
  | case2 state c text covers ih =>
      rw [list_covered covers] at listed
      cases front with
      | nil => cases (List.cons.inj listed).1
      | cons first others =>
          obtain ⟨rfl, later⟩ := List.cons.inj listed
          obtain ⟨rest, behind, single, anew⟩ := ih later
          refine ⟨rest, behind, single, fun tail => ?_⟩
          change list rule state (c :: (spell others ++ '?' :: tail)) = _
          rw [list_covered covers, anew]
          rfl
  | case3 state c text covers ih =>
      obtain ⟨before, rfl, noMark⟩ :=
        QuoteState.covers_eq_false_iff.1 (Bool.eq_false_iff.2 covers)
      rw [QuoteState.next_outside noMark] at ih
      rw [list_outside noMark] at listed
      cases front with
      | nil =>
          obtain ⟨here, rfl⟩ := List.cons.inj listed
          obtain ⟨rfl, single⟩ := Reads.positional (here ▸ reads_read c text)
          exact ⟨(read '?' text).2, rfl, single, fun tail => list_question before tail⟩
      | cons first others =>
          obtain ⟨rfl, later⟩ := List.cons.inj listed
          obtain ⟨rest, behind, single, anew⟩ := ih later
          refine ⟨rest, behind, single, fun tail => ?_⟩
          -- behind the first lexeme the text is spelled up to the question mark, so the lexeme
          -- is read again in front of the new end
          obtain ⟨follows, behindFirst⟩ := exists_spell_positional others role back
          have spelled : (read c text).2 = spell others ++ '?' :: follows :=
            (spell_list rule _ _).symm.trans ((congrArg spell later).trans behindFirst)
          obtain ⟨respelled, found⟩ := exists_read_question spelled tail
          have whole := (reads_read c respelled).spelling_append 0
          rw [found] at whole
          change (read c text).1.spelling ++ (spell others ++ '?' :: tail) = c :: respelled at whole
          rw [spell_cons, List.append_assoc, whole, list_outside noMark, found, anew]
          rfl

end Lexeme

end SqlTemplate
