import SqlTemplate.Proofs.Octets
import SqlTemplate.Proofs.Replacements
import SqlTemplate.Proofs.Words

/-!
# The question marks of a template

A template is read for its tokens, and a compiled text for its pieces.  When one
text is read in both ways, the readers go on differently: the one takes a name,
a row of colons or a second question mark at once and sees their first signs
only, the other sees all characters.  Still the pieces are those of the tokens,
so both find the same question marks, byte by byte.
-/

namespace SqlTemplate

namespace Text

/-- An item of a list that spells a text starts at a byte of the text. -/
def StartsAt {α : Type} (spelling : α → Text) (items : List α) (item : α) (place : Nat) : Prop :=
  ∃ front back, items = front ++ item :: back ∧
    place = (octets (front.flatMap spelling)).length

variable {α β : Type} {spelling : α → Text} {item : α} {items front back : List α} {place : Nat}

theorem StartsAt.mem (starts : StartsAt spelling items item place) : item ∈ items := by
  obtain ⟨front, back, rfl, -⟩ := starts
  exact List.mem_append_right front List.mem_cons_self

theorem not_startsAt_nil : ¬ StartsAt spelling [] item place :=
  fun starts => absurd starts.mem List.not_mem_nil

theorem startsAt_cons {first : α} {rest : List α} :
    StartsAt spelling (first :: rest) item place ↔
      (first = item ∧ place = 0) ∨ ∃ later, StartsAt spelling rest item later ∧
        place = (spelling first).octets.length + later := by
  constructor
  · rintro ⟨_ | ⟨here, front⟩, back, split, rfl⟩
    · exact .inl ⟨(List.cons.inj split).1, rfl⟩
    · obtain ⟨rfl, rfl⟩ := List.cons.inj split
      refine .inr ⟨_, ⟨front, back, rfl, rfl⟩, ?_⟩
      rw [List.flatMap_cons, octets_append, List.length_append]
  · rintro (⟨rfl, rfl⟩ | ⟨later, ⟨front, back, rfl, rfl⟩, rfl⟩)
    · exact ⟨[], rest, rfl, rfl⟩
    · refine ⟨first :: front, back, rfl, ?_⟩
      rw [List.flatMap_cons, octets_append, List.length_append]

theorem startsAt_append :
    StartsAt spelling (front ++ back) item place ↔
      StartsAt spelling front item place ∨ ∃ later, StartsAt spelling back item later ∧
        place = (octets (front.flatMap spelling)).length + later := by
  induction front generalizing place with
  | nil => simp [not_startsAt_nil]
  | cons first rest ih =>
      simp only [List.cons_append, startsAt_cons, ih, List.flatMap_cons, octets_append,
        List.length_append]
      constructor
      · rintro (here | ⟨later, inFront | ⟨behind, inBack, rfl⟩, rfl⟩)
        · exact .inl (.inl here)
        · exact .inl (.inr ⟨later, inFront, rfl⟩)
        · exact .inr ⟨behind, inBack, (Nat.add_assoc ..).symm⟩
      · rintro ((here | ⟨later, inFront, rfl⟩) | ⟨behind, inBack, rfl⟩)
        · exact .inl here
        · exact .inr ⟨later, .inl inFront, rfl⟩
        · exact .inr ⟨_, .inr ⟨behind, inBack, rfl⟩, Nat.add_assoc ..⟩

theorem startsAt_flatMap {write : β → Text} {expand : α → List β} {part : β}
    (spelled : ∀ item, (expand item).flatMap write = spelling item) :
    StartsAt write (items.flatMap expand) part place ↔
      ∃ item start offset, StartsAt spelling items item start ∧
        StartsAt write (expand item) part offset ∧ place = start + offset := by
  induction items generalizing place with
  | nil => simp [not_startsAt_nil]
  | cons first rest ih =>
      rw [List.flatMap_cons, startsAt_append, spelled]
      simp only [ih, startsAt_cons]
      constructor
      · rintro (inFirst | ⟨later, ⟨item, start, offset, inRest, inItem, rfl⟩, rfl⟩)
        · exact ⟨first, 0, place, .inl ⟨rfl, rfl⟩, inFirst, (Nat.zero_add place).symm⟩
        · exact ⟨item, _, offset, .inr ⟨start, inRest, rfl⟩, inItem, (Nat.add_assoc ..).symm⟩
      · rintro ⟨item, _, offset, ⟨rfl, rfl⟩ | ⟨start, inRest, rfl⟩, inItem, rfl⟩
        · exact .inl (by rwa [Nat.zero_add])
        · exact .inr ⟨_, ⟨item, start, offset, inRest, inItem, rfl⟩, Nat.add_assoc ..⟩

end Text

/-- The pieces of the spelling of a token, when the token is found outside quotes. -/
def Token.pieces : Token → List Piece
  | .literal text => text.map .plain
  | .escaped .question => [.question]
  | .escaped .colon => [.plain '\\', .plain ':']
  | .marker ⟨.value, .index _⟩ => [.parameter]
  | .marker ⟨.identifier, .index _⟩ => [.parameter, .parameter]
  | .marker ⟨role, .name word⟩ => (Marker.spelling ⟨role, .name word⟩).map .plain

namespace Piece

variable {rule : StringRule}

theorem flatMap_spelling_plain (text : Text) : (text.map Piece.plain).flatMap spelling = text := by
  rw [List.flatMap_map]
  exact List.flatMap_singleton' text

theorem list_bare_append {before : Preceding} {front : Text} (bare : front.Bare) (back : Text) :
    list rule (.outside before) (front ++ back) =
      front.map .plain ++ list rule (QuoteState.run rule (.outside before) front) back := by
  have safe : SafeCut front back := fun slash =>
    absurd rfl (bare '\\' (List.mem_of_getLast? slash)).2.2
  rw [list_append _ safe, list_eq_map_plain bare]

end Piece

namespace Token

theorem flatMap_spelling_pieces (token : Token) :
    token.pieces.flatMap Piece.spelling = token.spelling := by
  match token with
  | .literal text => exact Piece.flatMap_spelling_plain text
  | .escaped .question | .escaped .colon => rfl
  | .marker ⟨.value, .index _⟩ | .marker ⟨.identifier, .index _⟩ => rfl
  | .marker ⟨.value, .name _⟩ | .marker ⟨.identifier, .name _⟩ =>
      exact Piece.flatMap_spelling_plain _

end Token

namespace Lexeme

variable {rule : StringRule}

theorem Reads.list_pieces {c : Char} {text tail : Text} {lexeme : Lexeme}
    (reads : Reads c text lexeme tail) (noMark : QuoteMark.ofChar? c = none) (before : Preceding)
    (position : Nat) :
    Piece.list rule (.outside before) (c :: text) =
      (lexeme.token position).pieces ++
        Piece.list rule (QuoteState.run rule (.outside before) lexeme.spelling) tail := by
  have bare {spelled : Text} (isBare : spelled.Bare) (whole : spelled ++ tail = c :: text) :
      Piece.list rule (.outside before) (c :: text) = spelled.map .plain ++
        Piece.list rule (QuoteState.run rule (.outside before) spelled) tail :=
    whole ▸ Piece.list_bare_append isBare tail
  have whole := reads.spelling_append 0
  have ends {place : Marker} (same : lexeme.token 0 = .marker place) := reads.ends same
  cases reads with
  | escaped sign =>
      cases sign with
      | question =>
          rw [Sign.char, Piece.list_escaped]
          cases before <;> rfl
      | colon =>
          have slash : (QuoteState.outside before).next rule '\\' = .outside .boundary := by simp
          rw [Sign.char, Piece.list_cons_plain rfl (by decide) (by simp [Piece.SafeCut]), slash,
            Piece.list_cons_plain rfl (by decide) (by simp [Piece.SafeCut])]
          cases before <;> rfl
  | identifier =>
      rw [Piece.list_question, Piece.list_question]
      cases before <;> rfl
  | value single =>
      rw [Piece.list_question]
      cases before <;> rfl
  | @colons run _ all =>
      have colons : ∀ d ∈ ':' :: ':' :: run, d = ':' := by simpa using all
      refine bare (fun d member => ?_) whole
      rw [colons d member]
      decide
  | namedIdentifier | namedValue => exact bare (Marker.bare_spelling (ends rfl)) whole
  | plain noQuestion slash =>
      have safe : Piece.SafeCut [c] text := fun last => (slash (by simpa using last)).1
      rw [Piece.list_cons_plain (QuoteState.covers_eq_false_iff.2 ⟨before, rfl, noMark⟩)
        noQuestion safe]
      rfl

/-- The pieces of a text are those of its tokens, as long as the readers find the same quotes. -/
theorem pieces_number_list {state other : QuoteState} {text : Text}
    (apart : rule = .escapePrefixed → text.NoLetterMarker)
    (inStep : QuoteState.InStep rule state other text) (position : Nat) :
    Piece.list rule other text =
      (number position (list rule state text)).flatMap Token.pieces := by
  have additive (first second : Text) : Token.pieces (.literal (first ++ second)) =
      Token.pieces (.literal first) ++ Token.pieces (.literal second) := List.map_append
  induction state, text using list.induct rule generalizing other position with
  | case1 state =>
      rw [list]
      rfl
  | case2 state c rest covers ih =>
      have coversOther : other.covers c = true := by rw [← inStep.alike.covers_eq, covers]
      have apartBehind (prefixed : rule = .escapePrefixed) :=
        (apart prefixed).of_isInfix (List.infix_cons List.infix_rfl)
      rw [list_covered covers, flatMap_number_cons _ additive, ← ih apartBehind inStep.next,
        Piece.list_cons_of_covers coversOther]
      rfl
  | case3 state c rest covers ih =>
      obtain ⟨before, rfl, noMark⟩ :=
        QuoteState.covers_eq_false_iff.1 (Bool.eq_false_iff.2 covers)
      obtain ⟨behind, rfl⟩ : ∃ behind, other = .outside behind :=
        QuoteState.isOutside_eq_true_iff.1 (by rw [← inStep.alike.isOutside_eq]; rfl)
      have reads := reads_read c rest
      have spelled := reads.spelling_append 0
      rw [QuoteState.next_outside noMark] at ih
      rw [list_outside noMark, flatMap_number_cons _ additive,
        reads.list_pieces noMark behind position]
      generalize (read c rest).1 = lexeme, (read c rest).2 = tail at reads spelled ih ⊢
      rw [← spelled] at inStep apart
      have apartBehind (prefixed : rule = .escapePrefixed) :=
        (apart prefixed).of_isInfix (List.suffix_append lexeme.spelling tail).isInfix
      rw [ih apartBehind (reads.inStep_tail noMark apart inStep)]

/-- A name that is the letter of the string behind it takes the readers apart. -/
example : Piece.list .escapePrefixed .start ":e'\\'?".toList ≠
    (number 0 (list .escapePrefixed .start ":e'\\'?".toList)).flatMap Token.pieces := by
  decide +kernel

end Lexeme

namespace Token

variable {rule : StringRule} {text : Text} {token : Token} {offset : Nat}

theorem startsAt_parameter_iff :
    Text.StartsAt Piece.spelling token.pieces .parameter offset ↔
      ∃ role position, token = .marker ⟨role, .index position⟩ ∧
        offset < token.spelling.length := by
  have plain (text : Text) :
      ¬ Text.StartsAt Piece.spelling (text.map Piece.plain) .parameter offset :=
    fun starts => by simpa using starts.mem
  match token with
  | .literal text => simp [pieces, plain]
  | .escaped .question | .escaped .colon =>
      simp [pieces, Text.startsAt_cons, Text.not_startsAt_nil]
  | .marker ⟨.value, .index position⟩ =>
      simp [pieces, Text.startsAt_cons, Text.not_startsAt_nil, spelling, Marker.spelling]
  | .marker ⟨.identifier, .index position⟩ =>
      have single : (Text.octets Piece.parameter.spelling).length = 1 := rfl
      have marks : offset = 0 ∨ offset = 1 ↔ offset < 2 := by omega
      simpa [pieces, Text.startsAt_cons, Text.not_startsAt_nil, spelling, Marker.spelling, single]
        using marks
  | .marker ⟨role, .name word⟩ => simp [pieces, plain]

theorem startsAt_question_iff :
    Text.StartsAt Piece.spelling token.pieces .question offset ↔
      token = .escaped .question ∧ offset = 0 := by
  have plain (text : Text) :
      ¬ Text.StartsAt Piece.spelling (text.map Piece.plain) .question offset :=
    fun starts => by simpa using starts.mem
  match token with
  | .literal text => simp [pieces, plain]
  | .escaped .question | .escaped .colon =>
      simp [pieces, Text.startsAt_cons, Text.not_startsAt_nil]
  | .marker ⟨.value, .index _⟩ | .marker ⟨.identifier, .index _⟩ =>
      simp [pieces, Text.startsAt_cons, Text.not_startsAt_nil]
  | .marker ⟨role, .name word⟩ => simp [pieces, plain]

/--
A text that is read in both ways has its parameters at the question marks of
positional markers, byte for byte, and escaped question marks at the same bytes.
Under the rule for prefixed strings this takes a text in which no marker is
named like the letter of the string behind it.
-/
theorem startsAt_list_iff_lex (rule : StringRule) (text : Text)
    (apart : rule = .escapePrefixed → text.NoLetterMarker) :
    (Piece.list rule .start text).flatMap Piece.spelling = text ∧ spell (lex rule text) = text ∧
      ∀ place,
        (Text.StartsAt Piece.spelling (Piece.list rule .start text) .parameter place ↔
          ∃ role position start,
            Text.StartsAt spelling (lex rule text) (.marker ⟨role, .index position⟩) start ∧
              start ≤ place ∧ place < start + (Marker.spelling ⟨role, .index position⟩).length) ∧
        (Text.StartsAt Piece.spelling (Piece.list rule .start text) .question place ↔
          Text.StartsAt spelling (lex rule text) (.escaped .question) place) := by
  have pieces : Piece.list rule .start text = (lex rule text).flatMap Token.pieces :=
    Lexeme.pieces_number_list apart (.refl .start text) 0
  have spelled : spell (lex rule text) = text := spell_number_list 0 .start text
  rw [pieces]
  refine ⟨?_, spelled, fun place => ?_⟩
  · rw [List.flatMap_assoc]
    simp only [flatMap_spelling_pieces]
    exact spelled
  rw [Text.startsAt_flatMap flatMap_spelling_pieces, Text.startsAt_flatMap flatMap_spelling_pieces]
  simp only [startsAt_parameter_iff, startsAt_question_iff]
  constructor
  · constructor
    · rintro ⟨_, start, offset, starts, ⟨role, position, rfl, within⟩, rfl⟩
      exact ⟨role, position, start, starts, Nat.le_add_right .., Nat.add_lt_add_left within start⟩
    · rintro ⟨role, position, start, starts, below, within⟩
      obtain ⟨offset, rfl⟩ := Nat.exists_eq_add_of_le below
      exact ⟨_, start, offset, starts, ⟨role, position, rfl, Nat.lt_of_add_lt_add_left within⟩, rfl⟩
  · constructor
    · rintro ⟨_, start, _, starts, ⟨rfl, rfl⟩, rfl⟩
      exact starts
    · intro starts
      exact ⟨_, place, 0, starts, ⟨rfl, rfl⟩, rfl⟩

/-- A name in front of a string, a string with a hidden mark, and a character of two bytes. -/
theorem startsAt_list_iff_lex_hidden :
    lex .backslash "é = ?? and :e'\\'?' \\? ?".toList =
        [.literal "é = ".toList, .marker ⟨.identifier, .index 0⟩, .literal " and ".toList,
         .marker ⟨.value, .name ['e']⟩, .literal "'\\'?' ".toList, .escaped .question,
         .literal " ".toList, .marker ⟨.value, .index 1⟩] ∧
      Text.StartsAt Piece.spelling
        (Piece.list .backslash .start "é = ?? and :e'\\'?' \\? ?".toList) .parameter 6 ∧
      Text.StartsAt Piece.spelling
        (Piece.list .backslash .start "é = ?? and :e'\\'?' \\? ?".toList) .question 20 := by
  have lexed : lex .backslash "é = ?? and :e'\\'?' \\? ?".toList =
      [.literal "é = ".toList, .marker ⟨.identifier, .index 0⟩, .literal " and ".toList,
       .marker ⟨.value, .name ['e']⟩, .literal "'\\'?' ".toList, .escaped .question,
       .literal " ".toList, .marker ⟨.value, .index 1⟩] := by decide +kernel
  obtain ⟨-, -, agree⟩ :=
    startsAt_list_iff_lex .backslash "é = ?? and :e'\\'?' \\? ?".toList nofun
  refine ⟨lexed, (agree 6).1.2 ⟨.identifier, 0, 5, ?_, by decide, by decide⟩, (agree 20).2.2 ?_⟩
  · exact ⟨[.literal "é = ".toList], _, lexed, by decide +kernel⟩
  · exact ⟨[.literal "é = ".toList, .marker ⟨.identifier, .index 0⟩, .literal " and ".toList,
      .marker ⟨.value, .name ['e']⟩, .literal "'\\'?' ".toList], _, lexed, by decide +kernel⟩

end Token

end SqlTemplate
