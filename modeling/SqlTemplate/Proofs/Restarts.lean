import SqlTemplate.Proofs.Reading

/-!
# Reading starts anew behind a sign

Behind an escaped sign or a marker the reader knows nothing of what it has read:
the rest of the text has the tokens that it has as a text of its own, but for
the positions, which go on counting.  Literal text has no such cuts, since it is
put together from characters that are read one by one.
-/

namespace SqlTemplate

namespace Token

theorem exists_of_prepend_eq {text : Text} {tokens front back : List Token} {token : Token}
    (sign : ¬ token.IsLiteral) (split : prepend text tokens = front ++ token :: back) :
    ∃ later, tokens = later ++ token :: back ∧ front = prepend text later := by
  cases front with
  | nil =>
      unfold prepend at split
      split at split
      · exact absurd ((List.cons.inj split).1 ▸ trivial) sign
      · exact absurd ((List.cons.inj split).1 ▸ trivial) sign
  | cons first others =>
      unfold prepend at split
      split at split
      · next next rest =>
          obtain ⟨rfl, rfl⟩ := List.cons.inj split
          exact ⟨.literal next :: others, rfl, rfl⟩
      · next noLiteral =>
          obtain ⟨rfl, rfl⟩ := List.cons.inj split
          refine ⟨others, rfl, ?_⟩
          rcases others with _ | ⟨_ | _ | _, rest⟩
          · rfl
          · exact absurd rfl (noLiteral _ _)
          · rfl
          · rfl

theorem exists_lexemes {lexemes : List Lexeme} {counted : Nat} {front back : List Token}
    {token : Token} (sign : ¬ token.IsLiteral)
    (split : Lexeme.number counted lexemes = front ++ token :: back) :
    ∃ first lexeme last, lexemes = first ++ lexeme :: last ∧
      front = Lexeme.number counted first ∧
      token = lexeme.token (counted + Lexeme.questions first) ∧
      back = Lexeme.number (lexeme.following (counted + Lexeme.questions first)) last := by
  induction lexemes generalizing counted front with
  | nil => cases front <;> cases split
  | cons lexeme rest ih =>
      -- the sign stands behind the first lexeme
      have behind {others : List Token}
          (later : Lexeme.number (lexeme.following counted) rest = others ++ token :: back)
          (numbered : ∀ first, others = Lexeme.number (lexeme.following counted) first →
            front = Lexeme.number counted (lexeme :: first)) :
          ∃ first found last, lexeme :: rest = first ++ found :: last ∧
            front = Lexeme.number counted first ∧
            token = found.token (counted + Lexeme.questions first) ∧
            back = Lexeme.number (found.following (counted + Lexeme.questions first)) last := by
        obtain ⟨first, found, last, rfl, same, here, after⟩ := ih later
        rw [Lexeme.following_add_questions] at here after
        exact ⟨lexeme :: first, found, last, rfl, numbered first same, here, after⟩
      cases lexeme with
      | plain text =>
          obtain ⟨others, later, rfl⟩ := exists_of_prepend_eq sign split
          exact behind later fun first same => congrArg (prepend text) same
      | escaped | positional | named =>
          cases front with
          | nil =>
              obtain ⟨rfl, rfl⟩ := List.cons.inj split
              exact ⟨[], _, rest, rfl, rfl, rfl, rfl⟩
          | cons first others =>
              obtain ⟨rfl, later⟩ := List.cons.inj split
              exact behind later fun first same => congrArg (List.cons _) same

theorem exists_positional {lexemes : List Lexeme} {counted position : Nat}
    {front back : List Token} {role : Role}
    (split : Lexeme.number counted lexemes = front ++ .marker ⟨role, .index position⟩ :: back) :
    ∃ first last, lexemes = first ++ .positional role :: last ∧
      Lexeme.spell first = spell front ∧ Lexeme.spell last = spell back ∧
      counted + Lexeme.questions first = position := by
  obtain ⟨first, lexeme, last, rfl, rfl, here, rfl⟩ := exists_lexemes id split
  cases lexeme with
  | plain | escaped | named => cases here
  | positional asked =>
      cases here
      exact ⟨first, last, rfl, (Lexeme.spell_number _ _).symm, (Lexeme.spell_number _ _).symm, rfl⟩

end Token

def Key.shift (count : Nat) : Key → Key
  | .index position => .index (position + count)
  | .name word => .name word

def Token.shift (count : Nat) : Token → Token
  | .literal text => .literal text
  | .escaped sign => .escaped sign
  | .marker place => .marker ⟨place.role, place.key.shift count⟩

theorem Token.map_shift_prepend (count : Nat) (text : Text) (tokens : List Token) :
    (prepend text tokens).map (shift count) = prepend text (tokens.map (shift count)) := by
  rcases tokens with _ | ⟨_ | _ | _, rest⟩ <;> rfl

namespace Lexeme

variable {rule : StringRule} {state : QuoteState} {text : Text}

theorem number_add (position count : Nat) (lexemes : List Lexeme) :
    number (position + count) lexemes = (number position lexemes).map (Token.shift count) := by
  induction lexemes generalizing position with
  | nil => rfl
  | cons lexeme rest ih =>
      cases lexeme with
      | plain text =>
          rw [number, number, ih, Token.map_shift_prepend]
      | escaped | named => exact congrArg _ (ih position)
      | positional role =>
          have later := ih (position + 1)
          rw [Nat.add_right_comm] at later
          exact congrArg _ later

theorem Reads.step_eq_boundary {c : Char} {lexeme : Lexeme} {rest : Text}
    (reads : Reads c text lexeme rest) (sign : ∀ piece, lexeme ≠ .plain piece)
    (before : Preceding) : before.step c = .boundary := by
  cases reads with
  | colons | plain => exact absurd rfl (sign _)
  | escaped | identifier | value | namedIdentifier | namedValue =>
      exact Preceding.step_eq_boundary rfl

/-- What is read behind a sign is read from the start. -/
theorem eq_list_spell {front back : List Lexeme} {lexeme : Lexeme}
    (listed : list rule state text = front ++ lexeme :: back)
    (sign : ∀ piece, lexeme ≠ .plain piece) : back = list rule .start (spell back) := by
  induction state, text using list.induct rule generalizing front with
  | case1 state =>
      rw [list] at listed
      cases front <;> cases listed
  | case2 state c text covers ih =>
      rw [list_covered covers] at listed
      cases front with
      | nil => exact absurd (List.cons.inj listed).1.symm (sign [c])
      | cons first others => exact ih (List.cons.inj listed).2
  | case3 state c text covers ih =>
      rw [list, if_neg covers] at listed
      cases front with
      | nil =>
          obtain ⟨rfl, rfl⟩ := List.cons.inj listed
          obtain ⟨before, rfl, noMark⟩ :=
            QuoteState.covers_eq_false_iff.1 (Bool.eq_false_iff.2 covers)
          rw [spell_list, QuoteState.next_outside noMark,
            (reads_read c text).step_eq_boundary sign before]
          rfl
      | cons first others => exact ih (List.cons.inj listed).2

end Lexeme

namespace Token

variable {rule : StringRule} {text : Text} {front back : List Token} {token : Token}

/-- The tokens behind a token spell the text behind it. -/
theorem drop_spell_of_lex (lexed : lex rule text = front ++ token :: back) :
    text.drop (spell (front ++ [token])).length = spell back := by
  have whole : spell (front ++ [token]) ++ spell back = text := by
    rw [← @spell_number_list rule 0 .start text, ← lex, lexed]
    simp [spell]
  rw [← whole, List.drop_left]

/--
Behind an escaped sign or a marker the rest of a text has the tokens that it has
as a text of its own, with the positions raised by the number of positional
markers up to there.
-/
theorem lex_behind_sign (lexed : lex rule text = front ++ token :: back)
    (sign : ¬ token.IsLiteral) :
    back = (lex rule (text.drop (spell (front ++ [token])).length)).map
      (shift ((front ++ [token]).filterMap position?).length) := by
  rw [drop_spell_of_lex lexed]
  obtain ⟨first, lexeme, last, listed, rfl, rfl, rfl⟩ := exists_lexemes sign lexed
  have noPlain : ∀ piece, lexeme ≠ .plain piece := by
    rintro piece rfl
    exact sign trivial
  have counted : ((Lexeme.number 0 first ++
      [lexeme.token (0 + Lexeme.questions first)]).filterMap position?).length =
        lexeme.following (0 + Lexeme.questions first) := by
    rw [List.filterMap_append, List.length_append, filterMap_position?_number,
      List.length_range', Nat.zero_add]
    cases lexeme <;> rfl
  rw [counted, Lexeme.spell_number, lex, ← Lexeme.eq_list_spell listed noPlain,
    ← Lexeme.number_add]
  exact congrArg (Lexeme.number · last) (Nat.zero_add _).symm

/-- A marker that could be the letter of the string behind it, were its name read with the text. -/
theorem lex_behind_sign_letter :
    lex .escapePrefixed "?, :e'\\' ? and ??".toList =
        [.marker ⟨.value, .index 0⟩, .literal ", ".toList] ++
          .marker ⟨.value, .name ['e']⟩ ::
          [.literal "'\\' ".toList, .marker ⟨.value, .index 1⟩, .literal " and ".toList,
           .marker ⟨.identifier, .index 2⟩] ∧
      [.literal "'\\' ".toList, .marker ⟨.value, .index 1⟩, .literal " and ".toList,
        .marker ⟨.identifier, .index 2⟩] =
        (lex .escapePrefixed "'\\' ? and ??".toList).map (shift 1) := by
  have lexed : lex .escapePrefixed "?, :e'\\' ? and ??".toList =
      [.marker ⟨.value, .index 0⟩, .literal ", ".toList] ++
        .marker ⟨.value, .name ['e']⟩ ::
        [.literal "'\\' ".toList, .marker ⟨.value, .index 1⟩, .literal " and ".toList,
         .marker ⟨.identifier, .index 2⟩] := by
    decide +kernel
  exact ⟨lexed, lex_behind_sign lexed id⟩

end Token

end SqlTemplate
