import SqlTemplate.Proofs.Reading
import SqlTemplate.Proofs.Unquoted

/-!
# Cutting a text

A template can be read in two halves, the second in the state in which the
first ends, if no marker reaches over the cut.  In front of a letter this is so
when the first half ends neither in a name nor in a colon that could start one.
-/

namespace SqlTemplate

theorem Text.head?_append_ne {c : Char} {front back : Text} (first : front.head? ≠ some c)
    (second : back.head? ≠ some c) : (front ++ back).head? ≠ some c := by
  cases front with
  | nil => exact second
  | cons d rest => exact first

theorem QuoteState.next_eq_boundary_of_covers {rule : StringRule} {state : QuoteState} {c : Char}
    (covers : state.covers c = true) (closes : (state.next rule c).isOutside = true) :
    state.next rule c = .outside .boundary := by
  cases state with
  | outside before =>
      obtain ⟨mark, found⟩ := Option.isSome_iff_exists.1 covers
      simp [QuoteState.next, found, isOutside] at closes
  | inside mark hides =>
      simp only [QuoteState.next] at closes ⊢
      split at closes
      · cases closes
      · next notHidden =>
          rw [if_neg notHidden]
          split at closes
          · next same => rw [if_pos same]
          · cases closes
  | hidden mark => cases closes

namespace Lexeme

variable {rule : StringRule}

/-- The state of the reader of a template behind a text that it enters in a given state. -/
def finish (rule : StringRule) (state : QuoteState) : Text → QuoteState
  | [] => state
  | c :: rest =>
      if state.covers c then finish rule (state.next rule c) rest
      else finish rule (state.next rule c) (read c rest).2
termination_by text => text.length
decreasing_by
  · simp
  · have := length_read_le c rest
    simp only [List.length_cons]
    omega

@[simp] theorem finish_nil (state : QuoteState) : finish rule state [] = state := by
  rw [finish]

theorem finish_covered {state : QuoteState} {c : Char} (covers : state.covers c = true)
    (rest : Text) : finish rule state (c :: rest) = finish rule (state.next rule c) rest := by
  rw [finish, if_pos covers]

theorem finish_outside {before : Preceding} {c : Char} (noMark : QuoteMark.ofChar? c = none)
    (rest : Text) :
    finish rule (.outside before) (c :: rest) =
      finish rule (.outside (before.step c)) (read c rest).2 := by
  have uncovered : ¬ (QuoteState.outside before).covers c = true := by
    simp [QuoteState.covers, noMark]
  rw [finish, if_neg uncovered, QuoteState.next_outside noMark]

def ofText (text : Text) : List Lexeme :=
  text.map fun c => .plain [c]

theorem list_of_unquoted_eq_nil {state : QuoteState} {text : Text}
    (nothing : state.unquoted rule text = []) (tail : Text) :
    list rule state (text ++ tail) = ofText text ++ list rule (state.run rule text) tail := by
  induction text generalizing state with
  | nil => rfl
  | cons c rest ih =>
      have covers := QuoteState.covers_of_unquoted_eq_nil nothing
      rw [QuoteState.unquoted_cons_of_covers covers] at nothing
      rw [List.cons_append, list_covered covers, ih nothing]
      rfl

theorem finish_of_unquoted_eq_nil {state : QuoteState} {text : Text}
    (nothing : state.unquoted rule text = []) (tail : Text) :
    finish rule state (text ++ tail) = finish rule (state.run rule text) tail := by
  induction text generalizing state with
  | nil => rfl
  | cons c rest ih =>
      have covers := QuoteState.covers_of_unquoted_eq_nil nothing
      rw [QuoteState.unquoted_cons_of_covers covers] at nothing
      rw [List.cons_append, finish_covered covers, ih nothing]
      rfl

/-- Lexemes that a letter behind them does not change. -/
def Stops : Lexeme → Prop
  | .named .value _ => False
  | .plain text => text ≠ [':']
  | .escaped _ | .positional _ | .named .identifier _ => True

section

variable {tail : Text} (noQuestion : tail.head? ≠ some '?') (noColon : tail.head? ≠ some ':')

include noColon

theorem roleAfterName_append (rest : Text) :
    roleAfterName (rest ++ tail) = ((roleAfterName rest).1, (roleAfterName rest).2 ++ tail) := by
  obtain ⟨count, behind, rfl, whole⟩ := Text.exists_colons rest
  have wholeTail := Text.head?_append_ne whole noColon
  obtain ⟨role, left, found⟩ := exists_roleAfterName count
  rw [List.append_assoc, found _ wholeTail, found _ whole, List.append_assoc]

theorem readName_append_tail {rest : Text}
    (stops : (∀ c ∈ tail.head?, Text.isNameChar c = false) ∨
      ((readName rest).2 = [] → (readName rest).1.Stops)) :
    readName (rest ++ tail) = ((readName rest).1, (readName rest).2 ++ tail) := by
  obtain ⟨word, behind, rfl, all, ends⟩ := Text.exists_span Text.isNameChar rest
  have endsTail (goesOn : behind = [] → ∀ c ∈ tail.head?, Text.isNameChar c = false) :
      ∀ c ∈ (behind ++ tail).head?, Text.isNameChar c = false := by
    cases behind with
    | nil => exact goesOn rfl
    | cons c others => exact ends
  cases word with
  | nil =>
      rw [List.nil_append] at stops ⊢
      rw [readName_of_noName ends] at stops ⊢
      rw [readName_of_noName (endsTail fun empty => stops.resolve_right fun stops => stops empty rfl)]
  | cons c others =>
      have name : Text.IsName (c :: others) := ⟨List.cons_ne_nil c others, all⟩
      rw [readName_append name ends] at stops ⊢
      have goesOn (empty : behind = []) : ∀ c ∈ tail.head?, Text.isNameChar c = false := by
        subst empty
        exact stops.resolve_right fun stops => stops rfl
      rw [List.append_assoc, readName_append name (endsTail goesOn), roleAfterName_append noColon]

include noQuestion

theorem read_append_backslash (rest : Text) :
    read '\\' (rest ++ tail) = ((read '\\' rest).1, (read '\\' rest).2 ++ tail) := by
  by_cases escape : ∃ sign : Sign, rest.head? = some sign.char
  · obtain ⟨sign, first⟩ := escape
    obtain ⟨behind, rfl⟩ := List.head?_eq_some_iff.1 first
    cases sign <;> rfl
  · have noSign (sign : Sign) : rest.head? ≠ some sign.char := fun first => escape ⟨sign, first⟩
    rw [read_backslash (noSign .question) (noSign .colon),
      read_backslash (Text.head?_append_ne (noSign .question) noQuestion)
        (Text.head?_append_ne (noSign .colon) noColon)]

/-- The first lexeme of a text is the same when more text follows. -/
theorem read_append {c : Char} {rest : Text}
    (stops : (∀ c ∈ tail.head?, Text.isNameChar c = false) ∨
      ((read c rest).2 = [] → (read c rest).1.Stops)) :
    read c (rest ++ tail) = ((read c rest).1, (read c rest).2 ++ tail) := by
  by_cases slash : c = '\\'
  · subst slash
    exact read_append_backslash noQuestion noColon rest
  by_cases question : c = '?'
  · subst question
    by_cases double : rest.head? = some '?'
    · obtain ⟨behind, rfl⟩ := List.head?_eq_some_iff.1 double
      rfl
    · rw [read_value double, read_value (Text.head?_append_ne double noQuestion)]
  by_cases colon : c = ':'
  · subst colon
    obtain ⟨count, behind, rfl, whole⟩ := Text.exists_colons rest
    cases count with
    | zero =>
        change _ ∨ ((read ':' behind).2 = [] → (read ':' behind).1.Stops) at stops
        change read ':' (behind ++ tail) = ((read ':' behind).1, (read ':' behind).2 ++ tail)
        rw [read_colon whole] at stops ⊢
        rw [read_colon (Text.head?_append_ne whole noColon), readName_append_tail noColon stops]
    | succ count =>
        rw [List.append_assoc, read_colons count whole,
          read_colons count (Text.head?_append_ne whole noColon)]
  · rw [read_plain slash question colon, read_plain slash question colon]

end

theorem list_ne_nil {state : QuoteState} {text : Text} (nonempty : text ≠ []) :
    list rule state text ≠ [] := by
  cases text with
  | nil => exact absurd rfl nonempty
  | cons c rest =>
      rw [list]
      split <;> exact List.cons_ne_nil _ _

/-- A text ends in no name and in no colon, except for a colon that is escaped. -/
structure Settled (rule : StringRule) (state : QuoteState) (text : Text) : Prop where
  noName : ∀ c ∈ text.getLast?, Text.isNameChar c = false
  escaped : text.getLast? = some ':' →
    (list rule state text).getLast? = some (.escaped .colon)

namespace Settled

variable {state other : QuoteState} {c : Char} {front rest : Text}

theorem tail {text : Text} {lexeme : Lexeme} (settled : Settled rule state text)
    (spelled : text = front ++ rest)
    (listed : list rule state text = lexeme :: list rule other rest) :
    Settled rule other rest := by
  have last : ∀ c ∈ rest.getLast?, text.getLast? = some c := by
    intro c here
    rw [spelled, List.getLast?_append, here]
    rfl
  constructor
  · intro c here
    exact settled.noName c (last c here)
  · intro here
    have nonempty : rest ≠ [] := by
      rintro rfl
      cases here
    have whole := settled.escaped (last ':' here)
    rw [listed] at whole
    cases lexemes : list rule other rest with
    | nil => exact absurd lexemes (list_ne_nil nonempty)
    | cons next others =>
        rw [lexemes, List.getLast?_cons_cons] at whole
        exact whole

theorem covered (settled : Settled rule state (c :: rest)) (covers : state.covers c = true) :
    Settled rule (state.next rule c) rest :=
  settled.tail (List.singleton_append (x := c)).symm (list_covered covers rest)

theorem outside {before : Preceding} (settled : Settled rule (.outside before) (c :: rest))
    (noMark : QuoteMark.ofChar? c = none) :
    Settled rule (.outside (before.step c)) (read c rest).2 :=
  settled.tail ((reads_read c rest).spelling_append 0).symm (list_outside noMark rest)

theorem stops {before : Preceding} (settled : Settled rule (.outside before) (c :: rest))
    (noMark : QuoteMark.ofChar? c = none) (last : (read c rest).2 = []) :
    (read c rest).1.Stops := by
  have reads := reads_read c rest
  have listed : list rule (.outside before) (c :: rest) = _ := list_outside noMark rest
  rw [last] at reads listed
  generalize (read c rest).1 = lexeme at reads listed ⊢
  cases reads with
  | escaped | identifier | value | namedIdentifier => trivial
  | colons => simp [Stops]
  | @namedValue word _ name =>
      have ends : (':' :: (word ++ [])).getLast? = some (word.getLast name.1) := by
        rw [List.append_nil, List.getLast?_cons, List.getLast?_eq_some_getLast name.1]
        rfl
      have isName := name.2 _ (List.getLast_mem name.1)
      rw [settled.noName _ ends] at isName
      cases isName
  | plain noQuestion slash colon =>
      intro same
      obtain rfl := List.singleton_inj.1 same
      have alone := settled.escaped rfl
      rw [listed, list] at alone
      cases alone

theorem finish_eq_boundary {text : Text} (settled : Settled rule state text)
    (outside : (finish rule state text).isOutside = true)
    (start : text = [] → state = .outside .boundary) :
    finish rule state text = .outside .boundary := by
  induction state, text using list.induct rule with
  | case1 state => rw [finish_nil, start rfl]
  | case2 state c rest covers ih =>
      rw [finish_covered covers] at outside ⊢
      refine ih (settled.covered covers) outside ?_
      rintro rfl
      rw [finish_nil] at outside
      exact QuoteState.next_eq_boundary_of_covers covers outside
  | case3 state c rest covers ih =>
      obtain ⟨before, rfl, noMark⟩ :=
        QuoteState.covers_eq_false_iff.1 (Bool.eq_false_iff.2 covers)
      rw [QuoteState.next_outside noMark] at ih
      rw [finish_outside noMark] at outside ⊢
      refine ih (settled.outside noMark) outside fun last => ?_
      have noName : Text.isNameChar c = false := by
        cases name : Text.isNameChar c with
        | false => rfl
        | true =>
            rw [read_of_isNameChar name] at last
            subst last
            exact name.symm.trans (settled.noName c rfl)
      rw [Preceding.step_eq_boundary noName]

end Settled

/-- Two halves of a text are read one after the other, if no name reaches from one into the other. -/
theorem halves {state : QuoteState} {text tail : Text} (noQuestion : tail.head? ≠ some '?')
    (noColon : tail.head? ≠ some ':')
    (settled : (∀ c ∈ tail.head?, Text.isNameChar c = false) ∨ Settled rule state text) :
    list rule state (text ++ tail) =
        list rule state text ++ list rule (finish rule state text) tail ∧
      finish rule state (text ++ tail) = finish rule (finish rule state text) tail := by
  induction state, text using list.induct rule with
  | case1 state =>
      rw [list, finish_nil]
      exact ⟨rfl, rfl⟩
  | case2 state c rest covers ih =>
      obtain ⟨listed, finished⟩ := ih (settled.imp_right fun settled => settled.covered covers)
      rw [List.cons_append, list_covered covers, list_covered covers, finish_covered covers,
        finish_covered covers, listed, finished]
      exact ⟨rfl, rfl⟩
  | case3 state c rest covers ih =>
      obtain ⟨before, rfl, noMark⟩ :=
        QuoteState.covers_eq_false_iff.1 (Bool.eq_false_iff.2 covers)
      rw [QuoteState.next_outside noMark] at ih
      obtain ⟨listed, finished⟩ := ih (settled.imp_right fun settled => settled.outside noMark)
      have whole := read_append noQuestion noColon
        (settled.imp_right fun settled => settled.stops noMark)
      rw [List.cons_append, list_outside noMark, list_outside noMark, finish_outside noMark,
        finish_outside noMark, whole, listed, finished]
      exact ⟨rfl, rfl⟩

theorem Settled.halves {state : QuoteState} {text tail : Text} (settled : Settled rule state text)
    (noQuestion : tail.head? ≠ some '?') (noColon : tail.head? ≠ some ':') :
    list rule state (text ++ tail) =
        list rule state text ++ list rule (finish rule state text) tail ∧
      finish rule state (text ++ tail) = finish rule (finish rule state text) tail :=
  Lexeme.halves noQuestion noColon (.inr settled)

/-- In front of a backslash a text can always be cut. -/
theorem list_append_backslash (rule : StringRule) (state : QuoteState) (text tail : Text) :
    list rule state (text ++ '\\' :: tail) =
      list rule state text ++ list rule (finish rule state text) ('\\' :: tail) := by
  have noName : ∀ c ∈ ('\\' :: tail).head?, Text.isNameChar c = false := by
    rintro c ⟨⟩
    rfl
  exact (halves (by simp) (by simp) (.inl noName)).1

end Lexeme

/-- The tokens of a list, each with the number of characters in front of it. -/
def Token.starts (offset : Nat) : List Token → List (Token × Nat)
  | [] => []
  | token :: rest => (token, offset) :: starts (offset + token.spelling.length) rest

theorem Token.mem_starts_prepend {text : Text} {tokens : List Token} {token : Token}
    {base offset : Nat} (member : (token, offset) ∈ starts base (prepend text tokens))
    (sign : ∀ text, token ≠ .literal text) :
    (token, offset) ∈ starts (base + text.length) tokens := by
  have alone {tokens : List Token}
      (member : (token, offset) ∈ starts base (.literal text :: tokens)) :
      (token, offset) ∈ starts (base + text.length) tokens := by
    rcases List.mem_cons.1 member with here | later
    · exact absurd (Prod.mk.inj here).1 (sign text)
    · exact later
  cases tokens with
  | nil => exact alone member
  | cons first rest =>
      cases first with
      | escaped | marker => exact alone member
      | literal next =>
          rcases List.mem_cons.1 member with here | later
          · exact absurd (Prod.mk.inj here).1 (sign _)
          · refine List.mem_cons_of_mem _ ?_
            rwa [spelling, List.length_append, ← Nat.add_assoc] at later

namespace Lexeme

/-- A sign or a marker is read from a lexeme that starts where it starts. -/
theorem exists_of_mem_starts {lexemes : List Lexeme} {position base offset : Nat} {token : Token}
    (member : (token, offset) ∈ Token.starts base (number position lexemes))
    (sign : ∀ text, token ≠ .literal text) :
    ∃ front lexeme back, lexemes = front ++ lexeme :: back ∧ (∀ text, lexeme ≠ .plain text) ∧
      offset = base + (spell front).length := by
  induction lexemes generalizing position base with
  | nil => cases member
  | cons lexeme rest ih =>
      have behind {position : Nat}
          (member : (token, offset) ∈
            Token.starts (base + lexeme.spelling.length) (number position rest)) :
          ∃ front other back, lexeme :: rest = front ++ other :: back ∧
            (∀ text, other ≠ .plain text) ∧ offset = base + (spell front).length := by
        obtain ⟨front, other, back, rfl, isSign, same⟩ := ih member
        refine ⟨lexeme :: front, other, back, rfl, isSign, ?_⟩
        rw [same, spell_cons, List.length_append, Nat.add_assoc]
      have whole (isSign : ∀ text, lexeme ≠ .plain text)
          (member : (token, offset) ∈ Token.starts base
            (lexeme.token position :: number (lexeme.following position) rest)) :
          ∃ front other back, lexeme :: rest = front ++ other :: back ∧
            (∀ text, other ≠ .plain text) ∧ offset = base + (spell front).length := by
        rcases List.mem_cons.1 member with here | later
        · exact ⟨[], lexeme, rest, rfl, isSign, (Prod.mk.inj here).2⟩
        · rw [spelling_token] at later
          exact behind later
      cases lexeme with
      | plain text => exact behind (Token.mem_starts_prepend member sign)
      | escaped | positional | named => exact whole nofun member

theorem length_le_of_ofText {front back last : List Lexeme} {text : Text} {lexeme : Lexeme}
    (split : ofText text ++ last = front ++ lexeme :: back)
    (sign : ∀ text, lexeme ≠ .plain text) : text.length ≤ (spell front).length := by
  induction text generalizing front with
  | nil => exact Nat.zero_le _
  | cons c rest ih =>
      cases front with
      | nil => exact absurd (List.cons.inj split).1.symm (sign [c])
      | cons first others =>
          obtain ⟨rfl, later⟩ := List.cons.inj split
          rw [spell_cons, List.length_append, Nat.add_comm]
          exact Nat.succ_le_succ (ih later)

theorem spell_outside {first front back last : List Lexeme} {text : Text} {lexeme : Lexeme}
    (split : first ++ (ofText text ++ last) = front ++ lexeme :: back)
    (sign : ∀ text, lexeme ≠ .plain text) :
    (spell front).length < (spell first).length ∨
      (spell first).length + text.length ≤ (spell front).length := by
  induction first generalizing front with
  | nil =>
      right
      rw [spell, List.flatMap_nil, List.length_nil, Nat.zero_add]
      exact length_le_of_ofText split sign
  | cons head rest ih =>
      cases front with
      | nil =>
          obtain ⟨rfl, -⟩ := List.cons.inj split
          left
          rw [spell_cons, List.length_append]
          exact Nat.lt_of_lt_of_le (List.length_pos_iff.2 (spelling_ne_nil sign))
            (Nat.le_add_right _ _)
      | cons first others =>
          obtain ⟨rfl, later⟩ := List.cons.inj split
          have apart := ih later
          rw [spell_cons, spell_cons, List.length_append, List.length_append]
          omega

end Lexeme

end SqlTemplate
