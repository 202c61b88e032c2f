import Mathlib.Data.List.Induction
import SqlTemplate.Proofs.Cuts

/-!
# The grammar of templates

The tokens of a template are described without reading it character by
character: quoted regions are pieces of literal text as a whole, and so are two
and more colons; what a name is asked for depends on the number of colons
behind it; literal text reaches as far as it can.  Every text has exactly one
list of tokens by this grammar, and it is the one that the reader finds.
-/

namespace SqlTemplate

/-- Whether a backslash hides the character behind it inside a pair of marks. -/
def StringRule.hidesInside (rule : StringRule) (mark : QuoteMark) : Bool :=
  rule = .backslash && mark = .single

namespace Grammar

/-- What can stand between two marks. -/
inductive Content (mark : QuoteMark) (hides : Bool) : Text → Prop where
  | empty : Content mark hides []
  | plain {c : Char} {rest : Text} (noMark : c ≠ mark.char) (shown : hides = true → c ≠ '\\')
      (content : Content mark hides rest) : Content mark hides (c :: rest)
  | hidden {c : Char} {rest : Text} (slash : hides = true)
      (content : Content mark hides rest) : Content mark hides ('\\' :: c :: rest)

/-- A text in which a quoted region does not end. -/
def Endless (mark : QuoteMark) (hides : Bool) (text : Text) : Prop :=
  ∀ content rest, Content mark hides content → text ≠ content ++ mark.char :: rest

/-- A quoted region, given the text behind it. -/
inductive Region (rule : StringRule) : Text → Text → Prop where
  | closed {mark : QuoteMark} {content : Text}
      (inside : Content mark (rule.hidesInside mark) content) (rest : Text) :
      Region rule (mark.char :: content ++ [mark.char]) rest
  | unclosed {mark : QuoteMark} {text : Text}
      (endless : Endless mark (rule.hidesInside mark) text) : Region rule (mark.char :: text) []

/-- A piece of literal text, given the text behind it. -/
inductive Plain (rule : StringRule) : Text → Text → Prop where
  | region {text rest : Text} (region : Region rule text rest) : Plain rule text rest
  | colons {count : Nat} {rest : Text} (many : 2 ≤ count) (whole : rest.head? ≠ some ':') :
      Plain rule (List.replicate count ':') rest
  | colon {rest : Text} (single : rest.head? ≠ some ':')
      (noName : ∀ c ∈ rest.head?, Text.isNameChar c = false) : Plain rule [':'] rest
  | other {c : Char} {rest : Text} (noMark : QuoteMark.ofChar? c = none) (noQuestion : c ≠ '?')
      (noColon : c ≠ ':')
      (slash : c = '\\' → rest.head? ≠ some '?' ∧ rest.head? ≠ some ':') : Plain rule [c] rest

/-- Pieces of literal text one behind the other, given the text behind them. -/
inductive Literal (rule : StringRule) : Text → Text → Prop where
  | single {text rest : Text} (piece : Plain rule text rest) : Literal rule text rest
  | cons {text more rest : Text} (piece : Plain rule text (more ++ rest))
      (literal : Literal rule more rest) : Literal rule (text ++ more) rest

/-- The tokens of a text, with positions counted from a position. -/
inductive Scanned (rule : StringRule) : Nat → Text → List Token → Prop where
  | done (position : Nat) : Scanned rule position [] []
  | literal {position : Nat} {text rest : Text} {tokens : List Token}
      (literal : Literal rule text rest) (maximal : ∀ next, .literal next ∉ tokens.head?)
      (scanned : Scanned rule position rest tokens) :
      Scanned rule position (text ++ rest) (.literal text :: tokens)
  | escaped {position : Nat} (sign : Sign) {rest : Text} {tokens : List Token}
      (scanned : Scanned rule position rest tokens) :
      Scanned rule position ('\\' :: sign.char :: rest) (.escaped sign :: tokens)
  | identifier {position : Nat} {rest : Text} {tokens : List Token}
      (scanned : Scanned rule (position + 1) rest tokens) :
      Scanned rule position ('?' :: '?' :: rest)
        (.marker ⟨.identifier, .index position⟩ :: tokens)
  | value {position : Nat} {rest : Text} {tokens : List Token} (single : rest.head? ≠ some '?')
      (scanned : Scanned rule (position + 1) rest tokens) :
      Scanned rule position ('?' :: rest) (.marker ⟨.value, .index position⟩ :: tokens)
  /-- Behind the name stand no colons, or two, and the marker takes none of them. -/
  | namedValue {position colons : Nat} {word rest : Text} {tokens : List Token}
      (name : word.IsName) (whole : rest.head? ≠ some ':') (cast : colons = 0 ∨ colons = 2)
      (longest : colons = 0 → ∀ c ∈ rest.head?, Text.isNameChar c = false)
      (scanned : Scanned rule position (List.replicate colons ':' ++ rest) tokens) :
      Scanned rule position (':' :: word ++ (List.replicate colons ':' ++ rest))
        (.marker ⟨.value, .name word⟩ :: tokens)
  /-- Behind the name stand one colon, or three and more, and the marker takes the first. -/
  | namedIdentifier {position colons : Nat} {word rest : Text} {tokens : List Token}
      (name : word.IsName) (whole : rest.head? ≠ some ':') (noCast : colons = 0 ∨ 2 ≤ colons)
      (scanned : Scanned rule position (List.replicate colons ':' ++ rest) tokens) :
      Scanned rule position (':' :: word ++ ':' :: (List.replicate colons ':' ++ rest))
        (.marker ⟨.identifier, .name word⟩ :: tokens)

end Grammar

theorem StringRule.hides_eq_hidesInside {rule : StringRule} (plain : rule ≠ .escapePrefixed)
    (before : Preceding) (mark : QuoteMark) : rule.hides before mark = rule.hidesInside mark := by
  cases mark <;> cases rule <;> first | rfl | exact absurd rfl plain

theorem Token.prepend_prepend (first second : Text) (tokens : List Token) :
    prepend first (prepend second tokens) = prepend (first ++ second) tokens := by
  cases tokens with
  | nil => rfl
  | cons token rest => cases token <;> simp [prepend]

namespace Lexeme

theorem number_ofText {text : Text} (nonempty : text ≠ []) (position : Nat)
    (lexemes : List Lexeme) :
    number position (ofText text ++ lexemes) = Token.prepend text (number position lexemes) := by
  induction text with
  | nil => exact absurd rfl nonempty
  | cons c rest ih =>
      cases rest with
      | nil => rfl
      | cons d others =>
          have later := ih (List.cons_ne_nil d others)
          change Token.prepend [c] (number position (ofText (d :: others) ++ lexemes)) = _
          rw [later, Token.prepend_prepend]
          rfl

end Lexeme

namespace Grammar

variable {rule : StringRule} {text rest : Text} {position : Nat} {tokens : List Token}

theorem Content.reading_eq {mark : QuoteMark} {hides : Bool} {content : Text}
    (inside : Content mark hides content) :
    QuoteState.reading rule (.inside mark hides) (content ++ [mark.char]) =
      (.outside .boundary, []) := by
  induction inside with
  | empty =>
      rw [List.nil_append, QuoteState.reading_cons_of_covers rfl, QuoteState.next_inside_mark]
      rfl
  | plain noMark shown content ih =>
      rw [List.cons_append, QuoteState.reading_cons_of_covers rfl,
        QuoteState.next_inside_plain noMark shown, ih]
  | hidden slash content ih =>
      subst slash
      rw [List.cons_append, QuoteState.reading_cons_of_covers rfl, List.cons_append,
        QuoteState.reading_cons_of_covers rfl]
      exact ih

theorem Endless.unquoted_eq_nil {mark : QuoteMark} {hides : Bool} (endless : Endless mark hides text) :
    QuoteState.unquoted rule (.inside mark hides) text = [] := by
  induction text using List.twoStepInduction with
  | nil => rfl
  | singleton c => rw [QuoteState.unquoted_cons_of_covers rfl, QuoteState.unquoted_nil]
  | cons_cons c d rest ih ihTail =>
      rw [QuoteState.unquoted_cons_of_covers rfl]
      by_cases escape : hides = true ∧ c = '\\'
      · obtain ⟨rfl, rfl⟩ := escape
        rw [QuoteState.unquoted_cons_of_covers rfl]
        refine ih fun content behind inside same => ?_
        exact endless ('\\' :: d :: content) behind (.hidden rfl inside) (by rw [same]; rfl)
      · have noMark : c ≠ mark.char := by
          rintro rfl
          exact endless [] (d :: rest) .empty rfl
        have shown : hides = true → c ≠ '\\' := fun on slash => escape ⟨on, slash⟩
        rw [QuoteState.next_inside_plain noMark shown]
        refine ihTail d fun content behind inside same => ?_
        exact endless (c :: content) behind (.plain noMark shown inside) (by rw [same]; rfl)

/-- The reader finds a quoted region character by character, and goes on behind it. -/
theorem Region.exists_list (plain : rule ≠ .escapePrefixed) (region : Region rule text rest)
    (before : Preceding) :
    ∃ after, Lexeme.list rule (.outside before) (text ++ rest) =
      Lexeme.ofText text ++ Lexeme.list rule (.outside after) rest := by
  have opens (mark : QuoteMark) (others : Text) :
      QuoteState.reading rule (.outside before) (mark.char :: others) =
        QuoteState.reading rule (.inside mark (rule.hidesInside mark)) others := by
    rw [QuoteState.reading_cons_of_covers (by simp [QuoteState.covers]),
      QuoteState.next_outside_mark, StringRule.hides_eq_hidesInside plain]
  refine ⟨.boundary, ?_⟩
  cases region with
  | @closed mark content inside rest =>
      have read : QuoteState.reading rule (.outside before) (mark.char :: content ++ [mark.char]) =
          (.outside .boundary, []) := by
        rw [List.cons_append, opens, inside.reading_eq]
      obtain ⟨run, nothing⟩ := Prod.mk.inj read
      rw [Lexeme.list_of_unquoted_eq_nil nothing, run]
  | @unclosed mark text endless =>
      have nothing : QuoteState.unquoted rule (.outside before) (mark.char :: text) = [] := by
        have read := congrArg Prod.snd (opens mark text)
        exact read.trans endless.unquoted_eq_nil
      rw [Lexeme.list_of_unquoted_eq_nil nothing, Lexeme.list, Lexeme.list]

theorem Region.ne_nil (region : Region rule text rest) : text ≠ [] := by
  cases region <;> simp

theorem Plain.exists_number (plain : rule ≠ .escapePrefixed) (piece : Plain rule text rest)
    (before : Preceding) :
    ∃ after, ∀ position,
      Lexeme.number position (Lexeme.list rule (.outside before) (text ++ rest)) =
        Token.prepend text
          (Lexeme.number position (Lexeme.list rule (.outside after) rest)) := by
  cases piece with
  | region region =>
      obtain ⟨after, found⟩ := region.exists_list plain before
      refine ⟨after, fun position => ?_⟩
      rw [found, Lexeme.number_ofText region.ne_nil]
  | @colons count rest many whole =>
      obtain ⟨more, rfl⟩ := Nat.exists_eq_add_of_le' many
      refine ⟨before.step ':', fun position => ?_⟩
      rw [List.replicate_succ, List.cons_append, Lexeme.list_outside rfl,
        Lexeme.read_colons more whole]
      rfl
  | colon single noName =>
      refine ⟨before.step ':', fun position => ?_⟩
      rw [List.singleton_append, Lexeme.list_outside rfl, Lexeme.read_colon single,
        Lexeme.readName_of_noName noName]
      rfl
  | @other c rest noMark noQuestion noColon slash =>
      refine ⟨before.step c, fun position => ?_⟩
      rw [List.singleton_append, Lexeme.list_outside noMark,
        Lexeme.read_single noQuestion slash fun colon => absurd colon noColon]
      rfl

theorem Literal.exists_number (plain : rule ≠ .escapePrefixed) (literal : Literal rule text rest)
    (before : Preceding) :
    ∃ after, ∀ position,
      Lexeme.number position (Lexeme.list rule (.outside before) (text ++ rest)) =
        Token.prepend text
          (Lexeme.number position (Lexeme.list rule (.outside after) rest)) := by
  induction literal generalizing before with
  | single piece => exact piece.exists_number plain before
  | cons piece literal ih =>
      obtain ⟨between, front⟩ := piece.exists_number plain before
      obtain ⟨after, back⟩ := ih between
      refine ⟨after, fun position => ?_⟩
      rw [List.append_assoc, front position, back position, Token.prepend_prepend]

/-- The reader finds the tokens that the grammar gives to a text. -/
theorem Scanned.number_list (plain : rule ≠ .escapePrefixed)
    (scanned : Scanned rule position text tokens) (before : Preceding) :
    Lexeme.number position (Lexeme.list rule (.outside before) text) = tokens := by
  induction scanned generalizing before with
  | done position => rw [Lexeme.list]; rfl
  | @literal position text rest tokens literal maximal scanned ih =>
      obtain ⟨after, found⟩ := literal.exists_number plain before
      rw [found, ih after]
      cases tokens with
      | nil => rfl
      | cons token others =>
          cases token with
          | literal next => exact absurd rfl (maximal next)
          | escaped | marker => rfl
  | escaped sign scanned ih =>
      rw [Lexeme.list_outside rfl]
      cases sign <;> exact congrArg _ (ih _)
  | identifier scanned ih =>
      rw [Lexeme.list_outside rfl]
      exact congrArg _ (ih _)
  | value single scanned ih =>
      rw [Lexeme.list_outside rfl, Lexeme.read_value single]
      exact congrArg _ (ih _)
  | @namedValue position colons word rest tokens name whole cast longest scanned ih =>
      have ends : ∀ c ∈ (List.replicate colons ':' ++ rest).head?, Text.isNameChar c = false := by
        rcases cast with rfl | rfl
        · exact longest rfl
        · rintro c ⟨⟩
          rfl
      rw [List.cons_append, Lexeme.list_outside rfl, Lexeme.read_colon (name.head?_append _),
        Lexeme.readName_append name ends, Lexeme.roleAfterName_value whole cast]
      exact congrArg _ (ih _)
  | @namedIdentifier position colons word rest tokens name whole noCast scanned ih =>
      have ends : ∀ c ∈ (':' :: (List.replicate colons ':' ++ rest)).head?,
          Text.isNameChar c = false := by
        rintro c ⟨⟩
        rfl
      rw [List.cons_append, Lexeme.list_outside rfl, Lexeme.read_colon (name.head?_append _),
        Lexeme.readName_append name ends, Lexeme.roleAfterName_identifier whole noCast]
      exact congrArg _ (ih _)

theorem Scanned.prepend (piece : Plain rule text rest)
    (scanned : Scanned rule position rest tokens) :
    Scanned rule position (text ++ rest) (Token.prepend text tokens) := by
  have alone (maximal : ∀ next, .literal next ∉ tokens.head?) :
      Scanned rule position (text ++ rest) (.literal text :: tokens) :=
    .literal (.single piece) maximal scanned
  cases tokens with
  | nil => exact alone (by simp)
  | cons token others =>
      cases token with
      | literal next =>
          cases scanned with
          | literal literal maximal scanned =>
              rw [← List.append_assoc]
              exact .literal (.cons piece literal) maximal scanned
      | escaped sign => exact alone (by simp)
      | marker place => exact alone (by simp)

def Scannable (rule : StringRule) (text : Text) : Prop :=
  ∀ position, ∃ tokens, Scanned rule position text tokens

namespace Scannable

theorem prepend (piece : Plain rule text rest) (later : Scannable rule rest) :
    Scannable rule (text ++ rest) := by
  intro position
  obtain ⟨tokens, scanned⟩ := later position
  exact ⟨_, scanned.prepend piece⟩

theorem quoted {mark : QuoteMark}
    (later : ∀ behind : Text, behind.length ≤ text.length → Scannable rule behind) :
    Scannable rule (mark.char :: text) := by
  by_cases endless : Endless mark (rule.hidesInside mark) text
  · have whole := prepend (.region (.unclosed endless)) (later [] (Nat.zero_le _))
    rwa [List.append_nil] at whole
  · unfold Endless at endless
    push Not at endless
    obtain ⟨content, behind, inside, rfl⟩ := endless
    have shorter : behind.length ≤ (content ++ mark.char :: behind).length := by
      simp only [List.length_append, List.length_cons]
      omega
    have whole := prepend (.region (.closed inside behind)) (later behind shorter)
    rwa [List.append_assoc] at whole

theorem question
    (later : ∀ behind : Text, behind.length ≤ text.length → Scannable rule behind) :
    Scannable rule ('?' :: text) := by
  intro position
  by_cases double : text.head? = some '?'
  · obtain ⟨behind, rfl⟩ := List.head?_eq_some_iff.1 double
    obtain ⟨tokens, scanned⟩ := later behind (Nat.le_succ _) (position + 1)
    exact ⟨_, .identifier scanned⟩
  · obtain ⟨tokens, scanned⟩ := later text (Nat.le_refl _) (position + 1)
    exact ⟨_, .value double scanned⟩

theorem named {word : Text} (name : word.IsName) (ends : ∀ c ∈ text.head?, Text.isNameChar c = false)
    (later : ∀ behind : Text, behind.length ≤ text.length → Scannable rule behind) :
    Scannable rule (':' :: word ++ text) := by
  intro position
  obtain ⟨count, behind, rfl, whole⟩ := Text.exists_colons text
  by_cases cast : count = 0 ∨ count = 2
  · obtain ⟨tokens, scanned⟩ := later _ (Nat.le_refl _) position
    refine ⟨_, .namedValue name whole cast (fun none => ?_) scanned⟩
    subst none
    exact ends
  · obtain ⟨colons, rfl⟩ : ∃ colons, count = colons + 1 :=
      Nat.exists_eq_succ_of_ne_zero fun none => cast (.inl none)
    have noCast : colons = 0 ∨ 2 ≤ colons := by omega
    obtain ⟨tokens, scanned⟩ :=
      later (List.replicate colons ':' ++ behind) (by simp) position
    exact ⟨_, .namedIdentifier name whole noCast scanned⟩

theorem colon
    (later : ∀ behind : Text, behind.length ≤ text.length → Scannable rule behind) :
    Scannable rule (':' :: text) := by
  obtain ⟨count, behind, rfl, whole⟩ := Text.exists_colons text
  cases count with
  | succ more =>
      have many : 2 ≤ more + 2 := Nat.le_add_left 2 more
      exact prepend (.colons many whole) (later behind (by simp))
  | zero =>
      change Scannable rule (':' :: behind)
      by_cases noName : ∀ c ∈ behind.head?, Text.isNameChar c = false
      · exact prepend (.colon whole noName) (later behind (Nat.le_refl _))
      · obtain ⟨word, tail, rfl, all, ends⟩ := Text.exists_span Text.isNameChar behind
        have name : word.IsName := by
          refine ⟨?_, all⟩
          rintro rfl
          exact noName ends
        exact named name ends fun shorter less => later shorter (by simp; omega)

theorem other {c : Char} (noMark : QuoteMark.ofChar? c = none) (noQuestion : c ≠ '?')
    (noColon : c ≠ ':')
    (later : ∀ behind : Text, behind.length ≤ text.length → Scannable rule behind) :
    Scannable rule (c :: text) := by
  by_cases escape : c = '\\' ∧ ∃ sign : Sign, text.head? = some sign.char
  · obtain ⟨rfl, sign, first⟩ := escape
    obtain ⟨behind, rfl⟩ := List.head?_eq_some_iff.1 first
    intro position
    obtain ⟨tokens, scanned⟩ := later behind (Nat.le_succ _) position
    exact ⟨_, .escaped sign scanned⟩
  · refine prepend (.other noMark noQuestion noColon fun slash => ?_) (later text (Nat.le_refl _))
    constructor
    · intro first
      exact escape ⟨slash, .question, first⟩
    · intro first
      exact escape ⟨slash, .colon, first⟩

end Scannable

/-- Every text has tokens by the grammar. -/
theorem scannable (rule : StringRule) (text : Text) : Scannable rule text := by
  induction size : text.length using Nat.strong_induction_on generalizing text with
  | _ n ih =>
      cases text with
      | nil => exact fun position => ⟨[], .done position⟩
      | cons c rest =>
          have later (behind : Text) (shorter : behind.length ≤ rest.length) :
              Scannable rule behind :=
            ih behind.length (by rw [← size]; exact Nat.lt_succ_of_le shorter) behind rfl
          cases found : QuoteMark.ofChar? c with
          | some mark =>
              obtain rfl := QuoteMark.ofChar?_eq_some_iff.1 found
              exact .quoted later
          | none =>
              by_cases question : c = '?'
              · subst question
                exact .question later
              · by_cases colon : c = ':'
                · subst colon
                  exact .colon later
                · exact .other found question colon later

/--
The reader finds exactly the tokens of the grammar, unless some strings have a
prefix.
-/
theorem lex_eq_iff (plain : rule ≠ .escapePrefixed) :
    Token.lex rule text = tokens ↔ Scanned rule 0 text tokens := by
  constructor
  · rintro rfl
    obtain ⟨tokens, scanned⟩ := scannable rule text 0
    have found : Token.lex rule text = tokens := scanned.number_list plain .boundary
    rwa [found]
  · intro scanned
    exact scanned.number_list plain .boundary

/-- A cast, a quoted mark, three colons behind a name, and signs that are escaped or alone. -/
theorem scanned_mixed :
    Scanned .backslash 0 "?? = :a::int or ':\\'?' < :b:::c and ? \\? ::d :".toList
      [.marker ⟨.identifier, .index 0⟩, .literal " = ".toList, .marker ⟨.value, .name ['a']⟩,
       .literal "::int or ':\\'?' < ".toList, .marker ⟨.identifier, .name ['b']⟩,
       .literal "::c and ".toList, .marker ⟨.value, .index 1⟩, .literal " ".toList,
       .escaped .question, .literal " ::d :".toList] := by
  refine (lex_eq_iff (by decide)).1 ?_
  decide +kernel

end Grammar

end SqlTemplate
