import Mathlib.Data.List.TakeWhile
import SqlTemplate.Proofs.Quoting
import SqlTemplate.Token.Lexer

/-!
# What reading a lexeme finds

The cases of reading are listed once, each with the text behind the lexeme and
with what the longest marker leaves out.  Proofs about tokens split along this
list instead of unfolding the reader.
-/

namespace SqlTemplate

def Text.IsName (word : Text) : Prop :=
  word ≠ [] ∧ ∀ c ∈ word, isNameChar c = true

theorem Text.IsName.head?_append {word : Text} (name : word.IsName) (rest : Text) :
    (word ++ rest).head? ≠ some ':' := by
  obtain ⟨nonempty, all⟩ := name
  cases word with
  | nil => exact absurd rfl nonempty
  | cons c others =>
      intro colon
      obtain rfl := Option.some.inj colon
      exact absurd (all ':' List.mem_cons_self) (by decide)

theorem Text.span_append {p : Char → Bool} {front rest : Text} (all : ∀ c ∈ front, p c = true)
    (stop : ∀ c ∈ rest.head?, p c = false) :
    (front ++ rest).takeWhile p = front ∧ (front ++ rest).dropWhile p = rest := by
  have noMore : rest.takeWhile p = [] ∧ rest.dropWhile p = rest := by
    cases rest with
    | nil => exact ⟨rfl, rfl⟩
    | cons c others =>
        have here : ¬ p c = true := Bool.eq_false_iff.1 (stop c rfl)
        exact ⟨List.takeWhile_cons_of_neg here, List.dropWhile_cons_of_neg here⟩
  rw [List.takeWhile_append_of_pos all, List.dropWhile_append_of_pos all, noMore.1, noMore.2]
  exact ⟨List.append_nil front, rfl⟩

theorem Text.head?_dropWhile {p : Char → Bool} {text : Text} {c : Char}
    (first : c ∈ (text.dropWhile p).head?) : p c = false := by
  have stopped := List.head?_dropWhile_not p text
  rw [Option.mem_def] at first
  rwa [first] at stopped

/-- A text starts with characters of a class, and with no more of them. -/
theorem Text.exists_span (p : Char → Bool) (text : Text) :
    ∃ front rest, text = front ++ rest ∧ (∀ c ∈ front, p c = true) ∧
      ∀ c ∈ rest.head?, p c = false := by
  exact ⟨text.takeWhile p, text.dropWhile p, List.takeWhile_append_dropWhile.symm,
    fun c member => List.mem_takeWhile_imp member, fun c first => head?_dropWhile first⟩

theorem Text.exists_colons (text : Text) :
    ∃ count rest, text = List.replicate count ':' ++ rest ∧ rest.head? ≠ some ':' := by
  obtain ⟨front, rest, rfl, all, stop⟩ := exists_span (· = ':') text
  refine ⟨front.length, rest, ?_, fun colon => by simpa using stop ':' colon⟩
  rw [← List.eq_replicate_of_mem fun c member => by simpa using all c member]

namespace Lexeme

/-- The lexeme that starts with a character, given the text behind the character. -/
inductive Reads : Char → Text → Lexeme → Text → Prop where
  | escaped (sign : Sign) (rest : Text) :
      Reads '\\' (sign.char :: rest) (.escaped sign) rest
  | identifier (rest : Text) :
      Reads '?' ('?' :: rest) (.positional .identifier) rest
  | value {rest : Text} (single : rest.head? ≠ some '?') :
      Reads '?' rest (.positional .value) rest
  | colons {run rest : Text} (all : ∀ c ∈ run, c = ':') (whole : rest.head? ≠ some ':') :
      Reads ':' (':' :: run ++ rest) (.plain (':' :: ':' :: run)) rest
  | namedIdentifier {word : Text} (name : word.IsName) (rest : Text) :
      Reads ':' (word ++ ':' :: rest) (.named .identifier word) rest
  | namedValue {word rest : Text} (name : word.IsName)
      (whole : ∀ c ∈ rest.head?, Text.isNameChar c = false)
      (cast : rest.head? = some ':' → rest.tail.head? = some ':') :
      Reads ':' (word ++ rest) (.named .value word) rest
  | plain {c : Char} {rest : Text} (noQuestion : c ≠ '?')
      (slash : c = '\\' → rest.head? ≠ some '?' ∧ rest.head? ≠ some ':')
      (colon : c = ':' → rest.head? ≠ some ':' ∧ ∀ d ∈ rest.head?, Text.isNameChar d = false) :
      Reads c rest (.plain [c]) rest

theorem reads_roleAfterName {word rest : Text} (name : word.IsName)
    (whole : ∀ c ∈ rest.head?, Text.isNameChar c = false) :
    Reads ':' (word ++ rest) (.named (roleAfterName rest).1 word) (roleAfterName rest).2 := by
  unfold roleAfterName
  split
  · exact .namedIdentifier name _
  · exact .namedValue name (by simp [Text.isNameChar, Char.isAlphanum]) (by simp)
  · exact .namedIdentifier name _
  · next noThree noTwo noOne =>
      refine .namedValue name whole fun colon => ?_
      obtain ⟨others, rfl⟩ := List.head?_eq_some_iff.1 colon
      exact absurd rfl (noOne others)

theorem reads_readName {rest : Text} (single : rest.head? ≠ some ':') :
    Reads ':' rest (readName rest).1 (readName rest).2 := by
  have split : rest.takeWhile Text.isNameChar ++ rest.dropWhile Text.isNameChar = rest :=
    List.takeWhile_append_dropWhile
  unfold readName
  cases word : rest.takeWhile Text.isNameChar with
  | nil =>
      refine .plain (by decide) (fun slash => absurd slash (by decide)) fun _ =>
        ⟨single, fun d first => ?_⟩
      rw [← split, word] at first
      exact Text.head?_dropWhile first
  | cons c others =>
      have name : Text.IsName (c :: others) := by
        refine ⟨List.cons_ne_nil _ _, fun d member => ?_⟩
        rw [← word] at member
        exact List.mem_takeWhile_imp member
      have whole : ∀ d ∈ (rest.dropWhile Text.isNameChar).head?, Text.isNameChar d = false :=
        fun d first => Text.head?_dropWhile first
      have found := reads_roleAfterName name whole
      rwa [← word, split, word] at found

theorem reads_read (c : Char) (rest : Text) : Reads c rest (read c rest).1 (read c rest).2 := by
  unfold read
  split
  · exact .escaped .question _
  · exact .escaped .colon _
  · exact .identifier _
  · next noMore =>
      refine .value fun question => ?_
      obtain ⟨others, same⟩ := List.head?_eq_some_iff.1 question
      exact noMore others same
  · next tail =>
      have whole : (tail.dropWhile (· = ':')).head? ≠ some ':' := fun colon => by
        simpa using Text.head?_dropWhile colon
      have all : ∀ c ∈ tail.takeWhile (· = ':'), c = ':' := fun c member => by
        simpa using List.mem_takeWhile_imp member
      have found := Reads.colons all whole
      rwa [List.cons_append, List.takeWhile_append_dropWhile] at found
  · next noCast =>
      refine reads_readName fun colon => ?_
      obtain ⟨others, same⟩ := List.head?_eq_some_iff.1 colon
      exact noCast others same
  · next noQuestion noColon noEscape noEscapedColon _ _ =>
      refine .plain noQuestion (fun slash => ⟨fun question => ?_, fun colon => ?_⟩)
        (fun colon => (noColon colon).elim)
      · obtain ⟨others, same⟩ := List.head?_eq_some_iff.1 question
        exact noEscape others slash same
      · obtain ⟨others, same⟩ := List.head?_eq_some_iff.1 colon
        exact noEscapedColon others slash same

theorem read_plain {c : Char} (noSlash : c ≠ '\\') (noQuestion : c ≠ '?') (noColon : c ≠ ':')
    (rest : Text) : read c rest = (.plain [c], rest) := by
  unfold read
  split <;> first | rfl | contradiction

theorem read_of_isNameChar {c : Char} (name : Text.isNameChar c = true) (rest : Text) :
    read c rest = (.plain [c], rest) := by
  have noSign : ∀ sign : Char, Text.isNameChar sign = false → c ≠ sign := by
    rintro sign noName rfl
    rw [noName] at name
    cases name
  exact read_plain (noSign _ rfl) (noSign _ rfl) (noSign _ rfl) rest

theorem read_value {rest : Text} (single : rest.head? ≠ some '?') :
    read '?' rest = (.positional .value, rest) := by
  unfold read
  split <;> simp_all

theorem read_colon {rest : Text} (single : rest.head? ≠ some ':') :
    read ':' rest = readName rest := by
  unfold read
  split <;> simp_all

theorem readName_append {word rest : Text} (name : word.IsName)
    (whole : ∀ c ∈ rest.head?, Text.isNameChar c = false) :
    readName (word ++ rest) = (.named (roleAfterName rest).1 word, (roleAfterName rest).2) := by
  obtain ⟨front, back⟩ := Text.span_append name.2 whole
  unfold readName
  rw [front, back]
  cases word with
  | nil => exact absurd rfl name.1
  | cons c others => rfl

theorem read_backslash {rest : Text} (noQuestion : rest.head? ≠ some '?')
    (noColon : rest.head? ≠ some ':') : read '\\' rest = (.plain ['\\'], rest) := by
  unfold read
  split <;> simp_all

theorem read_colons (count : Nat) {rest : Text} (whole : rest.head? ≠ some ':') :
    read ':' (List.replicate (count + 1) ':' ++ rest) =
      (.plain (List.replicate (count + 2) ':'), rest) := by
  have colons : ∀ c ∈ List.replicate count ':', decide (c = ':') = true := by
    intro c member
    simpa using List.eq_of_mem_replicate member
  have stop : ∀ c ∈ rest.head?, decide (c = ':') = false := by
    rintro c first
    simp only [decide_eq_false_iff_not]
    rintro rfl
    exact whole first
  obtain ⟨front, back⟩ := Text.span_append colons stop
  rw [List.replicate_succ, List.cons_append]
  change (Lexeme.plain (':' :: ':' :: (List.replicate count ':' ++ rest).takeWhile (· = ':')),
    (List.replicate count ':' ++ rest).dropWhile (· = ':')) = _
  rw [front, back]
  rfl

theorem readName_of_noName {rest : Text}
    (noName : ∀ c ∈ rest.head?, Text.isNameChar c = false) :
    readName rest = (.plain [':'], rest) := by
  obtain ⟨nothing, -⟩ := Text.span_append (List.forall_mem_nil _) noName
  rw [List.nil_append] at nothing
  unfold readName
  rw [nothing]

theorem read_single {c : Char} {rest : Text} (noQuestion : c ≠ '?')
    (slash : c = '\\' → rest.head? ≠ some '?' ∧ rest.head? ≠ some ':')
    (colon : c = ':' → rest.head? ≠ some ':' ∧ ∀ d ∈ rest.head?, Text.isNameChar d = false) :
    read c rest = (.plain [c], rest) := by
  by_cases isSlash : c = '\\'
  · subst isSlash
    exact read_backslash (slash rfl).1 (slash rfl).2
  by_cases isColon : c = ':'
  · subst isColon
    rw [read_colon (colon rfl).1, readName_of_noName (colon rfl).2]
  · exact read_plain isSlash noQuestion isColon rest

theorem roleAfterName_value {count : Nat} {rest : Text} (whole : rest.head? ≠ some ':')
    (cast : count = 0 ∨ count = 2) :
    roleAfterName (List.replicate count ':' ++ rest) =
      (.value, List.replicate count ':' ++ rest) := by
  rcases cast with rfl | rfl
  · change roleAfterName rest = (.value, rest)
    unfold roleAfterName
    split <;> simp_all
  · change roleAfterName (':' :: ':' :: rest) = (.value, ':' :: ':' :: rest)
    rw [roleAfterName]
    rintro others rfl
    exact whole rfl

theorem roleAfterName_identifier {count : Nat} {rest : Text} (whole : rest.head? ≠ some ':')
    (noCast : count = 0 ∨ 2 ≤ count) :
    roleAfterName (':' :: (List.replicate count ':' ++ rest)) =
      (.identifier, List.replicate count ':' ++ rest) := by
  rcases noCast with rfl | many
  · change roleAfterName (':' :: rest) = (.identifier, rest)
    unfold roleAfterName
    split <;> simp_all
  · obtain ⟨more, rfl⟩ := Nat.exists_eq_add_of_le' many
    rfl

/-- What a name is asked for depends on the number of colons behind it, and on nothing else. -/
theorem exists_roleAfterName (count : Nat) :
    ∃ role left, ∀ rest : Text, rest.head? ≠ some ':' →
      roleAfterName (List.replicate count ':' ++ rest) =
        (role, List.replicate left ':' ++ rest) := by
  by_cases cast : count = 0 ∨ count = 2
  · exact ⟨.value, count, fun rest whole => roleAfterName_value whole cast⟩
  · obtain ⟨fewer, rfl⟩ : ∃ fewer, count = fewer + 1 :=
      Nat.exists_eq_succ_of_ne_zero fun none => cast (.inl none)
    have noCast : fewer = 0 ∨ 2 ≤ fewer := by omega
    exact ⟨.identifier, fewer, fun rest whole => roleAfterName_identifier whole noCast⟩

theorem list_outside {rule : StringRule} {before : Preceding} {c : Char}
    (noMark : QuoteMark.ofChar? c = none) (rest : Text) :
    list rule (.outside before) (c :: rest) =
      (read c rest).1 :: list rule (.outside (before.step c)) (read c rest).2 := by
  have uncovered : ¬ (QuoteState.outside before).covers c = true := by
    simp [QuoteState.covers, noMark]
  rw [list, if_neg uncovered, QuoteState.next_outside noMark]

theorem list_covered {rule : StringRule} {state : QuoteState} {c : Char}
    (covers : state.covers c = true) (rest : Text) :
    list rule state (c :: rest) = .plain [c] :: list rule (state.next rule c) rest := by
  rw [list, if_pos covers]

theorem list_plain {rule : StringRule} {before : Preceding} {c : Char}
    (noMark : QuoteMark.ofChar? c = none) (noSlash : c ≠ '\\') (noQuestion : c ≠ '?')
    (noColon : c ≠ ':') (rest : Text) :
    list rule (.outside before) (c :: rest) =
      .plain [c] :: list rule (.outside (before.step c)) rest := by
  rw [list_outside noMark, read_plain noSlash noQuestion noColon]

theorem list_value {rule : StringRule} {before : Preceding} {rest : Text}
    (single : rest.head? ≠ some '?') :
    list rule (.outside before) ('?' :: rest) =
      .positional .value :: list rule (.outside .boundary) rest := by
  rw [list_outside rfl, read_value single]
  cases before <;> rfl

def token (position : Nat) : Lexeme → Token
  | .plain text => .literal text
  | .escaped sign => .escaped sign
  | .positional role => .marker ⟨role, .index position⟩
  | .named role name => .marker ⟨role, .name name⟩

def following (position : Nat) : Lexeme → Nat
  | .positional _ => position + 1
  | .plain _ | .escaped _ | .named .. => position

def questions : List Lexeme → Nat
  | [] => 0
  | .positional _ :: rest => questions rest + 1
  | .plain _ :: rest | .escaped _ :: rest | .named .. :: rest => questions rest

theorem following_add_questions (position : Nat) (lexeme : Lexeme) (rest : List Lexeme) :
    lexeme.following position + questions rest = position + questions (lexeme :: rest) := by
  cases lexeme with
  | positional role => exact Nat.add_right_comm position 1 (questions rest)
  | plain | escaped | named => rfl

theorem Reads.spelling_append {c : Char} {text rest : Text} {lexeme : Lexeme}
    (reads : Reads c text lexeme rest) (position : Nat) :
    (lexeme.token position).spelling ++ rest = c :: text := by
  cases reads <;> simp [token, Token.spelling, Marker.spelling]

theorem Reads.noMark {c : Char} {text rest : Text} {lexeme : Lexeme}
    (reads : Reads c text lexeme rest) (noMark : QuoteMark.ofChar? c = none) :
    ∀ d ∈ (lexeme.token 0).spelling, QuoteMark.ofChar? d = none := by
  have ofName {word : Text} (name : word.IsName) : ∀ d ∈ word, QuoteMark.ofChar? d = none :=
    fun d member => QuoteMark.ofChar?_eq_none_of_isNameChar (name.2 d member)
  cases reads with
  | escaped sign rest =>
      cases sign <;> simp [token, Token.spelling, Sign.char, QuoteMark.ofChar?]
  | identifier rest => simp [token, Token.spelling, Marker.spelling, QuoteMark.ofChar?]
  | value single => simp [token, Token.spelling, Marker.spelling, QuoteMark.ofChar?]
  | @colons run rest all whole =>
      have allColons : ∀ d ∈ ':' :: ':' :: run, d = ':' := by simpa using all
      intro d member
      rw [allColons d member]
      decide
  | @namedIdentifier word name rest =>
      intro d member
      change d ∈ ':' :: (word ++ [':']) at member
      rcases List.mem_cons.1 member with rfl | later
      · decide
      · rcases List.mem_append.1 later with inWord | last
        · exact ofName name d inWord
        · obtain rfl := List.mem_singleton.1 last
          decide
  | @namedValue word rest name whole cast =>
      intro d member
      rcases List.mem_cons.1 member with rfl | inWord
      · decide
      · exact ofName name d inWord
  | plain noQuestion slash colon =>
      intro d member
      obtain rfl := List.mem_singleton.1 member
      exact noMark

theorem flatMap_number_cons {α : Type} (yield : Token → List α)
    (additive : ∀ first second,
      yield (.literal (first ++ second)) = yield (.literal first) ++ yield (.literal second))
    (position : Nat) (lexeme : Lexeme) (rest : List Lexeme) :
    (number position (lexeme :: rest)).flatMap yield =
      yield (lexeme.token position) ++
        (number (lexeme.following position) rest).flatMap yield := by
  cases lexeme with
  | plain text =>
      simp only [number, token, following, Token.prepend]
      split
      · next same => rw [same, List.flatMap_cons, List.flatMap_cons, additive, List.append_assoc]
      · rw [List.flatMap_cons]
  | escaped sign => rfl
  | positional role => rfl
  | named role name => rfl

end Lexeme

namespace Token

variable {rule : StringRule}

/-- Nothing of a text is lost when it is read. -/
theorem spell_number_list (position : Nat) (state : QuoteState) (text : Text) :
    spell (Lexeme.number position (Lexeme.list rule state text)) = text := by
  induction state, text using Lexeme.list.induct rule generalizing position with
  | case1 state => simp [Lexeme.list, Lexeme.number]
  | case2 state c rest covers ih =>
      simp [Lexeme.list, covers, Lexeme.number, ih]
  | case3 state c rest covers ih =>
      rw [Lexeme.list, if_neg covers, spell,
        Lexeme.flatMap_number_cons spelling (fun _ _ => rfl), ← spell, ih]
      exact (Lexeme.reads_read c rest).spelling_append position

/-- The markers among tokens, each with the text behind it. -/
def places : List Token → List (Marker × Text)
  | [] => []
  | .marker place :: rest => (place, spell rest) :: places rest
  | .literal _ :: rest | .escaped _ :: rest => places rest

@[simp] theorem places_prepend (text : Text) (tokens : List Token) :
    places (prepend text tokens) = places tokens := by
  unfold prepend
  split <;> rfl

def IsLiteral : Token → Prop
  | .literal _ => True
  | .escaped _ | .marker _ => False

theorem mem_prepend {token : Token} (noLiteral : ¬ token.IsLiteral) {text : Text}
    {tokens : List Token} : token ∈ prepend text tokens ↔ token ∈ tokens := by
  have other (piece : Text) : token ≠ .literal piece := by
    rintro rfl
    exact noLiteral trivial
  unfold prepend
  split <;> simp [other]

end Token

namespace Marker

/-- What reading guarantees about a marker and the text behind it. -/
inductive Ends : Marker → Text → Prop where
  | identifier (position : Nat) (rest : Text) : Ends ⟨.identifier, .index position⟩ rest
  | value (position : Nat) {rest : Text} (single : rest.head? ≠ some '?') :
      Ends ⟨.value, .index position⟩ rest
  | namedIdentifier {word : Text} (name : word.IsName) (rest : Text) :
      Ends ⟨.identifier, .name word⟩ rest
  | namedValue {word rest : Text} (name : word.IsName)
      (whole : ∀ c ∈ rest.head?, Text.isNameChar c = false)
      (cast : rest.head? = some ':' → rest.tail.head? = some ':') :
      Ends ⟨.value, .name word⟩ rest

end Marker

namespace Lexeme

def spelling (lexeme : Lexeme) : Text :=
  (lexeme.token 0).spelling

theorem spelling_token (lexeme : Lexeme) (position : Nat) :
    (lexeme.token position).spelling = lexeme.spelling := by
  cases lexeme with
  | plain | escaped | named => rfl
  | positional role => cases role <;> rfl

theorem spelling_ne_nil {lexeme : Lexeme} (sign : ∀ text, lexeme ≠ .plain text) :
    lexeme.spelling ≠ [] := by
  cases lexeme with
  | plain text => exact absurd rfl (sign text)
  | escaped => exact List.cons_ne_nil _ _
  | positional role => cases role <;> exact List.cons_ne_nil _ _
  | named role name => cases role <;> exact List.cons_ne_nil _ _

def spell (lexemes : List Lexeme) : Text :=
  lexemes.flatMap spelling

theorem spell_cons (lexeme : Lexeme) (rest : List Lexeme) :
    spell (lexeme :: rest) = lexeme.spelling ++ spell rest :=
  List.flatMap_cons

theorem spell_append (front back : List Lexeme) : spell (front ++ back) = spell front ++ spell back :=
  List.flatMap_append

theorem spell_number (position : Nat) (lexemes : List Lexeme) :
    Token.spell (number position lexemes) = spell lexemes := by
  induction lexemes generalizing position with
  | nil => rfl
  | cons lexeme rest ih =>
      rw [Token.spell, flatMap_number_cons Token.spelling (fun _ _ => rfl), ← Token.spell, ih,
        spelling_token, spell_cons]

theorem spell_list (rule : StringRule) (state : QuoteState) (text : Text) :
    spell (list rule state text) = text := by
  rw [← spell_number 0, Token.spell_number_list]

theorem Reads.ends {c : Char} {text rest : Text} {lexeme : Lexeme} {position : Nat}
    {place : Marker} (reads : Reads c text lexeme rest)
    (marker : lexeme.token position = .marker place) : place.Ends rest := by
  cases reads with
  | escaped | colons | plain => simp [token] at marker
  | identifier rest =>
      obtain rfl := Token.marker.inj marker
      exact .identifier position rest
  | value single =>
      obtain rfl := Token.marker.inj marker
      exact .value position single
  | namedIdentifier name rest =>
      obtain rfl := Token.marker.inj marker
      exact .namedIdentifier name rest
  | namedValue name whole cast =>
      obtain rfl := Token.marker.inj marker
      exact .namedValue name whole cast

variable {rule : StringRule}

theorem mem_places_of_tail {position : Nat} {lexeme : Lexeme} {rest : List Lexeme}
    {entry : Marker × Text}
    (member : entry ∈ Token.places (number (lexeme.following position) rest)) :
    entry ∈ Token.places (number position (lexeme :: rest)) := by
  cases lexeme with
  | plain text => simpa [number, following] using member
  | escaped sign => exact member
  | positional role => exact List.mem_cons_of_mem _ member
  | named role name => exact List.mem_cons_of_mem _ member

theorem mem_places_of_head {position : Nat} {lexeme : Lexeme} {state : QuoteState}
    {text : Text} {place : Marker} (marker : lexeme.token position = .marker place) :
    (place, text) ∈ Token.places (number position (lexeme :: list rule state text)) := by
  cases lexeme with
  | plain | escaped => simp [token] at marker
  | positional role =>
      obtain rfl := Token.marker.inj marker
      simp [number, Token.places, Token.spell_number_list]
  | named role name =>
      obtain rfl := Token.marker.inj marker
      simp [number, Token.places, Token.spell_number_list]

/-- Every marker of a template ends where the text behind it begins. -/
theorem ends_of_mem_places {position : Nat} {state : QuoteState} {text : Text}
    {place : Marker} {rest : Text}
    (member : (place, rest) ∈ Token.places (number position (list rule state text))) :
    place.Ends rest := by
  induction state, text using list.induct rule generalizing position with
  | case1 state => simp [list, number, Token.places] at member
  | case2 state c text covers ih =>
      rw [list, if_pos covers, number, Token.places_prepend] at member
      exact ih member
  | case3 state c text covers ih =>
      have reads := reads_read c text
      rw [list, if_neg covers] at member
      cases lexeme : (read c text).1 with
      | plain piece =>
          rw [lexeme, number, Token.places_prepend] at member
          exact ih member
      | escaped sign =>
          rw [lexeme] at member
          exact ih member
      | positional role =>
          rw [lexeme, number, Token.places, Token.spell_number_list] at member
          rcases List.mem_cons.1 member with here | later
          · obtain ⟨rfl, rfl⟩ := Prod.mk.inj here
            exact (reads.ends : (read c text).1.token position = _ → _) (by rw [lexeme]; rfl)
          · exact ih later
      | named role name =>
          rw [lexeme, number, Token.places, Token.spell_number_list] at member
          rcases List.mem_cons.1 member with here | later
          · obtain ⟨rfl, rfl⟩ := Prod.mk.inj here
            exact (reads.ends : (read c text).1.token position = _ → _) (by rw [lexeme]; rfl)
          · exact ih later

theorem mem_number_cons {token : Token} (noLiteral : ¬ token.IsLiteral) {position : Nat}
    {lexeme : Lexeme} {rest : List Lexeme} :
    token ∈ number position (lexeme :: rest) ↔
      token = lexeme.token position ∨ token ∈ number (lexeme.following position) rest := by
  cases lexeme with
  | plain text =>
      rw [number, Token.mem_prepend noLiteral]
      constructor
      · exact .inr
      · rintro (rfl | later)
        · exact absurd trivial noLiteral
        · exact later
  | escaped | positional | named => exact List.mem_cons

theorem exists_mem_of_mem_number {token : Token} (noLiteral : ¬ token.IsLiteral) {position : Nat}
    {lexemes : List Lexeme} (member : token ∈ number position lexemes) :
    ∃ lexeme ∈ lexemes, ∃ place, token = lexeme.token place := by
  induction lexemes generalizing position with
  | nil => cases member
  | cons lexeme rest ih =>
      rcases (mem_number_cons noLiteral).1 member with here | later
      · exact ⟨lexeme, List.mem_cons_self, position, here⟩
      · obtain ⟨other, among, same⟩ := ih later
        exact ⟨other, List.mem_cons_of_mem lexeme among, same⟩

theorem exists_mem_number_of_mem {lexeme : Lexeme} {lexemes : List Lexeme}
    (member : lexeme ∈ lexemes) (noLiteral : ∀ place, ¬ (lexeme.token place).IsLiteral)
    (position : Nat) : ∃ place, lexeme.token place ∈ number position lexemes := by
  induction lexemes generalizing position with
  | nil => cases member
  | cons first rest ih =>
      rcases List.mem_cons.1 member with rfl | later
      · exact ⟨position, (mem_number_cons (noLiteral position)).2 (.inl rfl)⟩
      · obtain ⟨place, among⟩ := ih later (first.following position)
        exact ⟨place, (mem_number_cons (noLiteral place)).2 (.inr among)⟩

end Lexeme

namespace Token

def position? : Token → Option Nat
  | .marker ⟨_, .index position⟩ => some position
  | _ => none

theorem filterMap_position?_prepend (text : Text) (tokens : List Token) :
    (prepend text tokens).filterMap position? = tokens.filterMap position? := by
  unfold prepend
  split <;> rfl

theorem filterMap_position?_number (position : Nat) (lexemes : List Lexeme) :
    (Lexeme.number position lexemes).filterMap position? =
      List.range' position (Lexeme.questions lexemes) := by
  induction lexemes generalizing position with
  | nil => rfl
  | cons lexeme rest ih =>
      cases lexeme with
      | plain text => exact (filterMap_position?_prepend text _).trans (ih position)
      | escaped | named => exact ih position
      | positional role => exact congrArg (position :: ·) (ih (position + 1))

/-- Every position is asked for once. -/
theorem position?_ne_of_lex {rule : StringRule} {text : Text} {front back : List Token}
    {token : Token} {position : Nat} (split : lex rule text = front ++ token :: back)
    (asked : token.position? = some position) {other : Token} (member : other ∈ front ++ back) :
    other.position? ≠ some position := by
  intro again
  have distinct : ((lex rule text).filterMap position?).Nodup := by
    rw [lex, filterMap_position?_number]
    exact List.nodup_range'
  rw [split, List.filterMap_append, List.filterMap_cons_some asked,
    List.perm_middle.nodup_iff, ← List.filterMap_append] at distinct
  exact (List.nodup_cons.1 distinct).1 (List.mem_filterMap.2 ⟨other, member, again⟩)

end Token

end SqlTemplate
