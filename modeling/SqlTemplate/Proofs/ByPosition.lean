import SqlTemplate.Proofs.Agreement
import SqlTemplate.Proofs.Reading
import SqlTemplate.Template.Basic

/-!
# Named arguments given by position

Where no marker asks by position, every named marker can be written with
question marks instead, and the arguments listed in the order in which they are
asked for.  No two of the new markers touch, and none of them stands behind a
backslash, so the new text has the old tokens, and it renders to the same.
-/

namespace SqlTemplate

namespace Token

/-- Tokens with markers that ask by position, counted from a position. -/
def byPosition (position : Nat) : List Token → List Token
  | [] => []
  | .literal text :: rest => .literal text :: byPosition position rest
  | .escaped sign :: rest => .escaped sign :: byPosition position rest
  | .marker place :: rest =>
      .marker ⟨place.role, .index position⟩ :: byPosition (position + 1) rest

theorem byPosition_prepend (position : Nat) (text : Text) (tokens : List Token) :
    byPosition position (prepend text tokens) = prepend text (byPosition position tokens) := by
  cases tokens with
  | nil => rfl
  | cons token rest => cases token <;> rfl

end Token

namespace Lexeme

variable {rule : StringRule} {c : Char} {text rest : Text} {lexeme : Lexeme}

def byPosition : Lexeme → Lexeme
  | .named role _ => .positional role
  | lexeme => lexeme

def IsPositional : Lexeme → Prop
  | .positional _ => True
  | .plain _ | .escaped _ | .named .. => False

/-- The text of a template in which names have become question marks. -/
def respell (lexemes : List Lexeme) : Text :=
  spell (lexemes.map byPosition)

theorem byPosition_number {lexemes : List Lexeme}
    (named : ∀ lexeme ∈ lexemes, ¬ lexeme.IsPositional) (counted position : Nat) :
    Token.byPosition position (number counted lexemes) =
      number position (lexemes.map byPosition) := by
  induction lexemes generalizing position with
  | nil => rfl
  | cons lexeme rest ih =>
      obtain ⟨here, later⟩ := List.forall_mem_cons.1 named
      cases lexeme with
      | plain text =>
          rw [number, Token.byPosition_prepend, ih later]
          rfl
      | escaped sign => exact congrArg _ (ih later position)
      | positional role => exact absurd trivial here
      | named role word => exact congrArg _ (ih later (position + 1))

/--
What a text may start with once it is written anew: with its own first
character, or with the question mark of a name, but not with one of its own.
-/
def Starts (text behind : Text) : Prop :=
  ∀ d, behind.head? = some d → (text.head? = some d ∧ d ≠ '?') ∨
    (d = '?' ∧ text.head? = some ':' ∧ text.tail.head? ≠ some ':')

theorem Starts.ne_colon {behind : Text} (starts : Starts text behind)
    (single : text.head? ≠ some ':') : behind.head? ≠ some ':' := by
  intro colon
  rcases starts ':' colon with ⟨same, -⟩ | ⟨question, -⟩
  · exact single same
  · cases question

theorem Starts.ne_question {behind : Text} (starts : Starts text behind)
    (noName : text.head? = some ':' → text.tail.head? = some ':') :
    behind.head? ≠ some '?' := by
  intro question
  rcases starts '?' question with ⟨-, other⟩ | ⟨-, colon, single⟩
  · exact other rfl
  · exact single (noName colon)

theorem Starts.noName {behind : Text} (starts : Starts text behind)
    (noName : ∀ d ∈ text.head?, Text.isNameChar d = false) :
    ∀ d ∈ behind.head?, Text.isNameChar d = false := by
  intro d first
  rcases starts d first with ⟨same, -⟩ | ⟨rfl, -⟩
  · exact noName d same
  · decide

theorem Reads.starts (reads : Reads c text lexeme rest) (named : ¬ lexeme.IsPositional)
    (behind : Text) : Starts (c :: text) (lexeme.byPosition.spelling ++ behind) := by
  intro d first
  cases reads with
  | escaped sign rest => exact .inl ⟨first, by rintro rfl; cases first⟩
  | identifier | value => exact absurd trivial named
  | colons all whole => exact .inl ⟨first, by rintro rfl; cases first⟩
  | plain noQuestion slash colon =>
      obtain rfl := Option.some.inj first
      exact .inl ⟨rfl, noQuestion⟩
  | namedIdentifier name => exact .inr ⟨(Option.some.inj first).symm, rfl, name.head?_append _⟩
  | namedValue name => exact .inr ⟨(Option.some.inj first).symm, rfl, name.head?_append _⟩

theorem starts_respell {before : Preceding}
    (named : ∀ lexeme ∈ list rule (.outside before) text, ¬ lexeme.IsPositional) :
    Starts text (respell (list rule (.outside before) text)) := by
  cases text with
  | nil =>
      intro d first
      rw [list] at first
      cases first
  | cons c text =>
      by_cases covers : (QuoteState.outside before).covers c = true
      · rw [list_covered covers]
        intro d first
        obtain rfl := Option.some.inj first
        refine .inl ⟨rfl, ?_⟩
        rintro rfl
        cases covers
      · rw [list, if_neg covers] at named ⊢
        exact (reads_read c text).starts (List.forall_mem_cons.1 named).1 _

/-- A lexeme is still found when the text behind it is written anew. -/
theorem Reads.list_byPosition (reads : Reads c text lexeme rest) (named : ¬ lexeme.IsPositional)
    (noMark : QuoteMark.ofChar? c = none) {behind : Text} (starts : Starts rest behind)
    (before : Preceding) :
    list rule (.outside before) (lexeme.byPosition.spelling ++ behind) =
      lexeme.byPosition :: list rule (.outside (before.step c)) behind := by
  have boundary (d : Char) (noName : Text.isNameChar d = false) : before.step d = .boundary :=
    Preceding.step_eq_boundary noName
  cases reads with
  | escaped sign rest =>
      change list rule (.outside before) ('\\' :: sign.char :: behind) = _
      rw [list_outside noMark]
      cases sign <;> rfl
  | identifier | value => exact absurd trivial named
  | @colons run rest all whole =>
      obtain ⟨count, rfl⟩ : ∃ count, run = List.replicate count ':' :=
        ⟨run.length, List.eq_replicate_of_mem all⟩
      change list rule (.outside before) (':' :: (List.replicate (count + 1) ':' ++ behind)) = _
      rw [list_outside noMark, read_colons _ (starts.ne_colon whole)]
      rfl
  | namedIdentifier name =>
      change list rule (.outside before) ('?' :: '?' :: behind) = _
      rw [list_outside rfl, boundary ':' rfl, boundary '?' rfl]
      rfl
  | namedValue name whole cast =>
      change list rule (.outside before) ('?' :: behind) = _
      rw [list_value (starts.ne_question cast), boundary ':' rfl]
      rfl
  | plain noQuestion slash colon =>
      change list rule (.outside before) (c :: behind) = _
      have slashed (isSlash : c = '\\') : behind.head? ≠ some '?' ∧ behind.head? ≠ some ':' := by
        obtain ⟨-, single⟩ := slash isSlash
        exact ⟨starts.ne_question fun first => absurd first single, starts.ne_colon single⟩
      have alone (isColon : c = ':') :
          behind.head? ≠ some ':' ∧ ∀ d ∈ behind.head?, Text.isNameChar d = false :=
        ⟨starts.ne_colon (colon isColon).1, starts.noName (colon isColon).2⟩
      rw [list_outside noMark, read_single noQuestion slashed alone]
      rfl

/-- A text that is written anew has the old lexemes, with positions in place of names. -/
theorem list_respell {state : QuoteState}
    (named : ∀ lexeme ∈ list rule state text, ¬ lexeme.IsPositional) :
    list rule state (respell (list rule state text)) = (list rule state text).map byPosition := by
  induction state, text using list.induct rule with
  | case1 state =>
      rw [list, respell, List.map_nil, spell, List.flatMap_nil, list]
  | case2 state c rest covers ih =>
      rw [list_covered covers] at named ⊢
      change list rule state (c :: respell (list rule (state.next rule c) rest)) = _
      rw [list_covered covers, ih (List.forall_mem_cons.1 named).2]
      rfl
  | case3 state c rest covers ih =>
      obtain ⟨before, rfl, noMark⟩ :=
        QuoteState.covers_eq_false_iff.1 (Bool.eq_false_iff.2 covers)
      rw [QuoteState.next_outside noMark] at ih
      rw [list_outside noMark] at named ⊢
      obtain ⟨here, later⟩ := List.forall_mem_cons.1 named
      rw [respell, List.map_cons, spell_cons, ← respell,
        (reads_read c rest).list_byPosition here noMark (starts_respell later), ih later]

end Lexeme

/-- A text without positional markers whose names have become question marks has the old tokens. -/
theorem Token.lex_byPosition {rule : StringRule} {text : Text}
    (named : ∀ role position, .marker ⟨role, .index position⟩ ∉ lex rule text) :
    lex rule (spell (byPosition 0 (lex rule text))) = byPosition 0 (lex rule text) := by
  have noPositional : ∀ lexeme ∈ Lexeme.list rule .start text, ¬ lexeme.IsPositional := by
    intro lexeme member positional
    cases lexeme with
    | plain | escaped | named => exact positional
    | positional role =>
        obtain ⟨place, among⟩ := Lexeme.exists_mem_number_of_mem member (fun _ => id) 0
        exact named role place among
  have anew : byPosition 0 (lex rule text) =
      Lexeme.number 0 ((Lexeme.list rule .start text).map Lexeme.byPosition) :=
    Lexeme.byPosition_number noPositional 0 0
  rw [anew, Lexeme.spell_number, lex, ← Lexeme.respell, Lexeme.list_respell noPositional]

namespace Token

/-- The arguments that markers ask for, in the order of the markers. -/
def asked {α : Type} (arguments : Arguments α) (tokens : List Token) : List α :=
  tokens.filterMap fun
    | .marker place => arguments.find? place.key
    | .literal _ | .escaped _ => none

end Token

namespace Template

/-- The template with question marks in place of names, and its arguments in the order of the names. -/
def byPosition (rule : StringRule) (t : Template) : Template :=
  { t with
    text := Token.spell (Token.byPosition 0 (Token.lex rule t.text))
    arguments := .positional (Token.asked t.arguments (Token.lex rule t.text)) }

abbrev SameResult : Except CompileError Rendered → Except CompileError Rendered → Prop :=
  Agree (fun _ _ => True) Eq

theorem sameResult_renderIdentifier (writer : Writer) (key other : Key) (argument : Argument) :
    SameResult (renderIdentifier writer key argument) (renderIdentifier writer other argument) := by
  have path (argument : Argument) :
      SameResult (renderPath writer key argument) (renderPath writer other argument) :=
    .renderPath Rendered.congruence_eq (fun _ => trivial) ⟨rfl, rfl⟩
  cases argument with
  | list items =>
      apply Agree.renderIdentifier_list Rendered.congruence_eq fun _ => trivial
      exact List.forall₂_same.2 fun _ _ => ⟨rfl, rfl⟩
  | scalar value => exact path (.scalar value)
  | template text arguments => exact path (.template text arguments)
  | statement compiled => exact path (.statement compiled)

variable {writer : Writer} {mode : Mode} {entries : List (Text × Argument)}

theorem sameResult_renderMarker {items : List Argument} {role : Role} {key : Key} {position : Nat}
    {argument : Argument} (byName : (Arguments.named entries).find? key = some argument)
    (byPosition : (Arguments.positional items).find? (.index position) = some argument) :
    SameResult
      (renderMarker writer ((Arguments.named entries).map (Argument.slot writer mode)) ⟨role, key⟩)
      (renderMarker writer ((Arguments.positional items).map (Argument.slot writer mode))
        ⟨role, .index position⟩) := by
  rw [renderMarker_of_find? rfl byName, renderMarker_of_find? rfl byPosition]
  cases role with
  | value => exact .refl (fun _ => trivial) (fun _ => rfl) _
  | identifier => exact sameResult_renderIdentifier writer key (.index position) argument

/-- Token by token, with the arguments of the tokens in front left out of the count. -/
theorem sameResult_renderTokens (front : List Argument) {tokens : List Token}
    (bound : ∀ place, .marker place ∈ tokens →
      ∃ argument, (Arguments.named entries).find? place.key = some argument) :
    List.Forall₂ SameResult
      (tokens.map (renderToken writer mode ((Arguments.named entries).map (Argument.slot writer mode))))
      ((Token.byPosition front.length tokens).map
        (renderToken writer mode
          ((Arguments.positional (front ++ Token.asked (.named entries) tokens)).map
            (Argument.slot writer mode)))) := by
  induction tokens generalizing front with
  | nil => exact .nil
  | cons token rest ih =>
      have later := fun place member => bound place (List.mem_cons_of_mem token member)
      cases token with
      | literal | escaped => exact .cons (.ok rfl) (ih front later)
      | marker place =>
          obtain ⟨argument, found⟩ := bound place List.mem_cons_self
          have asked : Token.asked (.named entries) (.marker place :: rest) =
              argument :: Token.asked (.named entries) rest := List.filterMap_cons_some found
          have position : (Arguments.positional
              (front ++ argument :: Token.asked (.named entries) rest)).find?
                (.index front.length) = some argument := by
            apply (List.getElem?_append_right (Nat.le_refl front.length)).trans
            rw [Nat.sub_self]
            rfl
          have behind := ih (front ++ [argument]) later
          rw [List.length_append, List.append_assoc] at behind
          rw [asked]
          exact .cons (sameResult_renderMarker found position) behind

/--
A template with named arguments whose markers all find their arguments renders
to the same as the template by position, and fails where that one fails.
-/
theorem render_byPosition (writer : Writer) (mode : Mode) (t : Template)
    (given : t.arguments = .named entries)
    (named : ∀ role position,
      .marker ⟨role, .index position⟩ ∉ Token.lex writer.stringRule t.text)
    (bound : ∀ place, .marker place ∈ Token.lex writer.stringRule t.text →
      ∃ argument, t.arguments.find? place.key = some argument)
    (rendered : Rendered) :
    t.render writer mode = .ok rendered ↔
      (t.byPosition writer.stringRule).render writer mode = .ok rendered := by
  rw [given] at bound
  rw [render_eq, render_eq, renderText, renderText, byPosition, Token.lex_byPosition named, given]
  exact (Agree.concat Rendered.congruence_eq (sameResult_renderTokens [] bound)).eq_ok_iff rendered

/-- A value before a cast, a mark in a prefixed string, and a path before two colons. -/
def casts : Template where
  text := "select :a::text, E'\\':b' \\? from :c::: where :a = :b".toList
  arguments := .named
    [(['a'], .scalar (.signed 7)), (['b'], .list [.scalar .null, .scalar (.boolean true)]),
     (['c'], .scalar (.string "t.x".toList))]
  engine := .postgreSQL

/-- The argument that is asked for twice is listed twice. -/
theorem render_byPosition_casts :
    (casts.byPosition Engine.postgreSQL.stringRule).text =
        "select ?::text, E'\\':b' \\? from ??:: where ? = ?".toList ∧
      ∃ rendered, casts.render Engine.postgreSQL.writer .parameterized = .ok rendered ∧
        (casts.byPosition Engine.postgreSQL.stringRule).render Engine.postgreSQL.writer
          .parameterized = .ok rendered ∧
        rendered.text =
          "select ?::text, E'\\':b' \\? from \"t\".\"x\":: where ? = ?, ?".toList := by
  have lexed : Token.lex Engine.postgreSQL.writer.stringRule casts.text =
      [.literal "select ".toList, .marker ⟨.value, .name ['a']⟩,
       .literal "::text, E'\\':b' ".toList, .escaped .question, .literal " from ".toList,
       .marker ⟨.identifier, .name ['c']⟩, .literal ":: where ".toList,
       .marker ⟨.value, .name ['a']⟩, .literal " = ".toList, .marker ⟨.value, .name ['b']⟩] := by
    decide +kernel
  have named : ∀ role position,
      .marker ⟨role, .index position⟩ ∉ Token.lex Engine.postgreSQL.writer.stringRule casts.text := by
    intro role position
    rw [lexed]
    simp
  have bound : ∀ place, .marker place ∈ Token.lex Engine.postgreSQL.writer.stringRule casts.text →
      ∃ argument, casts.arguments.find? place.key = some argument := by
    have all : ∀ token ∈ Token.lex Engine.postgreSQL.writer.stringRule casts.text,
        match token with
        | .marker place => (casts.arguments.find? place.key).isSome = true
        | .literal _ | .escaped _ => True := by
      rw [lexed]
      simp only [List.forall_mem_cons]
      exact ⟨trivial, rfl, trivial, trivial, trivial, rfl, trivial, rfl, trivial, rfl,
        List.forall_mem_nil _⟩
    exact fun place member => Option.isSome_iff_exists.1 (all _ member)
  obtain ⟨rendered, compiled, text⟩ : ∃ rendered,
      casts.render Engine.postgreSQL.writer .parameterized = .ok rendered ∧
        rendered.text =
          "select ?::text, E'\\':b' \\? from \"t\".\"x\":: where ? = ?, ?".toList :=
    exists_of_map_eq_ok (by decide +kernel)
  refine ⟨by decide +kernel, rendered, compiled, ?_, text⟩
  exact (render_byPosition Engine.postgreSQL.writer .parameterized casts rfl named bound _).1 compiled

end Template

end SqlTemplate
