import SqlTemplate.Proofs.Lossless
import SqlTemplate.Proofs.Splices
import SqlTemplate.Proofs.WrittenLists

/-!
# Negative numbers behind a minus sign

Numbers are written as they are, directly behind what the template has in front
of the marker.  A `-` there and the sign of a negative number open a comment.
For templates that open no comment of their own, nothing else does: escapes and
names put no two characters together that were apart, and other values show no
`-`.  Where strings are prefixed this takes places at which strings, zones and
the text behind a value are read as they are meant.
-/

namespace SqlTemplate

namespace Lexeme

variable {engine : Engine} {values : List Scalar} {position : Nat} {lexeme : Lexeme}
  {lexemes : List Lexeme} {rule : StringRule} {state shown other : QuoteState}

/-- A value marker that takes a negative number comes first. -/
def StartsNegative (values : List Scalar) (position : Nat) : List Lexeme → Prop
  | .positional .value :: _ => ∃ value, values[position]? = some value ∧ value.isNegative = true
  | _ => False

/-- A value marker directly behind a `-` takes a negative number. -/
def Meets (values : List Scalar) : Nat → List Lexeme → Prop
  | _, [] => False
  | position, lexeme :: rest =>
      (lexeme.spelling.getLast? = some '-' ∧
          StartsNegative values (lexeme.following position) rest) ∨
        Meets values (lexeme.following position) rest

theorem startsNegative_iff : StartsNegative values position lexemes ↔
    ∃ back value, lexemes = .positional .value :: back ∧ values[position]? = some value ∧
      value.isNegative = true := by
  constructor
  · intro starts
    unfold StartsNegative at starts
    split at starts
    · next back =>
        obtain ⟨value, given, negative⟩ := starts
        exact ⟨back, value, rfl, given, negative⟩
    · exact starts.elim
  · rintro ⟨back, value, rfl, given, negative⟩
    exact ⟨value, given, negative⟩

theorem meets_iff (spelled : ∀ lexeme ∈ lexemes, lexeme.spelling ≠ []) :
    Meets values position lexemes ↔
      ∃ front back value, lexemes = front ++ .positional .value :: back ∧
        (spell front).getLast? = some '-' ∧ values[position + questions front]? = some value ∧
        value.isNegative = true := by
  induction lexemes generalizing position with
  | nil =>
      refine iff_of_false id ?_
      rintro ⟨front, back, value, split, -⟩
      cases front <;> cases split
  | cons lexeme rest ih =>
      obtain ⟨here, later⟩ := List.forall_mem_cons.1 spelled
      rw [Meets, startsNegative_iff, ih later]
      constructor
      · rintro (⟨dash, back, value, rfl, given, negative⟩ |
          ⟨front, back, value, rfl, dash, given, negative⟩)
        · refine ⟨[lexeme], back, value, rfl, ?_, ?_, negative⟩
          · rwa [spell_cons, spell, List.flatMap_nil, List.append_nil]
          · rwa [← following_add_questions]
        · refine ⟨lexeme :: front, back, value, rfl, ?_, ?_, negative⟩
          · rw [spell_cons, List.getLast?_append, dash]
            rfl
          · rwa [← following_add_questions]
      · rintro ⟨front, back, value, split, dash, given, negative⟩
        cases front with
        | nil => cases dash
        | cons first others =>
            obtain ⟨rfl, rfl⟩ := List.cons.inj split
            rw [← following_add_questions] at given
            rw [spell_cons] at dash
            cases others with
            | nil =>
                rw [spell, List.flatMap_nil, List.append_nil] at dash
                exact .inl ⟨dash, back, value, rfl, given, negative⟩
            | cons second others =>
                refine .inr ⟨second :: others, back, value, rfl, ?_, given, negative⟩
                have nonempty : spell (second :: others) ≠ [] := by
                  rw [spell_cons]
                  exact List.append_ne_nil_of_left_ne_nil (later second List.mem_cons_self) _
                rwa [List.getLast?_append_of_ne_nil _ nonempty] at dash

theorem Written.head?_eq_dash_iff {c : Char} {rest tail first : Text}
    (written : Written engine values position lexeme first) (takes : Takes state c rest lexeme tail) :
    first ≠ [] ∧
      (first.head? = some '-' ↔ c = '-' ∨ StartsNegative values position (lexeme :: lexemes)) := by
  have plain (same : first.head? = some c)
      (positive : ¬ StartsNegative values position (lexeme :: lexemes)) :
      first ≠ [] ∧
        (first.head? = some '-' ↔ c = '-' ∨ StartsNegative values position (lexeme :: lexemes)) := by
    constructor
    · rintro rfl
      cases same
    · rw [same, Option.some_inj, or_iff_left positive]
  cases takes with
  | quoted covers =>
      cases written
      exact plain rfl id
  | read noMark reads =>
      cases reads with
      | escaped sign =>
          cases written
          refine ⟨List.cons_ne_nil _ _, iff_of_false ?_ ?_⟩
          · cases sign <;> decide
          · rintro (slash | starts)
            · cases slash
            · exact starts
      | identifier =>
          cases written with
          | path path given =>
              obtain ⟨nonempty, noDash⟩ := Engine.head?_wrapPath engine path
              refine ⟨nonempty, iff_of_false noDash ?_⟩
              rintro (question | starts)
              · cases question
              · exact starts
      | value single =>
          cases written with
          | value given literal =>
              obtain ⟨nonempty, starts⟩ := Engine.head?_literal literal
              refine ⟨nonempty, starts.trans ⟨fun negative => .inr ⟨_, given, negative⟩, ?_⟩⟩
              rintro (question | ⟨value, found, negative⟩)
              · cases question
              · obtain rfl := Option.some.inj (given.symm.trans found)
                exact negative
      | colons all whole =>
          cases written
          exact plain rfl id
      | namedIdentifier name | namedValue name whole cast =>
          cases written
          exact plain rfl id
      | plain =>
          cases written
          exact plain rfl id

theorem Splices.head?_eq_dash_iff {text out : Text}
    (splices : Splices engine values position other (list rule state text) out) :
    out.head? = some '-' ↔
      text.head? = some '-' ∨ StartsNegative values position (list rule state text) := by
  cases text with
  | nil =>
      rw [list] at splices ⊢
      cases splices
      exact (or_iff_left id).symm
  | cons c rest =>
      obtain ⟨lexeme, tail, takes, listed⟩ := exists_takes rule state c rest
      rw [listed] at splices ⊢
      cases splices with
      | cons written fits splices =>
          obtain ⟨nonempty, starts⟩ := written.head?_eq_dash_iff takes
          rw [List.head?_append_of_ne_nil _ nonempty, starts, List.head?_cons, Option.some_inj]

theorem Takes.noDash {c : Char} {rest tail : Text} (takes : Takes state c rest lexeme tail)
    (sign : lexeme ≠ .plain [c]) : '-' ∉ lexeme.spelling := by
  have noName {word : Text} (name : word.IsName) : '-' ∉ word := fun member =>
    absurd (name.2 '-' member) (by decide)
  cases takes with
  | quoted covers => exact absurd rfl sign
  | read noMark reads =>
      cases reads with
      | escaped escape => cases escape <;> decide
      | identifier => decide
      | value => decide
      | @colons run _ all whole =>
          have colons : ∀ d ∈ ':' :: ':' :: run, d = ':' := by simpa using all
          intro member
          exact absurd (colons '-' member) (by decide)
      | @namedIdentifier word name =>
          change '-' ∉ ':' :: word ++ [':']
          exact List.not_mem_append (List.not_mem_cons_of_ne_of_not_mem (by decide) (noName name))
            (by decide)
      | @namedValue word _ name whole cast =>
          change '-' ∉ ':' :: word
          exact List.not_mem_cons_of_ne_of_not_mem (by decide) (noName name)
      | plain => exact absurd rfl sign

/-- The sign of a number is followed by a digit, and nothing else that is put in shows a `-`. -/
theorem Written.calm_append_iff {c : Char} {rest tail first later : Text}
    (written : Written engine values position lexeme first) (takes : Takes state c rest lexeme tail)
    (attuned : Attuned values engine.stringRule state shown other (c :: rest))
    (fits : Fits engine values position other lexeme tail) (noDash : '-' ∉ lexeme.spelling) :
    QuoteState.Calm engine.stringRule other (first ++ later) ↔
      QuoteState.Calm engine.stringRule (other.run engine.stringRule first) later := by
  cases written with
  | plain text => exact QuoteState.calm_append_of_notMem noDash
  | escaped sign =>
      refine QuoteState.calm_append_of_notMem ?_
      cases sign <;> decide
  | named role name digit => exact QuoteState.calm_append_of_notMem noDash
  | path path given =>
      cases takes with
      | read noMark reads =>
          obtain ⟨behind, rfl⟩ := attuned.exists_outside given
          exact QuoteState.calm_append (Engine.noDash_wrapPath engine path _ behind)
  | @value value text found literal =>
      cases takes with
      | read noMark reads =>
          have given := List.ne_nil_of_mem (List.mem_of_getElem? found)
          obtain ⟨behind, rfl⟩ := attuned.exists_outside given
          cases positive : value.isNegative with
          | false =>
              refine QuoteState.calm_append (Engine.noDash_literal (fun prefixed => ?_) positive literal)
              exact (fits prefixed rfl value found).1 behind rfl
          | true =>
              obtain ⟨digits, rfl, numeral⟩ := Engine.exists_of_isNegative positive literal
              have next : (digits ++ later).head? ≠ some '-' := by
                obtain ⟨d, others, rfl, noSign⟩ := numeral.exists_cons
                exact fun same => noSign (Option.some.inj same)
              rw [List.cons_append, QuoteState.calm_dash_cons rfl, and_iff_right next]
              exact QuoteState.calm_append_of_notMem numeral.noDash

theorem not_startsNegative_of_covers {text : Text} (covers : ∀ c, state.covers c = true) :
    ¬ StartsNegative values position (list rule state text) := by
  cases text with
  | nil =>
      rw [list]
      exact id
  | cons c rest =>
      rw [list_covered (covers c)]
      exact id

/--
Behind a `-` of a template without comments, the next `-` outside quotes can
only be the sign of a number.
-/
theorem Splices.dash_apart_iff {tail later : Text}
    (splices : Splices engine values position (other.next engine.stringRule '-')
      (list engine.stringRule (state.next engine.stringRule '-') tail) later)
    (attuned : Attuned values engine.stringRule state shown other ('-' :: tail))
    (calm : QuoteState.Calm engine.stringRule shown ('-' :: tail)) :
    (other.covers '-' = false → later.head? ≠ some '-') ↔
      ¬ StartsNegative values position
        (list engine.stringRule (state.next engine.stringRule '-') tail) := by
  have sameCovers := attuned.follows.alike.covers_eq '-'
  cases covers : other.covers '-' with
  | false =>
      have single : tail.head? ≠ some '-' := calm.1 rfl (sameCovers.trans covers)
      rw [forall_prop_of_true rfl, ne_eq, splices.head?_eq_dash_iff, or_iff_right single]
  | true =>
      refine iff_of_true nofun fun starts => ?_
      obtain ⟨back, value, -, given, -⟩ := startsNegative_iff.1 starts
      have given := List.ne_nil_of_mem (List.mem_of_getElem? given)
      have quoted := ((attuned.same given).alike.covers_eq '-').trans (sameCovers.trans covers)
      exact not_startsNegative_of_covers (QuoteState.covers_next_of_covers_dash quoted) starts

/--
What is written of a template without comments opens one exactly where a
negative number meets a `-`.
-/
theorem Splices.calm_iff {text out : Text}
    (splices : Splices engine values position other (list engine.stringRule state text) out)
    (attuned : Attuned values engine.stringRule state shown other text)
    (calm : QuoteState.Calm engine.stringRule shown text) :
    QuoteState.Calm engine.stringRule other out ↔
      ¬ Meets values position (list engine.stringRule state text) := by
  generalize listed : list engine.stringRule state text = lexemes at splices
  induction splices generalizing state shown text with
  | nil => exact iff_of_true trivial id
  | @cons position other lexeme lexemes first later written fits splices ih =>
      cases text with
      | nil =>
          rw [list] at listed
          cases listed
      | cons c rest =>
          obtain ⟨read, tail, takes, found⟩ := exists_takes engine.stringRule state c rest
          obtain ⟨rfl, rfl⟩ := List.cons.inj (listed.symm.trans found)
          rw [spell_list] at fits
          have behind := QuoteState.Calm.behind (takes.spelling_append ▸ calm)
          have later := ih (attuned.next takes written fits) behind rfl
          rw [Meets, not_or]
          -- only a lexeme of one character can have a `-` at its end
          by_cases single : lexeme = .plain [c]
          · subst single
            cases written
            obtain rfl : tail = rest := (List.cons.inj takes.spelling_append).2
            refine and_congr ?_ later
            by_cases dash : c = '-'
            · subst dash
              refine (forall_prop_of_true rfl).trans ((splices.dash_apart_iff attuned calm).trans ?_)
              exact (not_congr (and_iff_right rfl)).symm
            · refine iff_of_true (fun same => absurd same dash) ?_
              rintro ⟨last, -⟩
              exact dash (Option.some.inj last)
          · have noDash := takes.noDash single
            rw [written.calm_append_iff takes attuned fits noDash, later]
            refine (and_iff_right ?_).symm
            rintro ⟨last, -⟩
            exact noDash (List.mem_of_getLast? last)

theorem number_append_positional (position : Nat) (first : List Lexeme) (role : Role)
    (last : List Lexeme) :
    number position (first ++ .positional role :: last) =
      number position first ++ .marker ⟨role, .index (position + questions first)⟩ ::
        number (position + questions first + 1) last := by
  have front (text : Text) (tokens : List Token) (place : Marker) (back : List Token) :
      Token.prepend text (tokens ++ .marker place :: back) =
        Token.prepend text tokens ++ .marker place :: back := by
    rcases tokens with _ | ⟨_ | _ | _, rest⟩ <;> rfl
  induction first generalizing position with
  | nil => rfl
  | cons lexeme rest ih =>
      cases lexeme with
      | plain text => exact (congrArg _ (ih position)).trans (front ..)
      | escaped | named => exact congrArg _ (ih position)
      | positional =>
          have later := ih (position + 1)
          rw [Nat.add_right_comm position 1] at later
          exact congrArg _ later

theorem meets_list_iff {text : Text} :
    Meets values 0 (list rule .start text) ↔
      ∃ front place back value,
        Token.lex rule text = front ++ .marker ⟨.value, .index place⟩ :: back ∧
          (Token.spell front).getLast? = some '-' ∧ values[place]? = some value ∧
          value.isNegative = true := by
  rw [meets_iff fun _ => spelling_ne_nil_of_mem_list]
  constructor
  · rintro ⟨first, last, value, listed, dash, given, negative⟩
    refine ⟨number 0 first, _, number (0 + questions first + 1) last, value, ?_, ?_, given, negative⟩
    · rw [Token.lex, listed, number_append_positional]
    · rwa [spell_number]
  · rintro ⟨front, place, back, value, lexed, dash, given, negative⟩
    obtain ⟨first, last, listed, spelled, -, rfl⟩ := Token.exists_positional lexed
    exact ⟨first, last, value, listed, spelled ▸ dash, given, negative⟩

end Lexeme

namespace Template

variable {t : Template} {engine : Engine} {values : List Scalar} {text : Text}

/--
Where strings are prefixed, each string is written behind no word, no zone has
a quote or a backslash in its name, and no prefixed string follows a value.
-/
structure StandsApart (t : Template) (values : List Scalar) : Prop where
  strings : t.StringsStandAlone Engine.postgreSQL.writer
  zones : ∀ m, .moment m ∈ values → m.PlainZone
  ends : ∀ position rest, (⟨.value, .index position⟩, rest) ∈
    Token.places (Token.lex Engine.postgreSQL.stringRule t.text) → ¬ rest.StartsPrefixed

/--
A template that opens no comment is written without one, unless a negative
number is put directly behind a `-`: the sign of the number is the second `-`.
-/
theorem opensComment_inlineWith_iff (scalars : t.arguments = .ofScalars values)
    (apart : engine = .postgreSQL → t.StandsApart values)
    (single : ¬ QuoteState.OpensComment engine.stringRule .start t.text)
    (written : t.inlineWith engine.writer = .ok text) :
    QuoteState.OpensComment engine.stringRule .start text ↔
      ∃ front position back value,
        Token.lex engine.stringRule t.text = front ++ .marker ⟨.value, .index position⟩ :: back ∧
          (Token.spell front).getLast? = some '-' ∧ values[position]? = some value ∧
          value.isNegative = true := by
  have drafted : t.draft engine.writer =
      (Lexeme.number 0 (Lexeme.list engine.stringRule .start t.text)).flatMap
        (draftToken engine.writer (scalarSlots engine.writer values)) := by
    rw [draft_eq, scalars]
    rfl
  rw [inlineWith_eq_map_render, drafted] at written
  obtain ⟨rendered, renders, rfl⟩ := exists_of_map_eq_ok written
  have strings : engine = .postgreSQL → Draft.StringsAt engine.writer (· = .outside .boundary)
      .start ((Lexeme.number 0 (Lexeme.list engine.stringRule .start t.text)).flatMap
        (draftToken engine.writer (scalarSlots engine.writer values))) := by
    rintro rfl
    rw [← drafted]
    exact (apart rfl).strings
  have ends : engine = .postgreSQL → ∀ index rest, (⟨.value, .index index⟩, rest) ∈
      Token.places (Lexeme.number 0 (Lexeme.list engine.stringRule .start t.text)) →
        ¬ rest.StartsPrefixed := by
    rintro rfl
    exact (apart rfl).ends
  have splices := Lexeme.splices_of_render renders strings (fun prefixed => (apart prefixed).zones) ends
  have attuned : Lexeme.Attuned values engine.stringRule .start .start .start t.text :=
    ⟨fun _ => .refl _ _, .refl _ _⟩
  have calm := splices.calm_iff attuned (QuoteState.calm_iff.2 single)
  rw [QuoteState.calm_iff, not_iff_not] at calm
  exact calm.trans Lexeme.meets_list_iff

/-- A difference, and what is selected behind it. -/
def difference (behind : Text) (values : List Scalar) (engine : Engine) : Template where
  text := "select 5-?".toList ++ behind
  arguments := .ofScalars values
  engine

/-- A number and a string, which stand apart; two `-` in the string are data. -/
theorem opensComment_difference :
    (difference ", ?".toList [.signed (-1), .string "a--b".toList] .postgreSQL).StandsApart
        [.signed (-1), .string "a--b".toList] ∧
      ¬ QuoteState.OpensComment .escapePrefixed .start "select 5-?, ?".toList ∧
      (difference ", ?".toList [.signed (-1), .string "a--b".toList] .postgreSQL).inlineWith
        Engine.postgreSQL.writer = .ok "select 5--1, E'a--b'".toList ∧
      QuoteState.OpensComment .escapePrefixed .start "select 5--1, E'a--b'".toList := by
  have lexed : Token.lex Engine.postgreSQL.stringRule "select 5-?, ?".toList =
      [.literal "select 5-".toList, .marker ⟨.value, .index 0⟩, .literal ", ".toList,
        .marker ⟨.value, .index 1⟩] := by decide +kernel
  have apart : (difference ", ?".toList [.signed (-1), .string "a--b".toList] .postgreSQL).StandsApart
      [.signed (-1), .string "a--b".toList] := by
    refine ⟨by decide +kernel, fun m member => by simp at member, ?_⟩
    intro position rest member
    have member : (_, rest) ∈ Token.places (Token.lex Engine.postgreSQL.stringRule
        "select 5-?, ?".toList) := member
    rw [lexed] at member
    rintro ⟨letter, behind, -, rfl⟩
    simp [Token.places, Token.spelling, Marker.spelling] at member
  have single : ¬ QuoteState.OpensComment .escapePrefixed .start "select 5-?, ?".toList := by decide
  have written : (difference ", ?".toList [.signed (-1), .string "a--b".toList]
      .postgreSQL).inlineWith Engine.postgreSQL.writer = .ok "select 5--1, E'a--b'".toList := by
    decide +kernel
  refine ⟨apart, single, written, ?_⟩
  refine Iff.mpr (@opensComment_inlineWith_iff _ .postgreSQL _ _ rfl (fun _ => apart) single written) ?_
  exact ⟨[.literal "select 5-".toList], 0, _, _, lexed, by decide, rfl, by decide⟩

/-- Without quotes around it the sign of a number opens a comment where the template has none. -/
theorem difference_opensComment :
    ¬ QuoteState.OpensComment Engine.mySQL.stringRule .start
        (difference [] [.signed (-1)] .mySQL).text ∧
      (difference [] [.signed (-1)] .mySQL).inlineWith Engine.mySQL.writer =
        .ok "select 5--1".toList ∧
      QuoteState.OpensComment Engine.mySQL.stringRule .start "select 5--1".toList :=
  ⟨by decide, by decide +kernel, by decide⟩

end Template

end SqlTemplate
