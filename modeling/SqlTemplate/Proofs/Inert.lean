import SqlTemplate.Engine.Default
import SqlTemplate.Proofs.Harmless

/-!
# Text with literals is inert

A text is inert when no sign stands outside its quotes: no question mark, and
no backslash in front of a colon.  Without arguments such a text compiles to
itself, and no placeholder is put into it.  For engines without prefixed strings
every text with literals is inert, since values and paths show no signs and the
reader of a template leaves none of its own.
-/

namespace SqlTemplate

namespace QuoteState

/-- Outside quotes there is no question mark, and no backslash in front of a colon. -/
def Inert (rule : StringRule) : QuoteState → Text → Prop
  | _, [] => True
  | state, c :: rest =>
      (state.covers c = false → c ≠ '?' ∧ (c = '\\' → rest.head? ≠ some ':')) ∧
        Inert rule (state.next rule c) rest

namespace Inert

variable {rule : StringRule} {state other : QuoteState} {front back text : Text}

theorem append (signless : (unquoted rule state front).Signless)
    (later : Inert rule (state.run rule front) back) : Inert rule state (front ++ back) := by
  induction front generalizing state with
  | nil => exact later
  | cons c rest ih =>
      by_cases covers : state.covers c = true
      · rw [unquoted_cons_of_covers covers] at signless
        exact ⟨fun uncovered => absurd covers (Bool.eq_false_iff.1 uncovered), ih signless later⟩
      · rw [unquoted_cons_plain (Bool.eq_false_iff.2 covers)] at signless
        obtain ⟨here, signless⟩ := List.forall_mem_cons.1 signless
        exact ⟨fun _ => ⟨here.1, fun slash => absurd slash here.2⟩, ih signless later⟩

theorem behind (inert : Inert rule state (front ++ back)) :
    Inert rule (state.run rule front) back := by
  induction front generalizing state with
  | nil => exact inert
  | cons c rest ih => exact ih inert.2

theorem of_alike (plain : rule ≠ .escapePrefixed) (alike : state.Alike other)
    (inert : Inert rule state text) : Inert rule other text := by
  induction text generalizing state other with
  | nil => trivial
  | cons c rest ih =>
      obtain ⟨here, later⟩ := inert
      rw [alike.covers_eq c] at here
      exact ⟨here, ih (alike.next plain c) later⟩

theorem of_harmless (plain : rule ≠ .escapePrefixed) (harmless : rule.Harmless front)
    {before : Preceding} (later : Inert rule (.outside before) back) (behind : Preceding) :
    Inert rule (.outside behind) (front ++ back) :=
  append (harmless.signless behind)
    (later.of_alike plain (.outside rfl (harmless.outside behind)))

theorem head?_ne_question {before : Preceding} (inert : Inert rule (.outside before) text) :
    text.head? ≠ some '?' := by
  intro question
  obtain ⟨rest, rfl⟩ := List.head?_eq_some_iff.1 question
  exact (inert.1 rfl).1 rfl

theorem pieces_eq (inert : Inert rule state text) : Piece.list rule state text = text.map .plain := by
  induction text generalizing state with
  | nil => rfl
  | cons c rest ih =>
      obtain ⟨here, later⟩ := inert
      rw [List.map_cons, ← ih later]
      by_cases covers : state.covers c = true
      · exact Piece.list_cons_of_covers covers rest
      · obtain ⟨before, rfl, noMark⟩ := covers_eq_false_iff.1 (Bool.eq_false_iff.2 covers)
        rw [next_outside noMark] at later
        exact Piece.list_cons_plain (Bool.eq_false_iff.2 covers) (here (Bool.eq_false_iff.2 covers)).1
          fun _ => later.head?_ne_question

end Inert

end QuoteState

theorem Piece.write_plain (parameter : Nat → Text) (position : Nat) (text : Text) :
    write parameter position (text.map .plain) = text := by
  induction text with
  | nil => rfl
  | cons c rest ih => exact congrArg (c :: ·) ih

namespace Lexeme

variable {rule : StringRule} {state : QuoteState} {text : Text}

def IsSign : Lexeme → Prop
  | .escaped _ | .positional _ => True
  | .plain _ | .named .. => False

theorem Reads.not_isSign {c : Char} {rest : Text} {lexeme : Lexeme}
    (reads : Reads c text lexeme rest) (noQuestion : c ≠ '?')
    (slash : c = '\\' → text.head? ≠ some '?' ∧ text.head? ≠ some ':') : ¬ lexeme.IsSign := by
  cases reads with
  | escaped sign =>
      obtain ⟨question, colon⟩ := slash rfl
      cases sign with
      | question => exact absurd rfl question
      | colon => exact absurd rfl colon
  | identifier | value => exact absurd rfl noQuestion
  | colons | namedIdentifier | namedValue | plain => exact id

/-- In an inert text neither escaped signs nor positional markers are found. -/
theorem not_isSign_of_inert (plain : rule ≠ .escapePrefixed)
    (inert : QuoteState.Inert rule state text) :
    ∀ lexeme ∈ list rule state text, ¬ lexeme.IsSign := by
  induction state, text using list.induct rule with
  | case1 state =>
      rw [list]
      exact List.forall_mem_nil _
  | case2 state c rest covers ih =>
      rw [list_covered covers]
      exact List.forall_mem_cons.2 ⟨id, ih inert.2⟩
  | case3 state c rest covers ih =>
      obtain ⟨before, rfl, noMark⟩ :=
        QuoteState.covers_eq_false_iff.1 (Bool.eq_false_iff.2 covers)
      have reads := reads_read c rest
      obtain ⟨here, later⟩ := inert
      obtain ⟨noQuestion, slash⟩ := here (Bool.eq_false_iff.2 covers)
      rw [QuoteState.next_outside noMark] at later ih
      rw [list_outside noMark]
      refine List.forall_mem_cons.2 ⟨?_, ih ?_⟩
      · exact reads.not_isSign noQuestion fun isSlash => ⟨later.head?_ne_question, slash isSlash⟩
      · -- The lexeme has no mark, so its end is outside quotes whatever precedes it.
        have spelled : (QuoteState.run rule (.outside before)
            ((read c rest).1.token 0).spelling).isOutside = true :=
          QuoteState.isOutside_run_of_noMark (reads.noMark noMark)
        have whole : QuoteState.Inert rule (.outside before) (c :: rest) :=
          ⟨here, QuoteState.next_outside noMark ▸ later⟩
        rw [← reads.spelling_append 0] at whole
        exact whole.behind.of_alike plain (.outside spelled rfl)

theorem exists_list_cons {d : Char} {rest : Text} (noQuestion : d ≠ '?') (noColon : d ≠ ':')
    (noEscape : ∀ sign, .escaped sign ∉ list rule state (d :: rest)) :
    ∃ later, list rule state (d :: rest) = .plain [d] :: later := by
  by_cases covers : state.covers d = true
  · exact ⟨_, list_covered covers rest⟩
  · rw [list, if_neg covers] at noEscape ⊢
    have reads := reads_read d rest
    generalize (read d rest).1 = lexeme, (read d rest).2 = tail at reads noEscape ⊢
    cases reads with
    | escaped sign => exact absurd List.mem_cons_self (noEscape sign)
    | identifier | value => exact absurd rfl noQuestion
    | colons | namedIdentifier | namedValue => exact absurd rfl noColon
    | plain => exact ⟨_, rfl⟩

end Lexeme

theorem Token.not_mem_lex {rule : StringRule} {text : Text}
    (noSign : ∀ lexeme ∈ Lexeme.list rule .start text, ¬ lexeme.IsSign) :
    (∀ sign, .escaped sign ∉ lex rule text) ∧
      ∀ role position, .marker ⟨role, .index position⟩ ∉ lex rule text := by
  refine ⟨fun sign member => ?_, fun role position member => ?_⟩
  · obtain ⟨lexeme, among, place, same⟩ := Lexeme.exists_mem_of_mem_number id member
    cases lexeme with
    | escaped => exact noSign _ among trivial
    | plain | positional | named => cases same
  · obtain ⟨lexeme, among, place, same⟩ := Lexeme.exists_mem_of_mem_number id member
    cases lexeme with
    | positional => exact noSign _ among trivial
    | plain | escaped | named => cases same

theorem Statement.native_of_inert {statement : Statement}
    (inert : QuoteState.Inert statement.stringRule .start statement.text)
    (alone : statement.values = []) (style : PlaceholderStyle) :
    statement.native style = ⟨statement.text, []⟩ := by
  rw [native, pieces, inert.pieces_eq, Piece.write_plain, alone]

namespace Template

variable {engine : Engine} {arguments : Arguments Argument} {rule : StringRule}

theorem head?_render_number {writer : Writer} {slots : Arguments (Slot Draft)} {position : Nat}
    {state : QuoteState} {text : Text} {rendered : Rendered} (noColon : text.head? ≠ some ':')
    (noQuestion : text.head? ≠ some '?')
    (noEscape : ∀ sign, .escaped sign ∉ Lexeme.list rule state text)
    (written : Draft.render writer .inline
      ((Lexeme.number position (Lexeme.list rule state text)).flatMap
        (draftToken writer slots)) = .ok rendered) : rendered.text.head? = text.head? := by
  cases text with
  | nil =>
      rw [Lexeme.list] at written
      obtain rfl := Except.ok.inj written
      rfl
  | cons d rest =>
      obtain ⟨later, lexemes⟩ := Lexeme.exists_list_cons (fun same => noQuestion (congrArg some same))
        (fun same => noColon (congrArg some same)) noEscape
      rw [lexemes, flatMap_draftToken_number_cons] at written
      obtain ⟨first, behind, atFirst, -, rfl⟩ := Draft.render_append_eq_ok_iff.1 written
      obtain rfl := Except.ok.inj ((Draft.render_ofText writer .inline [d]).symm.trans atFirst)
      rfl

/--
The reader of a text with literals stays in step with the reader of the
template, and finds no sign where that one found none.
-/
theorem inert_number (plain : engine ≠ .postgreSQL)
    (flat : ∀ argument ∈ arguments.held, argument.Flat) (position : Nat)
    {state other : QuoteState} (text : Text) (alike : state.Alike other)
    (noEscape : ∀ sign, .escaped sign ∉ Lexeme.list engine.stringRule state text)
    {rendered : Rendered}
    (written : Draft.render engine.writer .inline
      ((Lexeme.number position (Lexeme.list engine.stringRule state text)).flatMap
        (draftToken engine.writer (arguments.map (Argument.draftSlot engine.writer)))) =
      .ok rendered) :
    QuoteState.Inert engine.stringRule other rendered.text := by
  have noPrefix := Engine.stringRule_ne_escapePrefixed plain
  induction state, text using Lexeme.list.induct engine.stringRule
    generalizing position other rendered with
  | case1 state =>
      rw [Lexeme.list] at written
      obtain rfl := Except.ok.inj written
      trivial
  | case2 state c rest covers ih =>
      rw [Lexeme.list_covered covers] at noEscape written
      rw [flatMap_draftToken_number_cons] at written
      obtain ⟨first, later, atFirst, atEnd, rfl⟩ := Draft.render_append_eq_ok_iff.1 written
      obtain rfl := Except.ok.inj ((Draft.render_ofText engine.writer .inline [c]).symm.trans atFirst)
      have covered : other.covers c = true := (alike.covers_eq c).symm.trans covers
      exact ⟨fun uncovered => absurd covered (Bool.eq_false_iff.1 uncovered),
        ih position (alike.next noPrefix c)
          (fun sign member => noEscape sign (List.mem_cons_of_mem _ member)) atEnd⟩
  | case3 state c rest covers ih =>
      obtain ⟨before, rfl, noMark⟩ :=
        QuoteState.covers_eq_false_iff.1 (Bool.eq_false_iff.2 covers)
      obtain ⟨behind, rfl⟩ : ∃ behind, other = .outside behind :=
        QuoteState.isOutside_eq_true_iff.1 (by rw [← alike.isOutside_eq]; rfl)
      have reads := Lexeme.reads_read c rest
      rw [Lexeme.list_outside noMark] at noEscape written
      rw [flatMap_draftToken_number_cons] at written
      rw [QuoteState.next_outside noMark] at ih
      generalize (Lexeme.read c rest).1 = lexeme, (Lexeme.read c rest).2 = tail
        at reads noEscape written ih
      obtain ⟨first, later, atFirst, atEnd, rfl⟩ := Draft.render_append_eq_ok_iff.1 written
      have escapesBehind : ∀ sign, .escaped sign ∉
          Lexeme.list engine.stringRule (.outside (before.step c)) tail :=
        fun sign member => noEscape sign (List.mem_cons_of_mem _ member)
      have goesOn : QuoteState.Inert engine.stringRule (.outside (before.step c)) later.text :=
        ih _ (.refl _) escapesBehind atEnd
      have replaced (harmless : engine.stringRule.Harmless first.text) :
          QuoteState.Inert engine.stringRule (.outside behind) (first ++ later).text :=
        .of_harmless noPrefix harmless goesOn behind
      cases reads with
      | escaped sign => exact absurd List.mem_cons_self (noEscape sign)
      | plain noQuestion slash colon =>
          obtain rfl := Except.ok.inj
            ((Draft.render_ofText engine.writer .inline [c]).symm.trans atFirst)
          refine ⟨fun _ => ⟨noQuestion, fun isSlash => ?_⟩, ?_⟩
          · -- Behind a plain backslash stands no marker, so the next character is the template's.
            obtain ⟨question, single⟩ := slash isSlash
            change later.text.head? ≠ some ':'
            rwa [head?_render_number single question escapesBehind atEnd]
          · rw [QuoteState.next_outside noMark]
            exact goesOn.of_alike noPrefix (.outside rfl rfl)
      | @colons run tail all whole =>
          obtain rfl := Except.ok.inj
            ((Draft.render_ofText engine.writer .inline (':' :: ':' :: run)).symm.trans atFirst)
          have colons : ∀ d ∈ ':' :: ':' :: run, d = ':' := by simpa using all
          refine replaced (.of_bare fun d member => ?_)
          rw [colons d member]
          decide
      | identifier tail =>
          exact replaced (harmless_draftMarker plain flat (.identifier position tail) first atFirst)
      | value single =>
          exact replaced (harmless_draftMarker plain flat (.value position single) first atFirst)
      | namedIdentifier name tail =>
          exact replaced (harmless_draftMarker plain flat (.namedIdentifier name tail) first atFirst)
      | namedValue name whole cast =>
          exact replaced
            (harmless_draftMarker plain flat (.namedValue name whole cast) first atFirst)

theorem flatMap_draftToken_none (writer : Writer) {lexemes : List Lexeme}
    (noSign : ∀ lexeme ∈ lexemes, ¬ lexeme.IsSign) (position : Nat) :
    (Lexeme.number position lexemes).flatMap (draftToken writer (.positional [])) =
      Draft.ofText (Token.spell (Lexeme.number position lexemes)) := by
  induction lexemes generalizing position with
  | nil => rfl
  | cons lexeme rest ih =>
      obtain ⟨here, later⟩ := List.forall_mem_cons.1 noSign
      have alone : draftToken writer (.positional []) (lexeme.token position) =
          .ofText (lexeme.token position).spelling := by
        cases lexeme with
        | plain | named => rfl
        | escaped | positional => exact absurd trivial here
      rw [flatMap_draftToken_number_cons, alone, ih later, ← Draft.ofText_append, Token.spell,
        Token.spell, Lexeme.flatMap_number_cons Token.spelling fun _ _ => rfl]

/-- Without arguments and signs a text is rendered as it stands, in either mode. -/
theorem render_eq_plain {t : Template} (given : t.arguments = .none) {writer : Writer}
    (noSign : ∀ lexeme ∈ Lexeme.list writer.stringRule .start t.text, ¬ lexeme.IsSign)
    (mode : Mode) : t.render writer mode = .ok (.plain t.text) := by
  have drafted : t.draft writer = .ofText t.text := by
    rw [draft_eq, given]
    exact (flatMap_draftToken_none writer noSign 0).trans
      (congrArg Draft.ofText (Token.spell_number_list 0 .start t.text))
  rw [render_draft, drafted, Draft.render_ofText]

/-- Without arguments and signs a text compiles to itself, with no values. -/
theorem exists_compileWith_eq {t : Template} (given : t.arguments = .none) {writer : Writer}
    (noSign : ∀ lexeme ∈ Lexeme.list writer.stringRule .start t.text, ¬ lexeme.IsSign) :
    ∃ compiled, t.compileWith writer = .ok compiled ∧ compiled.text = t.text ∧
      compiled.values = [] ∧ compiled.stringRule = writer.stringRule := by
  rw [compileWith, render_eq_plain given noSign]
  exact ⟨_, rfl, rfl, rfl, rfl⟩

/-- Without escaped signs and fragments, a text with literals is inert. -/
theorem inert_of_inlineWith {t : Template} {s : Text} (plain : engine ≠ .postgreSQL)
    (noEscape : ∀ sign, .escaped sign ∉ Token.lex engine.stringRule t.text)
    (flat : ∀ argument ∈ t.arguments.held, argument.Flat)
    (written : t.inlineWith engine.writer = .ok s) :
    QuoteState.Inert engine.stringRule .start s := by
  have escapes : ∀ sign, .escaped sign ∉ Lexeme.list engine.stringRule .start t.text := by
    intro sign member
    obtain ⟨place, among⟩ := Lexeme.exists_mem_number_of_mem member (fun _ => id) 0
    exact noEscape sign among
  obtain ⟨rendered, compiled, rfl⟩ := exists_of_map_eq_ok written
  rw [render_draft, draft_eq] at compiled
  exact inert_number plain flat 0 t.text (.refl .start) escapes compiled

/--
For engines without prefixed strings: when a template without escaped signs and
without fragments is written with literals, the text compiles to itself.  No
value and no path in it becomes an escaped sign, a positional marker or a
parameter, and a name behind a colon stays text.
-/
theorem inlineWith_inert {t : Template} {s : Text} (plain : engine ≠ .postgreSQL)
    (noEscape : ∀ sign, .escaped sign ∉ Token.lex engine.stringRule t.text)
    (flat : ∀ argument ∈ t.arguments.held, argument.Flat)
    (written : t.inlineWith engine.writer = .ok s) (d : DefaultEngine) :
    (∀ sign, .escaped sign ∉ Token.lex engine.stringRule s) ∧
      (∀ role position, .marker ⟨role, .index position⟩ ∉ Token.lex engine.stringRule s) ∧
      (d.template s .none).inlineWith engine.writer = .ok s ∧
      ∃ compiled, (d.template s .none).compileWith engine.writer = .ok compiled ∧
        compiled.text = s ∧ compiled.values = [] ∧ compiled.pieces = s.map .plain ∧
        ∀ style, compiled.native style = ⟨s, []⟩ := by
  have inert := inert_of_inlineWith plain noEscape flat written
  have noSign : ∀ lexeme ∈ Lexeme.list engine.writer.stringRule .start (d.template s .none).text,
      ¬ lexeme.IsSign :=
    Lexeme.not_isSign_of_inert (Engine.stringRule_ne_escapePrefixed plain) inert
  obtain ⟨noEscapes, noPositions⟩ := Token.not_mem_lex noSign
  have again : (d.template s .none).inlineWith engine.writer = .ok s :=
    congrArg (Except.map Rendered.text) (render_eq_plain rfl noSign .inline)
  obtain ⟨compiled, compiles, text, values, rule⟩ := exists_compileWith_eq rfl noSign
  change compiled.text = s at text
  subst text
  have stillInert : QuoteState.Inert compiled.stringRule .start compiled.text := rule ▸ inert
  exact ⟨noEscapes, noPositions, again, compiled, compiles, rfl, values, stillInert.pieces_eq,
    Statement.native_of_inert stillInert values⟩

/-- Signs in strings, in a path and between marks, and a number behind a colon. -/
def audit : Template where
  text := "insert into ?? values (?, ':x?', a::b) \\ :?".toList
  arguments := .positional
    [.scalar (.string "t.a\x60?:b".toList),
     .list [.scalar (.string "it's ?? :x \\".toList), .scalar (.bytes [1, 255]), .list [],
       .scalar (.boolean true)],
     .scalar (.unsigned 5)]
  engine := .oracle

def audited : Text :=
  "insert into \x60t\x60.\x60a\x60\x60?:b\x60 values ('it\\'s ?? :x \\\\', X'01FF', , TRUE, ':x?', a::b) \\ :5".toList

/-- The number behind the colon looks like a name and stays text. -/
theorem inlineWith_inert_audit :
    audit.inlineWith Engine.mySQL.writer = .ok audited ∧
      (DefaultEngine.template {} audited .none).inlineWith Engine.mySQL.writer = .ok audited ∧
      ∃ compiled,
        (DefaultEngine.template {} audited .none).compileWith Engine.mySQL.writer = .ok compiled ∧
        compiled.text = audited ∧ compiled.native .dollar = ⟨audited, []⟩ := by
  have noEscape : ∀ sign, .escaped sign ∉ Token.lex Engine.mySQL.stringRule audit.text := by
    intro sign
    cases sign <;> decide +kernel
  have flat : ∀ argument ∈ audit.arguments.held, argument.Flat := by
    refine List.forall_mem_cons.2 ⟨.scalar _, List.forall_mem_cons.2 ⟨.list ?_,
      List.forall_mem_singleton.2 (.scalar _)⟩⟩
    simp [Argument.Flat.scalar, Argument.Flat.list]
  have written : audit.inlineWith Engine.mySQL.writer = .ok audited := by decide +kernel
  obtain ⟨-, -, again, compiled, compiles, text, -, -, native⟩ :=
    inlineWith_inert (by decide) noEscape flat written {}
  exact ⟨written, again, compiled, compiles, text, native .dollar⟩

end Template

end SqlTemplate
