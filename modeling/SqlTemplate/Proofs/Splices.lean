import SqlTemplate.Proofs.Comments
import SqlTemplate.Proofs.PrefixedStrings

/-!
# Scalars written into a template

A template with scalars is written lexeme by lexeme.  The reader of the written
text, a reader of every character of the template, and the reader that finds
the lexemes stay in step: escapes and markers leave all of them where a word can
start.  Only a literal that ends in a word can tell them apart, where strings
are prefixed and the letter of a prefixed string stands directly behind it.
-/

namespace SqlTemplate

namespace Lexeme

variable {engine : Engine} {values : List Scalar} {position : Nat} {lexeme : Lexeme}
  {lexemes : List Lexeme} {rule : StringRule} {state shown other : QuoteState}

/-- What a lexeme is written as, among scalars by position. -/
inductive Written (engine : Engine) (values : List Scalar) (position : Nat) :
    Lexeme → Text → Prop where
  | plain (text : Text) : Written engine values position (.plain text) text
  | escaped (sign : Sign) : Written engine values position (.escaped sign) [sign.char]
  | named (role : Role) (name : Text)
      (digit : values ≠ [] → name.head?.any Char.isDigit = true) :
      Written engine values position (.named role name) (named role name).spelling
  | path (path : Text) (given : values ≠ []) :
      Written engine values position (.positional .identifier) (engine.writer.wrapPath path)
  | value {value : Scalar} {text : Text} (given : values[position]? = some value)
      (literal : engine.literal value = .ok text) :
      Written engine values position (.positional .value) text

theorem written_named {role : Role} {name : Text} {first : Rendered}
    (rendered : Draft.render engine.writer .inline (Template.draftMarker engine.writer
      (Template.scalarSlots engine.writer values) ⟨role, .name name⟩) = .ok first) :
    Written engine values position (.named role name) first.text := by
  unfold Template.draftMarker at rendered
  split at rendered
  · next isPlain =>
      obtain rfl := Draft.eq_of_render_ofText rendered
      refine .named role name fun given => ?_
      simpa [Template.scalarSlots, Arguments.ofScalars, Arguments.map, Slot.isPlain, given]
        using isPlain
  · cases rendered

theorem written_positional {role : Role} {first : Rendered}
    (rendered : Draft.render engine.writer .inline (Template.draftMarker engine.writer
      (Template.scalarSlots engine.writer values) ⟨role, .index position⟩) = .ok first) :
    Written engine values position (.positional role) first.text := by
  cases given : values[position]? with
  | none =>
      have missing := Template.find?_scalarSlots engine.writer values position
      rw [given] at missing
      unfold Template.draftMarker Slot.ofMarker at rendered
      rw [missing] at rendered
      cases rendered
  | some value =>
      have found := Arguments.find?_ofScalars given
      cases role with
      | value =>
          have drafted : Template.draftMarker engine.writer
              (Template.scalarSlots engine.writer values) ⟨.value, .index position⟩ =
              [.ok (.value value)] := Template.draftMarker_value found
          rw [drafted] at rendered
          obtain ⟨text, empty, atFirst, atEnd, rfl⟩ := Draft.render_cons_eq_ok_iff.1 rendered
          obtain rfl := Except.ok.inj atEnd
          obtain ⟨text, literal, rfl⟩ := exists_of_map_eq_ok atFirst
          rw [Rendered.append_empty]
          exact .value given literal
      | identifier =>
          have drafted : Template.draftMarker engine.writer
              (Template.scalarSlots engine.writer values) ⟨.identifier, .index position⟩ =
              Template.draftPath engine.writer (.index position) (.scalar value) :=
            Template.draftMarker_of_find? found
          rw [drafted, Template.draftPath] at rendered
          split at rendered
          · next path _ =>
              obtain rfl := Draft.eq_of_render_ofText rendered
              refine .path path fun empty => ?_
              rw [empty] at given
              cases given
          · cases rendered

theorem written_of_render {first : Rendered}
    (rendered : Draft.render engine.writer .inline (Template.draftToken engine.writer
      (Template.scalarSlots engine.writer values) (lexeme.token position)) = .ok first) :
    Written engine values position lexeme first.text := by
  cases lexeme with
  | plain text =>
      obtain rfl := Draft.eq_of_render_ofText rendered
      exact .plain text
  | escaped sign =>
      cases sign with
      | question =>
          obtain rfl := Except.ok.inj rendered
          exact .escaped .question
      | colon =>
          obtain rfl := Except.ok.inj rendered
          exact .escaped .colon
  | named role name => exact written_named rendered
  | positional role => exact written_positional rendered

/--
Where strings are prefixed, the value that a lexeme asks for is written at a
place for it, and no letter of a prefixed string stands behind the lexeme.
-/
def Fits (engine : Engine) (values : List Scalar) (position : Nat) (state : QuoteState)
    (lexeme : Lexeme) (behind : Text) : Prop :=
  engine = .postgreSQL → lexeme = .positional .value →
    ∀ value, values[position]? = some value →
      (∀ before, state = .outside before → Engine.Placed before value) ∧ ¬ behind.StartsPrefixed

/-- Lexemes written one after the other, where each value fits. -/
inductive Splices (engine : Engine) (values : List Scalar) :
    Nat → QuoteState → List Lexeme → Text → Prop where
  | nil (position : Nat) (state : QuoteState) : Splices engine values position state [] []
  | cons {position : Nat} {state : QuoteState} {lexeme : Lexeme} {lexemes : List Lexeme}
      {first later : Text} (written : Written engine values position lexeme first)
      (fits : Fits engine values position state lexeme (spell lexemes))
      (splices : Splices engine values (lexeme.following position)
        (state.run engine.stringRule first) lexemes later) :
      Splices engine values position state (lexeme :: lexemes) (first ++ later)

theorem splices_of_render {state : QuoteState} {rendered : Rendered}
    (written : Draft.render engine.writer .inline ((number position lexemes).flatMap
      (Template.draftToken engine.writer (Template.scalarSlots engine.writer values))) = .ok rendered)
    (strings : engine = .postgreSQL → Draft.StringsAt engine.writer (· = .outside .boundary) state
      ((number position lexemes).flatMap
        (Template.draftToken engine.writer (Template.scalarSlots engine.writer values))))
    (zones : engine = .postgreSQL → ∀ m, .moment m ∈ values → m.PlainZone)
    (ends : engine = .postgreSQL → ∀ index rest,
      (⟨.value, .index index⟩, rest) ∈ Token.places (number position lexemes) →
        ¬ rest.StartsPrefixed) :
    Splices engine values position state lexemes rendered.text := by
  induction lexemes generalizing position state rendered with
  | nil =>
      obtain rfl := Except.ok.inj written
      exact .nil position state
  | cons lexeme rest ih =>
      rw [Template.flatMap_draftToken_number_cons] at written strings
      obtain ⟨first, later, atFirst, atLater, rfl⟩ := Draft.render_append_eq_ok_iff.1 written
      refine .cons (written_of_render atFirst) (fun prefixed isValue value given => ⟨?_, ?_⟩)
        (ih atLater (fun prefixed => (strings prefixed).behind atFirst) ?_)
      · rintro before rfl
        subst isValue
        refine ⟨?_, ?_⟩
        · rintro text rfl
          have drafted : Template.draftToken engine.writer
              (Template.scalarSlots engine.writer values) ((positional .value).token position) =
              [.ok (.value (.string text))] :=
            Template.draftMarker_value (Arguments.find?_ofScalars given)
          rw [drafted] at strings
          exact QuoteState.outside.inj ((strings prefixed).1 text rfl)
        · rintro m rfl
          exact zones prefixed m (List.mem_of_getElem? given)
      · subst isValue
        refine ends prefixed position _ ?_
        rw [← spell_number (position + 1)]
        exact List.mem_cons_self
      · exact fun prefixed index behind member => ends prefixed index behind (mem_places_of_tail member)

theorem run_escaped (sign : Sign) (state : QuoteState) :
    state.run rule (escaped sign).spelling = state.run rule [sign.char] := by
  change state.run rule ['\\', sign.char] = _
  cases state with
  | outside before => cases sign <;> cases before <;> rfl
  | inside mark hides => cases sign <;> cases mark <;> cases hides <;> rfl
  | hidden mark => cases sign <;> cases mark <;> rfl

/-- The first lexeme of a text that is entered in a state, and the text behind it. -/
inductive Takes : QuoteState → Char → Text → Lexeme → Text → Prop where
  | quoted {state : QuoteState} {c : Char} (covers : state.covers c = true) (rest : Text) :
      Takes state c rest (.plain [c]) rest
  | read {before : Preceding} {c : Char} {rest tail : Text} {lexeme : Lexeme}
      (noMark : QuoteMark.ofChar? c = none) (reads : Reads c rest lexeme tail) :
      Takes (.outside before) c rest lexeme tail

theorem Takes.spelling_append {c : Char} {rest tail : Text} (takes : Takes state c rest lexeme tail) :
    lexeme.spelling ++ tail = c :: rest := by
  cases takes with
  | quoted covers => rfl
  | read noMark reads => exact reads.spelling_append 0

theorem exists_takes (rule : StringRule) (state : QuoteState) (c : Char) (rest : Text) :
    ∃ lexeme tail, Takes state c rest lexeme tail ∧
      list rule state (c :: rest) = lexeme :: list rule (state.next rule c) tail := by
  cases covers : state.covers c with
  | true => exact ⟨_, _, .quoted covers rest, list_covered covers rest⟩
  | false =>
      obtain ⟨before, rfl, noMark⟩ := QuoteState.covers_eq_false_iff.1 covers
      refine ⟨_, _, .read noMark (reads_read c rest), ?_⟩
      rw [list_outside noMark, QuoteState.next_outside noMark]

/--
The reader of a template, a reader of all its characters and the reader of what
is written are in step; the first one only if there are arguments, because
without them names are text.
-/
structure Attuned (values : List Scalar) (rule : StringRule) (state shown other : QuoteState)
    (text : Text) : Prop where
  same : values ≠ [] → QuoteState.InStep rule state shown text
  follows : QuoteState.InStep rule shown other text

theorem Attuned.exists_outside {before : Preceding} {text : Text}
    (attuned : Attuned values rule (.outside before) shown other text) (given : values ≠ []) :
    ∃ before, other = .outside before := by
  have alike := (attuned.same given).alike.trans attuned.follows.alike
  exact QuoteState.isOutside_eq_true_iff.1 (alike.isOutside_eq.symm.trans rfl)

theorem Attuned.next {c : Char} {rest tail first : Text}
    (attuned : Attuned values engine.stringRule state shown other (c :: rest))
    (takes : Takes state c rest lexeme tail)
    (written : Written engine values position lexeme first)
    (fits : Fits engine values position other lexeme tail) :
    Attuned values engine.stringRule (state.next engine.stringRule c)
      (shown.run engine.stringRule lexeme.spelling) (other.run engine.stringRule first) tail := by
  have spelled := takes.spelling_append
  have same (given : values ≠ []) : QuoteState.InStep engine.stringRule
      (state.next engine.stringRule c) (shown.run engine.stringRule lexeme.spelling) tail := by
    have here := attuned.same given
    cases takes with
    | quoted covers => exact here.next
    | read noMark reads =>
        rw [QuoteState.next_outside noMark]
        rw [← spelled] at here
        refine (reads.inStep_run noMark ?_).trans here.append
        rintro letter rfl isLetter
        cases written with
        | named role name digit =>
            have isDigit : letter.isDigit = true := digit given
            rcases isLetter with rfl | rfl <;> cases isDigit
  have follows : QuoteState.InStep engine.stringRule (shown.run engine.stringRule lexeme.spelling)
      (other.run engine.stringRule lexeme.spelling) tail :=
    .append (spelled ▸ attuned.follows)
  refine ⟨same, ?_⟩
  cases written with
  | plain text => exact follows
  | escaped sign => rwa [run_escaped sign other] at follows
  | named role name digit => exact follows
  | path path given =>
      refine (same given).symm.trans ?_
      cases takes with
      | read noMark reads =>
          obtain ⟨behind, rfl⟩ := attuned.exists_outside given
          cases reads
          rw [QuoteState.next_outside_question,
            (Prod.mk.inj (Engine.shows_wrapPath engine path engine.stringRule behind)).1]
          exact .refl _ _
  | @value value text found literal =>
      have given := List.ne_nil_of_mem (List.mem_of_getElem? found)
      refine (same given).symm.trans ?_
      cases takes with
      | read noMark reads =>
          obtain ⟨behind, rfl⟩ := attuned.exists_outside given
          cases reads
          rw [QuoteState.next_outside_question]
          by_cases prefixed : engine = .postgreSQL
          · subst prefixed
            obtain ⟨placed, ends⟩ := fits rfl rfl value found
            rcases Engine.run_literal_postgreSQL (placed behind rfl) literal with boundary | word
            · have boundary : QuoteState.run Engine.postgreSQL.stringRule _ _ = _ := boundary
              rw [boundary]
              exact .refl _ _
            · have word : QuoteState.run Engine.postgreSQL.stringRule _ _ = _ := word
              rw [word]
              exact QuoteState.inStep_boundary_word ends
          · refine .of_alike ?_ (.outside rfl (Engine.isOutside_run_literal prefixed literal behind)) _
            cases engine <;> first | exact absurd rfl prefixed | decide

end Lexeme

end SqlTemplate
