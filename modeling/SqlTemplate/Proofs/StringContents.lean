import SqlTemplate.Proofs.ClosedArguments
import SqlTemplate.Proofs.StringPlaces

/-!
# The contents of strings

For engines without prefixed strings it does not matter what the strings among
the values contain.  The reader of the text with literals stays in step with
the reader of the template, so every string begins outside quotes, and the
quotes of its literal hide it.  The text with literals therefore shows the same
outside quotes, whatever the strings are.
-/

namespace SqlTemplate

/--
A draft whose strings begin outside quotes and that leaves nothing open, wherever
it is put outside quotes.
-/
structure Draft.Tame (writer : Writer) (draft : Draft) : Prop where
  strings : ∀ before, draft.StringsAt writer (·.isOutside = true) (.outside before)
  outside : ∀ before rendered, draft.render writer .inline = .ok rendered →
    (QuoteState.run writer.stringRule (.outside before) rendered.text).isOutside = true

namespace Draft.Tame

variable {writer : Writer}

theorem nil : Tame writer [] where
  strings _ := trivial
  outside before rendered written := by
    obtain rfl := Except.ok.inj written
    rfl

theorem error (failure : CompileError) : Tame writer [.error failure] where
  strings _ := stringsAt_of_noValue (by simp)
  outside before rendered written := by cases written

theorem ofText {text : Text} (noMark : ∀ c ∈ text, QuoteMark.ofChar? c = none) :
    Tame writer (.ofText text) where
  strings _ := stringsAt_of_noValue (by simp [Draft.ofText])
  outside before rendered written := by
    rw [render_ofText] at written
    obtain rfl := Except.ok.inj written
    exact QuoteState.isOutside_run_of_noMark noMark

theorem of_sealed {text : Text} (whole : Sealed text) : Tame writer (.ofText text) where
  strings _ := stringsAt_of_noValue (by simp [Draft.ofText])
  outside before rendered written := by
    rw [render_ofText] at written
    obtain rfl := Except.ok.inj written
    rw [Rendered.plain, whole.run]
    rfl

theorem question : Tame writer [.ok .question] where
  strings _ := stringsAt_of_noValue (by simp)
  outside before rendered written := by
    obtain rfl := Except.ok.inj written
    cases before <;> rfl

theorem value {engine : Engine} (plain : engine ≠ .postgreSQL) (scalar : Scalar) :
    Tame engine.writer [.ok (.value scalar)] where
  strings _ := ⟨fun _ _ => rfl, fun _ _ => trivial⟩
  outside before rendered written := by
    obtain ⟨first, later, atFirst, atEnd, rfl⟩ := render_cons_eq_ok_iff.1 written
    obtain rfl := Except.ok.inj atEnd
    change (engine.literal scalar).map Rendered.plain = .ok first at atFirst
    cases literal : engine.literal scalar with
    | error failure => simp [literal, Except.map] at atFirst
    | ok text =>
        rw [literal] at atFirst
        obtain rfl := Except.ok.inj atFirst
        rw [Rendered.append_empty]
        exact Engine.isOutside_run_literal plain literal before

theorem append {first second : Draft} (front : Tame writer first) (back : Tame writer second) :
    Tame writer (first ++ second) where
  strings before := by
    refine (front.strings before).append fun rendered written => ?_
    obtain ⟨behind, state⟩ :=
      QuoteState.isOutside_eq_true_iff.1 (front.outside before rendered written)
    rw [state]
    exact back.strings behind
  outside before rendered written := by
    obtain ⟨first, later, atFirst, atEnd, rfl⟩ := render_append_eq_ok_iff.1 written
    obtain ⟨behind, state⟩ :=
      QuoteState.isOutside_eq_true_iff.1 (front.outside before first atFirst)
    rw [Rendered.text_append, QuoteState.run_append, state]
    exact back.outside behind later atEnd

theorem compositional (writer : Writer) : Draft.Compositional (Tame writer) where
  nil := nil
  error := error
  comma := ofText (by simp [QuoteMark.ofChar?])
  append := append

end Draft.Tame

namespace Template

variable {writer : Writer} {slots : Arguments (Slot Draft)}

theorem tame_draftMarker (whole : ∀ path, Sealed (writer.wrapPath path))
    (values : ∀ slot ∈ slots.held, Draft.Tame writer slot.value) {place : Marker}
    (noMark : ∀ c ∈ place.spelling, QuoteMark.ofChar? c = none) :
    Draft.Tame writer (draftMarker writer slots place) :=
  draftMarker_of_compositional (Draft.Tame.compositional writer)
    (fun path => .of_sealed (whole path)) values fun _ => .ofText noMark

theorem tame_draftToken (whole : ∀ path, Sealed (writer.wrapPath path))
    (values : ∀ slot ∈ slots.held, Draft.Tame writer slot.value) {c : Char} {text rest : Text}
    {lexeme : Lexeme} (reads : Lexeme.Reads c text lexeme rest)
    (unmarked : QuoteMark.ofChar? c = none) (position : Nat) :
    Draft.Tame writer (draftToken writer slots (lexeme.token position)) := by
  have noMark := reads.noMark unmarked
  cases lexeme with
  | plain text => exact .ofText noMark
  | escaped sign =>
      cases sign with
      | question => exact .question
      | colon => exact .ofText (by simp [QuoteMark.ofChar?])
  | positional role =>
      refine tame_draftMarker whole values ?_
      cases role <;> exact noMark
  | named role name => exact tame_draftMarker whole values noMark

/--
The reader of a text with literals stays in step with the reader of the
template, so the strings in it begin outside quotes.
-/
theorem strings_number (plain : writer.stringRule ≠ .escapePrefixed)
    (whole : ∀ path, Sealed (writer.wrapPath path))
    (values : ∀ slot ∈ slots.held, Draft.Tame writer slot.value) (position : Nat)
    {state other : QuoteState} (text : Text) (alike : state.Alike other) :
    let draft : Draft :=
      (Lexeme.number position (Lexeme.list writer.stringRule state text)).flatMap
        (draftToken writer slots)
    draft.StringsAt writer (·.isOutside = true) other ∧
      ∀ rendered, draft.render writer .inline = .ok rendered →
        (QuoteState.run writer.stringRule state text).Alike
          (QuoteState.run writer.stringRule other rendered.text) := by
  induction state, text using Lexeme.list.induct writer.stringRule generalizing position other with
  | case1 state =>
      rw [Lexeme.list]
      refine ⟨trivial, fun rendered written => ?_⟩
      obtain rfl := Except.ok.inj written
      exact alike
  | case2 state c rest covers ih =>
      rw [Lexeme.list, if_pos covers, flatMap_draftToken_number_cons]
      obtain ⟨strings, reads⟩ := ih position (alike.next plain c)
      constructor
      · refine ⟨fun value same => ?_, fun rendered written => ?_⟩
        · cases same
        · obtain rfl := Except.ok.inj written
          exact strings
      · intro rendered written
        obtain ⟨first, later, atFirst, atEnd, rfl⟩ := Draft.render_append_eq_ok_iff.1 written
        obtain rfl := Except.ok.inj ((Draft.render_ofText writer .inline [c]).symm.trans atFirst)
        exact reads later atEnd
  | case3 state c rest covers ih =>
      obtain ⟨before, rfl, noMark⟩ :=
        QuoteState.covers_eq_false_iff.1 (Bool.eq_false_iff.2 covers)
      obtain ⟨behind, rfl⟩ : ∃ behind, other = .outside behind :=
        QuoteState.isOutside_eq_true_iff.1 (by rw [← alike.isOutside_eq]; rfl)
      have reads := Lexeme.reads_read c rest
      rw [Lexeme.list, if_neg covers, flatMap_draftToken_number_cons]
      generalize (Lexeme.read c rest).1 = lexeme, (Lexeme.read c rest).2 = tail at reads ih ⊢
      have tame := tame_draftToken whole values reads noMark position
      have later {first : Rendered} (written : Draft.render writer .inline
          (draftToken writer slots (lexeme.token position)) = .ok first) :
          ((QuoteState.outside before).next writer.stringRule c).Alike
            (QuoteState.run writer.stringRule (.outside behind) first.text) := by
        rw [QuoteState.next_outside noMark]
        exact .outside rfl (tame.outside behind first written)
      constructor
      · exact (tame.strings behind).append fun rendered written => (ih _ (later written)).1
      · intro rendered written
        obtain ⟨first, second, atFirst, atEnd, rfl⟩ := Draft.render_append_eq_ok_iff.1 written
        rw [← reads.spelling_append 0, QuoteState.run_append, Rendered.text_append,
          QuoteState.run_append]
        -- The spelling of the lexeme has no mark, so both ways of reading it end outside quotes.
        have spelled : (QuoteState.run writer.stringRule (.outside before)
            (lexeme.token 0).spelling).isOutside = true :=
          QuoteState.isOutside_run_of_noMark (reads.noMark noMark)
        have joined := (QuoteState.Alike.outside spelled rfl).trans
          ((QuoteState.next_outside noMark).symm ▸ later atFirst)
        exact (joined.run plain tail).trans (((later atFirst).symm.run plain tail).trans
          ((ih _ (later atFirst)).2 second atEnd))

end Template

namespace Argument.Variant

variable {engine : Engine} {rule : StringRule}

theorem exists_pairs {text : Text} {arguments : Arguments Argument} {other : Argument}
    (variant : Variant rule (.template text arguments) other) :
    ∃ pairs : Arguments (Argument × Argument), arguments = pairs.map Prod.fst ∧
      ∀ pair ∈ pairs.held, Variant rule pair.1 pair.2 := by
  cases variant with
  | template all paths => exact ⟨_, rfl, all⟩

theorem tame_slots {pairs : Arguments (Argument × Argument)}
    (tame : ∀ pair ∈ pairs.held, pair.1.Closed rule →
      Draft.Tame engine.writer (pair.1.draft engine.writer))
    (closed : ∀ argument ∈ (pairs.map Prod.fst).held, argument.Closed rule) :
    ∀ slot ∈ ((pairs.map Prod.fst).map (draftSlot engine.writer)).held,
      Draft.Tame engine.writer slot.value := by
  rw [Arguments.held_map] at closed ⊢
  rw [Arguments.held_map]
  intro slot member
  obtain ⟨argument, inArguments, rfl⟩ := List.mem_map.1 member
  obtain ⟨pair, among, rfl⟩ := List.mem_map.1 inArguments
  exact tame pair among (closed pair.1 inArguments)

/-- A closed argument that has variants is drafted as what leaves nothing open. -/
theorem tame (plain : engine ≠ .postgreSQL) {first second : Argument}
    (variant : Variant engine.stringRule first second)
    (closed : first.Closed engine.stringRule) :
    Draft.Tame engine.writer (first.draft engine.writer) := by
  induction variant with
  | scalar value => exact .value plain value
  | string value other => exact .value plain (.string value)
  | list all ih =>
      cases closed with
      | list closed =>
          rw [Argument.draft, draftItems_eq, List.map_map]
          refine (Draft.Tame.compositional _).commaSeparated fun draft member => ?_
          obtain ⟨item, inItems, rfl⟩ := List.mem_map.1 member
          obtain ⟨pair, among, rfl⟩ := List.mem_map.1 inItems
          exact ih pair among (closed pair.1 inItems)
  | @template text pairs all paths ih =>
      cases closed with
      | template closes closed =>
          rw [Argument.draft, draftSlots_eq]
          have values := tame_slots ih closed
          have read (before : Preceding) :=
            Template.strings_number (Engine.stringRule_ne_escapePrefixed plain)
              engine.sealed_wrapPath values 0 text
              (.outside QuoteState.isOutside_start (rfl : (QuoteState.outside before).isOutside))
          constructor
          · intro before
            exact (read before).1
          · intro before rendered written
            rw [← ((read before).2 rendered written).isOutside_eq]
            exact closes

end Argument.Variant

namespace Template

/--
For engines without prefixed strings, what stands outside quotes does not depend
on the contents of strings: variants of a template fail with one error, or show
the same characters outside quotes.
-/
theorem unquoted_inlineWith_eq {t u : Template} {engine : Engine} (plain : engine ≠ .postgreSQL)
    (closed : ∀ argument ∈ t.arguments.held, argument.Closed engine.stringRule)
    (variant : t.toArgument.Variant engine.stringRule u.toArgument) :
    (t.inlineWith engine.writer).map (QuoteState.unquoted engine.stringRule .start) =
      (u.inlineWith engine.writer).map (QuoteState.unquoted engine.stringRule .start) := by
  have strings : (t.draft engine.writer).StringsAt engine.writer (·.isOutside = true) .start := by
    obtain ⟨pairs, arguments, all⟩ := variant.exists_pairs
    rw [arguments] at closed
    have values := Argument.Variant.tame_slots (fun pair among => (all pair among).tame plain) closed
    rw [draft_eq, arguments]
    exact (strings_number (Engine.stringRule_ne_escapePrefixed plain) engine.sealed_wrapPath values
      0 _ (.refl .start)).1
  have opens : ∀ state : QuoteState, state.isOutside = true →
      ∃ before, state = .outside before ∧ (engine = .postgreSQL → before = .boundary) := by
    intro state outside
    obtain ⟨before, same⟩ := QuoteState.isOutside_eq_true_iff.1 outside
    exact ⟨before, same, fun prefixed => absurd prefixed plain⟩
  exact variant.unquoted_eq opens strings

/-- A search for a name among others, and for a note. -/
def search (name note : Text) : Template where
  text := "select ?? from t where name in (?) or (?)".toList
  arguments := .positional
    [.scalar (.string "t.id".toList),
     .list [.scalar (.string name), .scalar .null],
     .template "note = :note".toList (.ofPairs [("note".toList, .scalar (.string note))])]
  engine := .mySQL

theorem search_closed (name note : Text) :
    ∀ argument ∈ (search name note).arguments.held,
      argument.Closed Engine.mySQL.stringRule := by
  have fragment : Engine.mySQL.stringRule.Closes "note = :note".toList := by decide +kernel
  refine List.forall_mem_cons.2 ⟨.scalar _, List.forall_mem_cons.2 ⟨.list ?_,
    List.forall_mem_singleton.2 (.template fragment ?_)⟩⟩
  · simp [Argument.Closed.scalar]
  · exact List.forall_mem_singleton.2 (.scalar _)

theorem search_variant (name note other another : Text) :
    (search name note).toArgument.Variant Engine.mySQL.stringRule
      (search other another).toArgument := by
  let strings (first second : Text) : Argument × Argument :=
    (.scalar (.string first), .scalar (.string second))
  let names : List (Argument × Argument) := [strings name other, (.scalar .null, .scalar .null)]
  let notes : Arguments (Argument × Argument) := .ofPairs [("note".toList, strings note another)]
  let pairs : Arguments (Argument × Argument) := .positional
    [strings "t.id".toList "t.id".toList,
     (.list (names.map Prod.fst), .list (names.map Prod.snd)),
     (.template "note = :note".toList (notes.map Prod.fst),
      .template "note = :note".toList (notes.map Prod.snd))]
  have inText : ∀ key, .marker ⟨.identifier, key⟩ ∈
      Token.lex Engine.mySQL.stringRule "select ?? from t where name in (?) or (?)".toList →
      key = .index 0 := by
    have lexed : Token.lex Engine.mySQL.stringRule
        "select ?? from t where name in (?) or (?)".toList =
          [.literal "select ".toList, .marker ⟨.identifier, .index 0⟩,
           .literal " from t where name in (".toList, .marker ⟨.value, .index 1⟩,
           .literal ") or (".toList, .marker ⟨.value, .index 2⟩, .literal ")".toList] := by
      decide +kernel
    intro key member
    rw [lexed] at member
    simpa using member
  have inNote : ∀ key, .marker ⟨.identifier, key⟩ ∉
      Token.lex Engine.mySQL.stringRule "note = :note".toList := by
    have lexed : Token.lex Engine.mySQL.stringRule "note = :note".toList =
        [.literal "note = ".toList, .marker ⟨.value, .name "note".toList⟩] := by
      decide +kernel
    intro key
    rw [lexed]
    simp
  have list : Argument.Variant Engine.mySQL.stringRule (.list (names.map Prod.fst))
      (.list (names.map Prod.snd)) :=
    .list (List.forall_mem_cons.2
      ⟨.string _ _, List.forall_mem_singleton.2 (.scalar _)⟩)
  have fragment : Argument.Variant Engine.mySQL.stringRule
      (.template "note = :note".toList (notes.map Prod.fst))
      (.template "note = :note".toList (notes.map Prod.snd)) :=
    .template (List.forall_mem_singleton.2 (.string _ _))
      fun key _ member _ => absurd member (inNote key)
  have whole : ∀ pair ∈ pairs.held, Argument.Variant Engine.mySQL.stringRule pair.1 pair.2 :=
    List.forall_mem_cons.2 ⟨.scalar _, List.forall_mem_cons.2
      ⟨list, List.forall_mem_singleton.2 fragment⟩⟩
  refine .template whole fun key pair member found => ?_
  obtain rfl := inText key member
  obtain rfl := Option.some.inj found
  rfl

/-- A quote and a comment in a string, or a backslash at its end, are not seen outside it. -/
theorem unquoted_search :
    ((search "ann".toList "new".toList).inlineWith Engine.mySQL.writer).map
        (QuoteState.unquoted Engine.mySQL.stringRule .start) =
      ((search "\\".toList "' or 1 = 1 -- ".toList).inlineWith Engine.mySQL.writer).map
        (QuoteState.unquoted Engine.mySQL.stringRule .start) :=
  unquoted_inlineWith_eq (by decide) (search_closed _ _) (search_variant _ _ _ _)

end Template

end SqlTemplate
