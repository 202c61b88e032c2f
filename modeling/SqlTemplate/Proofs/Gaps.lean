import SqlTemplate.Proofs.FlatArguments

/-!
# Every gap can be noticed

A gap joins the word in front of a marker and the string behind it.  When the
word is the letter of prefixed strings, the second reader takes the backslash
in the string for an escape, ends the string one mark later, and finds a
parameter that nobody wrote.
-/

namespace SqlTemplate

/-- Two strings, with a question mark in the second unless a backslash hides a mark. -/
def gapStrings : Text :=
  ['\'', '\\', '\'', ' ', '\'', ' ', '?', '\'']

/-- A text with markers for the positions in front of a gap, which joins a letter to strings. -/
def gapBehind : Nat → Text
  | 0 => 'E' :: '?' :: gapStrings
  | distance + 1 => '?' :: ' ' :: gapBehind distance

namespace Lexeme

theorem read_name_gapStrings {word : Text} (name : word.IsName) :
    read ':' (word ++ gapStrings) = (.named .value word, gapStrings) := by
  have ends : ∀ c ∈ gapStrings.head?, Text.isNameChar c = false := by
    rintro c ⟨⟩
    rfl
  rw [read_colon (name.head?_append gapStrings), readName_append name ends]
  rfl

theorem list_gapStrings :
    list .escapePrefixed (.outside .boundary) gapStrings =
      gapStrings.map fun c => .plain [c] := by
  decide +kernel

theorem list_letter_name {word : Text} (name : word.IsName) :
    list .escapePrefixed (.outside .boundary) ('E' :: ':' :: (word ++ gapStrings)) =
      .plain ['E'] :: .named .value word :: gapStrings.map fun c => .plain [c] := by
  rw [list_plain (by decide) (by decide) (by decide) (by decide), list, if_neg (by decide),
    read_name_gapStrings name, ← list_gapStrings]
  rfl

theorem list_letter_value :
    list .escapePrefixed (.outside .boundary) (gapBehind 0) =
      .plain ['E'] :: .positional .value :: gapStrings.map fun c => .plain [c] := by
  rw [gapBehind, list_plain (by decide) (by decide) (by decide) (by decide),
    list_value (by decide), list_gapStrings]

theorem list_gapBehind_succ (distance : Nat) :
    list .escapePrefixed (.outside .boundary) (gapBehind (distance + 1)) =
      .positional .value :: .plain [' '] ::
        list .escapePrefixed (.outside .boundary) (gapBehind distance) := by
  rw [gapBehind, list_value (by simp),
    list_plain (by decide) (by decide) (by decide) (by decide)]
  rfl

end Lexeme

namespace Template

variable {writer : Writer} {slots : Arguments (Slot Draft)}

theorem count_letter_strings {before : List Char} (letter : before = ['E'] ∨ before = [':', 'e']) :
    (Piece.list .escapePrefixed (.outside .boundary)
      (((before ++ gapStrings).map Part.plain).flatMap Part.text)).count .parameter = 1 := by
  rw [Part.flatMap_text_plain]
  rcases letter with rfl | rfl <;> decide

/-- In front of a blank the parameters of a flat argument are found as they were written. -/
theorem count_value_blank {argument : Argument} (flat : argument.Flat) {parts later : List Part}
    (drafted : argument.draft writer = parts.map .ok) {rule : StringRule} :
    (Piece.list rule (.outside .boundary)
        ((parts ++ .plain ' ' :: later).flatMap Part.text)).count .parameter =
      (parts.flatMap Part.values).length +
        (Piece.list rule (.outside .boundary) (later.flatMap Part.text)).count .parameter := by
  have closing : Closing rule parts := flat.closing drafted
  obtain ⟨behind, state⟩ := QuoteState.isOutside_eq_true_iff.1 (closing.outside .boundary)
  have cut : Piece.SafeCut (parts.flatMap Part.text) (' ' :: later.flatMap Part.text) :=
    fun _ => by simp
  have blank : (QuoteState.outside behind).next rule ' ' = .outside .boundary := by
    cases behind <;> rfl
  rw [List.flatMap_append, List.flatMap_cons, Part.text, List.singleton_append,
    Piece.list_append _ cut, closing.reread, state, List.count_append, flat.count_pieces drafted,
    Piece.list_cons_plain rfl (by decide) (by simp [Piece.SafeCut]), blank,
    List.count_cons_of_ne (by simp)]

/-- A marker that nothing is put in for leaves the letter in front of the strings. -/
theorem draft_letter_gap {position : Nat} {lexeme : Lexeme} {place : Marker}
    (marker : lexeme.token position = .marker place)
    (gap : draftMarker writer slots place = []) :
    (Lexeme.number position
        (.plain ['E'] :: lexeme :: gapStrings.map fun c => .plain [c])).flatMap
      (draftToken writer slots) = ((['E'] ++ gapStrings).map Part.plain).map .ok := by
  rw [flatMap_draftToken_number_cons, flatMap_draftToken_number_cons, flatMap_draftToken_plain,
    Lexeme.following, marker, draftToken, gap]
  rfl

/-- Behind any number of values a gap at a position is noticed. -/
theorem exists_parts_gapBehind {items : List Argument} (flat : ∀ item ∈ items, item.Flat)
    {position distance : Nat} {argument : Argument}
    (found : items[position + distance]? = some argument) (vacant : argument.Vacant) :
    ∃ parts : List Part,
      (Lexeme.number position
          (Lexeme.list .escapePrefixed (.outside .boundary) (gapBehind distance))).flatMap
        (draftToken writer ((Arguments.positional items).map (Argument.draftSlot writer))) =
          parts.map .ok ∧
      (Piece.list .escapePrefixed (.outside .boundary)
          (parts.flatMap Part.text)).count .parameter =
        (parts.flatMap Part.values).length + 1 := by
  let slots := (Arguments.positional items).map (Argument.draftSlot writer)
  induction distance generalizing position with
  | zero =>
      refine ⟨(['E'] ++ gapStrings).map .plain, ?_, ?_⟩
      · have gap : draftMarker writer slots ⟨.value, .index position⟩ = [] := by
          rw [draftMarker_value (show (Arguments.positional items).find? (.index position) = _
            from found), vacant.draft_eq_nil]
        rw [Lexeme.list_letter_value]
        exact draft_letter_gap rfl gap
      · rw [count_letter_strings (.inl rfl), Part.flatMap_values_plain]
        rfl
  | succ distance ih =>
      have below : position < items.length := by
        obtain ⟨inItems, -⟩ := List.getElem?_eq_some_iff.1 found
        omega
      have here : (Arguments.positional items).find? (.index position) = some items[position] :=
        List.getElem?_eq_getElem below
      have isFlat := flat _ (List.getElem_mem below)
      obtain ⟨parts, drafted⟩ := isFlat.exists_parts writer
      have behind : items[position + 1 + distance]? = some argument := by
        rw [← found]
        congr 1
        omega
      obtain ⟨later, draftedLater, count⟩ := ih behind
      refine ⟨parts ++ .plain ' ' :: later, ?_, ?_⟩
      · rw [Lexeme.list_gapBehind_succ, flatMap_draftToken_number_cons,
          flatMap_draftToken_number_cons, List.map_append, List.map_cons, ← drafted,
          ← draftedLater, ← draftMarker_value here]
        rfl
      · rw [count_value_blank isFlat drafted, count]
        simp [Part.values, Nat.add_assoc]

theorem exists_parts_gapName {entries : List (Text × Argument)} {word : Text}
    (name : word.IsName) {argument : Argument}
    (found : (Arguments.named entries).find? (.name word) = some argument)
    (vacant : argument.Vacant) :
    ∃ parts : List Part,
      draftText Engine.postgreSQL.writer ('E' :: ':' :: (word ++ gapStrings))
          ((Arguments.named entries).map (Argument.draftSlot Engine.postgreSQL.writer)) =
        parts.map .ok ∧
      (Piece.list .escapePrefixed (.outside .boundary)
          (parts.flatMap Part.text)).count .parameter =
        (parts.flatMap Part.values).length + 1 := by
  refine ⟨(['E'] ++ gapStrings).map .plain, ?_, ?_⟩
  · have gap : draftMarker Engine.postgreSQL.writer
        ((Arguments.named entries).map (Argument.draftSlot Engine.postgreSQL.writer))
        ⟨.value, .name word⟩ = [] := by
      rw [draftMarker_value found, vacant.draft_eq_nil]
    change (Lexeme.number 0 (Lexeme.list .escapePrefixed (.outside .boundary) _)).flatMap _ = _
    rw [Lexeme.list_letter_name name]
    exact draft_letter_gap rfl gap
  · rw [count_letter_strings (.inl rfl), Part.flatMap_values_plain]
    rfl

theorem exists_parts_noArguments :
    ∃ parts : List Part,
      draftText Engine.postgreSQL.writer (':' :: (['e'] ++ gapStrings))
          (Arguments.none.map (Argument.draftSlot Engine.postgreSQL.writer)) =
        parts.map .ok ∧
      (Piece.list .escapePrefixed (.outside .boundary)
          (parts.flatMap Part.text)).count .parameter =
        (parts.flatMap Part.values).length + 1 := by
  refine ⟨([':', 'e'] ++ gapStrings).map .plain, ?_, ?_⟩
  · have read : Lexeme.list .escapePrefixed (.outside .boundary) (':' :: (['e'] ++ gapStrings)) =
        .named .value ['e'] :: gapStrings.map fun c => .plain [c] := by
      decide +kernel
    change (Lexeme.number 0 (Lexeme.list .escapePrefixed (.outside .boundary) _)).flatMap _ = _
    rw [read, flatMap_draftToken_number_cons, flatMap_draftToken_plain]
    rfl
  · rw [count_letter_strings (.inr rfl), Part.flatMap_values_plain]
    rfl

/-- Every gap is noticed by some template. -/
theorem exists_text_of_gap {arguments : Arguments Argument}
    (flat : ∀ argument ∈ arguments.held, argument.Flat) (gap : ¬ arguments.LeavesNoGap) :
    ∃ (text : Text) (parts : List Part),
      draftText Engine.postgreSQL.writer text
          (arguments.map (Argument.draftSlot Engine.postgreSQL.writer)) = parts.map .ok ∧
      (Piece.list .escapePrefixed (.outside .boundary)
          (parts.flatMap Part.text)).count .parameter =
        (parts.flatMap Part.values).length + 1 := by
  by_cases present : arguments = .none
  · subst present
    exact ⟨_, exists_parts_noArguments⟩
  · obtain ⟨key, argument, proper, found, vacant⟩ : ∃ key argument, key.Proper ∧
        arguments.find? key = some argument ∧ argument.Vacant := by
      by_contra none
      exact gap ⟨present, fun key argument proper found vacant =>
        none ⟨key, argument, proper, found, vacant⟩⟩
    cases arguments with
    | positional items =>
        cases key with
        | index position =>
            have atPosition : items[0 + position]? = some argument := by
              rw [Nat.zero_add]
              exact found
            exact ⟨_, exists_parts_gapBehind flat atPosition vacant⟩
        | name word => simp [Arguments.find?] at found
    | named entries =>
        cases key with
        | index position => simp [Arguments.find?] at found
        | name word => exact ⟨_, exists_parts_gapName proper found vacant⟩

/--
Without fragments, the parameters that are found under the rule for prefixed
strings are as many as the values in every template with given arguments,
exactly when these arguments leave no gap; and in a single template they are as
many whenever the readers are in step behind its markers.
-/
theorem complete_iff_leavesNoGap {arguments : Arguments Argument}
    (flat : ∀ argument ∈ arguments.held, argument.Flat) :
    ((∀ (t : Template) (s : Statement), t.arguments = arguments →
        t.compileWith Engine.postgreSQL.writer = .ok s →
        s.parameterCount = s.values.length) ↔ arguments.LeavesNoGap) ∧
      ∀ (t : Template) (s : Statement), t.arguments = arguments →
        t.compileWith Engine.postgreSQL.writer = .ok s →
        t.InStep Engine.postgreSQL.writer → s.parameterCount = s.values.length := by
  refine ⟨⟨?_, ?_⟩, ?_⟩
  · intro complete
    by_contra gap
    obtain ⟨text, parts, drafted, count⟩ := exists_text_of_gap flat gap
    let t : Template := { text, arguments, engine := .postgreSQL }
    have parsed : (t.draft Engine.postgreSQL.writer).parts = .ok parts := by
      rw [Draft.parts_eq_ok_iff, draft_eq, ← drafted]
    have equal := complete t _ rfl (compileWith_eq_ok_iff.2 ⟨parts, parsed, rfl⟩)
    have extra : (parts.flatMap Part.values).length = (parts.flatMap Part.values).length + 1 :=
      equal.symm.trans count
    omega
  · rintro noGap t s rfl compiled
    exact complete_of_inStep flat (inStep_of_leavesNoGap flat noGap .postgreSQL) compiled
  · rintro t s rfl compiled inStep
    exact complete_of_inStep flat inStep compiled

/-- A prefixed string with an escaped mark does not disturb the markers around it. -/
theorem complete_prefixedString :
    let t : Template :=
      { text := "select E'\\'?', ? in (?)".toList
        arguments := .positional [.scalar .null, .list [.scalar (.signed 1), .scalar (.signed 2)]]
        engine := .postgreSQL }
    ∃ s, t.compileWith Engine.postgreSQL.writer = .ok s ∧
      s.parameterCount = s.values.length := by
  intro t
  have flat : ∀ argument ∈ t.arguments.held, argument.Flat := by
    refine List.forall_mem_cons.2 ⟨.scalar _, List.forall_mem_singleton.2 (.list ?_)⟩
    exact List.forall_mem_cons.2 ⟨.scalar _, List.forall_mem_singleton.2 (.scalar _)⟩
  have noGap : t.arguments.LeavesNoGap := by
    refine Arguments.leavesNoGap_of_held (by simp [t, Arguments.none]) ?_
    exact List.forall_mem_cons.2 ⟨nofun, List.forall_mem_singleton.2 nofun⟩
  have text : (t.compileWith Engine.postgreSQL.writer).map Statement.text =
      .ok "select E'\\'?', ? in (?, ?)".toList := by
    decide +kernel
  obtain ⟨s, compiled, -⟩ := exists_of_map_compileWith text
  exact ⟨s, compiled, (complete_iff_leavesNoGap flat).1.2 noGap t s rfl compiled⟩

/-- Without any values a parameter is found behind a name that is text. -/
theorem parameter_found_without_values :
    ∃ s, Template.compileWith { text := ":e'\\' ' ?'".toList, engine := .postgreSQL }
        Engine.postgreSQL.writer = .ok s ∧
      s.parameterCount = 1 ∧ s.values.length = 0 := by
  let t : Template := { text := ":e'\\' ' ?'".toList, engine := .postgreSQL }
  have counts : (t.compileWith Engine.postgreSQL.writer).map
      (fun s => (s.parameterCount, s.values.length)) = .ok (1, 0) := by
    decide +kernel
  obtain ⟨s, compiled, same⟩ := exists_of_map_compileWith counts
  obtain ⟨found, given⟩ := Prod.mk.inj same
  exact ⟨s, compiled, found, given⟩

end Template

end SqlTemplate
