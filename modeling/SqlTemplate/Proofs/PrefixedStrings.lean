import Mathlib.Data.List.Basic
import SqlTemplate.Proofs.ClosedArguments
import SqlTemplate.Proofs.StringPlaces

/-!
# Strings with a prefix

Where a backslash hides a character in prefixed strings only, the prefix must
stand alone: behind a word its letter belongs to the word, and inside quotes it
is a character of a string.  A string that is written at such a place can close
the quotes around it, and then the rest of it is SQL.  So what stands outside
quotes does not depend on the contents of strings exactly when every string
begins outside quotes and behind no word.
-/

namespace SqlTemplate

def Arguments.ofScalars (values : List Scalar) : Arguments Argument :=
  .positional (values.map .scalar)

theorem Arguments.find?_ofScalars {values : List Scalar} {position : Nat} {value : Scalar}
    (given : values[position]? = some value) :
    (ofScalars values).find? (.index position) = some (.scalar value) := by
  simp [ofScalars, find?, given]

theorem exists_of_flatMap_eq_append {α β : Type} {f : α → List β} {items : List α}
    {front back : List β} {item : β} (split : items.flatMap f = front ++ item :: back) :
    ∃ before piece behind first second, items = before ++ piece :: behind ∧
      f piece = first ++ item :: second ∧ front = before.flatMap f ++ first ∧
      back = second ++ behind.flatMap f := by
  induction items generalizing front with
  | nil => simp at split
  | cons piece rest ih =>
      rw [List.flatMap_cons] at split
      have later {front : List β} (split : rest.flatMap f = front ++ item :: back) :
          ∃ before other behind first second, piece :: rest = before ++ other :: behind ∧
            f other = first ++ item :: second ∧
            f piece ++ front = before.flatMap f ++ first ∧
            back = second ++ behind.flatMap f := by
        obtain ⟨before, other, behind, first, second, rfl, here, rfl, rfl⟩ := ih split
        exact ⟨piece :: before, other, behind, first, second, rfl, here, by simp, rfl⟩
      rcases List.append_eq_append_iff.1 split with ⟨middle, rfl, tail⟩ | ⟨middle, here, tail⟩
      · exact later tail
      · cases middle with
        | nil =>
            obtain rfl : f piece = front := by simpa using here
            have atHead : rest.flatMap f = [] ++ item :: back := tail.symm
            simpa using later atHead
        | cons head others =>
            obtain ⟨rfl, rfl⟩ := List.cons.inj tail
            exact ⟨[], piece, rest, front, others, rfl, here, rfl, rfl⟩

namespace Template

variable {writer : Writer} {values : List Scalar} {position : Nat}

def scalarSlots (writer : Writer) (values : List Scalar) : Arguments (Slot Draft) :=
  (Arguments.ofScalars values).map (Argument.draftSlot writer)

theorem find?_scalarSlots (writer : Writer) (values : List Scalar) (position : Nat) :
    (scalarSlots writer values).find? (.index position) =
      values[position]?.map fun value => Argument.draftSlot writer (.scalar value) := by
  simp [scalarSlots, Arguments.ofScalars, Arguments.map, Arguments.find?]
  rfl

theorem draftToken_set {token : Token} (elsewhere : token.position? ≠ some position)
    (changed : Scalar) :
    draftToken writer (scalarSlots writer (values.set position changed)) token =
      draftToken writer (scalarSlots writer values) token := by
  cases token with
  | literal text => rfl
  | escaped sign => cases sign <;> rfl
  | marker place =>
      obtain ⟨role, key⟩ := place
      change draftMarker writer _ ⟨role, key⟩ = draftMarker writer _ ⟨role, key⟩
      have found : (scalarSlots writer (values.set position changed)).find? key =
          (scalarSlots writer values).find? key := by
        cases key with
        | name word => rfl
        | index other =>
            have different : position ≠ other := by
              rintro rfl
              exact elsewhere rfl
            rw [find?_scalarSlots, find?_scalarSlots, List.getElem?_set_ne different]
      have isPlain : Slot.isPlain (scalarSlots writer (values.set position changed)) key =
          Slot.isPlain (scalarSlots writer values) key := by
        cases key with
        | index other => rfl
        | name word => cases values <;> cases position <;> rfl
      have read : Slot.ofMarker (scalarSlots writer (values.set position changed)) ⟨role, key⟩ =
          Slot.ofMarker (scalarSlots writer values) ⟨role, key⟩ := by
        unfold Slot.ofMarker
        rw [found]
        rfl
      rw [draftMarker, draftMarker, isPlain, read]

theorem flatMap_draftToken_set {tokens : List Token}
    (elsewhere : ∀ token ∈ tokens, token.position? ≠ some position) (changed : Scalar) :
    tokens.flatMap (draftToken writer (scalarSlots writer (values.set position changed))) =
      tokens.flatMap (draftToken writer (scalarSlots writer values)) :=
  List.flatMap_congr fun token member => draftToken_set (elsewhere token member) changed

/--
A string in the draft of scalars is the whole draft of one marker, and nothing
else is drafted from its position.
-/
theorem exists_set_of_string {rule : StringRule} {text : Text} {front back : Draft} {value : Text}
    (split : (Token.lex rule text).flatMap (draftToken writer (scalarSlots writer values)) =
      front ++ .ok (.value (.string value)) :: back) :
    ∃ position, values[position]? = some (.string value) ∧
      (∀ key, .marker ⟨.identifier, key⟩ ∈ Token.lex rule text → key ≠ .index position) ∧
      ∀ other, (Token.lex rule text).flatMap
          (draftToken writer (scalarSlots writer (values.set position (.string other)))) =
        front ++ .ok (.value (.string other)) :: back := by
  obtain ⟨before, token, behind, first, second, tokens, drafted, rfl, rfl⟩ :=
    exists_of_flatMap_eq_append split
  have member : .ok (.value (.string value)) ∈
      draftToken writer (scalarSlots writer values) token := by
    rw [drafted]
    exact List.mem_append_right first List.mem_cons_self
  obtain ⟨key, slot, rfl, found, whole⟩ := exists_slot_of_given_mem (.value _) member
  cases key with
  | name word => cases found
  | index position =>
      rw [find?_scalarSlots] at found
      obtain ⟨scalar, given, rfl⟩ := Option.map_eq_some_iff.1 found
      have alone : first = [] ∧ second = [] ∧ scalar = .string value := by
        rw [whole] at drafted
        cases first with
        | nil =>
            obtain ⟨same, nothing⟩ := List.cons.inj drafted
            exact ⟨rfl, nothing.symm, Part.value.inj (Except.ok.inj same)⟩
        | cons head rest => simp [Argument.draftSlot, Argument.draft] at drafted
      obtain ⟨rfl, rfl, rfl⟩ := alone
      have elsewhere : ∀ token ∈ before ++ behind, token.position? ≠ some position :=
        fun token among => Token.position?_ne_of_lex tokens rfl among
      obtain ⟨inFront, inBack⟩ := List.forall_mem_append.1 elsewhere
      refine ⟨position, given, fun key asked same => ?_, fun other => ?_⟩
      · subst same
        rw [tokens] at asked
        rcases List.mem_append.1 asked with early | late
        · exact inFront _ early rfl
        · rcases List.mem_cons.1 late with here | later
          · cases here
          · exact inBack _ later rfl
      · have below := (List.getElem?_eq_some_iff.1 given).1
        have found : (Arguments.ofScalars (values.set position (.string other))).find?
            (.index position) = some (.scalar (.string other)) := by
          simp [Arguments.ofScalars, Arguments.find?, below]
        have here : draftToken writer (scalarSlots writer (values.set position (.string other)))
            (.marker ⟨.value, .index position⟩) = [.ok (.value (.string other))] :=
          draftMarker_value found
        rw [tokens, List.flatMap_append, List.flatMap_cons, here,
          flatMap_draftToken_set inFront, flatMap_draftToken_set inBack]
        simp

end Template

theorem Argument.Variant.set {rule : StringRule} {text value : Text} {values : List Scalar}
    {position : Nat} (given : values[position]? = some (.string value))
    (elsewhere : ∀ key, .marker ⟨.identifier, key⟩ ∈ Token.lex rule text → key ≠ .index position)
    (other : Text) :
    Variant rule (.template text (.ofScalars values))
      (.template text (.ofScalars (values.set position (.string other)))) := by
  let changed := values.set position (.string other)
  let both (pair : Scalar × Scalar) : Argument × Argument := (.scalar pair.1, .scalar pair.2)
  let pairs := (values.zip changed).map both
  have firsts : pairs.map Prod.fst = values.map .scalar := by
    have zipped : (values.zip changed).map Prod.fst = values :=
      List.map_fst_zip (by simp [changed])
    rw [← congrArg (List.map Argument.scalar) zipped, List.map_map, List.map_map]
    rfl
  have seconds : pairs.map Prod.snd = changed.map .scalar := by
    have zipped : (values.zip changed).map Prod.snd = changed :=
      List.map_snd_zip (by simp [changed])
    rw [← congrArg (List.map Argument.scalar) zipped, List.map_map, List.map_map]
    rfl
  have found : ∀ i pair, pairs[i]? = some pair →
      i = position ∧ pair = both (.string value, .string other) ∨
        i ≠ position ∧ ∃ scalar, pair = both (scalar, scalar) := by
    intro i pair here
    rw [List.getElem?_map] at here
    obtain ⟨⟨first, second⟩, inZip, rfl⟩ := Option.map_eq_some_iff.1 here
    obtain ⟨inFirst, inSecond⟩ := List.getElem?_zip_eq_some.1 inZip
    by_cases same : i = position
    · subst same
      have below := (List.getElem?_eq_some_iff.1 given).1
      obtain rfl := Option.some.inj (given.symm.trans inFirst)
      rw [List.getElem?_set_self below] at inSecond
      obtain rfl := Option.some.inj inSecond
      exact .inl ⟨rfl, rfl⟩
    · rw [List.getElem?_set_ne (Ne.symm same)] at inSecond
      have equal : first = second := Option.some.inj (inFirst.symm.trans inSecond)
      subst equal
      exact .inr ⟨same, first, rfl⟩
  have all : ∀ pair ∈ pairs, Variant rule pair.1 pair.2 := by
    intro pair member
    obtain ⟨i, here⟩ := List.mem_iff_getElem?.1 member
    rcases found i pair here with ⟨-, rfl⟩ | ⟨-, scalar, rfl⟩
    · exact .string value other
    · exact .scalar scalar
  rw [Arguments.ofScalars, Arguments.ofScalars, ← firsts, ← seconds]
  refine @Variant.template rule text (.positional pairs) all fun key pair asked here => ?_
  cases key with
  | name word => cases here
  | index i =>
      rcases found i pair here with ⟨rfl, -⟩ | ⟨-, scalar, rfl⟩
      · exact absurd rfl (elsewhere _ asked)
      · rfl

/-- The strings that take part in what scalars say can be exchanged one by one. -/
theorem Template.exists_variant_of_string {t : Template} {writer : Writer} {values : List Scalar}
    (scalars : t.arguments = .ofScalars values) {front back : Draft} {value : Text}
    (split : t.draft writer = front ++ .ok (.value (.string value)) :: back) (other : Text) :
    ∃ u : Template, t.toArgument.Variant writer.stringRule u.toArgument ∧
      u.draft writer = front ++ .ok (.value (.string other)) :: back := by
  rw [draft_eq, scalars] at split
  obtain ⟨position, given, elsewhere, changed⟩ := exists_set_of_string split
  refine ⟨{ t with arguments := .ofScalars (values.set position (.string other)) }, ?_, ?_⟩
  · rw [toArgument, scalars]
    exact .set given elsewhere other
  · rw [draft_eq]
    exact changed other

namespace QuoteState

theorem length_unquoted_le (rule : StringRule) (state : QuoteState) (text : Text) :
    (state.unquoted rule text).length ≤ text.length := by
  induction text generalizing state with
  | nil => exact Nat.le_refl 0
  | cons c rest ih =>
      by_cases covers : state.covers c = true
      · rw [unquoted_cons_of_covers covers]
        exact Nat.le_succ_of_le (ih _)
      · rw [unquoted_cons_plain (Bool.eq_false_iff.2 covers)]
        exact Nat.succ_le_succ (ih _)

/-- The states of a reader, which lets a backslash hide a character in strings only. -/
def Proper : QuoteState → Prop
  | .outside _ => True
  | .inside mark hides => hides = true → mark = .single
  | .hidden mark => mark = .single

theorem proper_start : start.Proper := trivial

theorem Proper.next {rule : StringRule} {state : QuoteState} (proper : state.Proper) (c : Char) :
    (state.next rule c).Proper := by
  cases state with
  | outside before =>
      simp only [QuoteState.next]
      cases QuoteMark.ofChar? c with
      | none => trivial
      | some mark =>
          intro hides
          cases mark with
          | single => rfl
          | double | back => cases hides
  | inside mark hides =>
      simp only [QuoteState.next]
      split
      · next escaped =>
          rw [Bool.and_eq_true] at escaped
          exact proper escaped.1
      · split
        · trivial
        · exact proper
  | hidden mark => exact fun _ => proper

theorem Proper.run {rule : StringRule} {state : QuoteState} (proper : state.Proper)
    (text : Text) : (state.run rule text).Proper := by
  induction text generalizing state with
  | nil => exact proper
  | cons c rest ih => exact ih (proper.next c)

end QuoteState

/-- A draft with misplaced strings can be written up to the first of them. -/
theorem Draft.exists_of_not_stringsAt {writer : Writer} {place : QuoteState → Prop}
    {state : QuoteState} {draft : Draft} (misplaced : ¬ draft.StringsAt writer place state) :
    ∃ (front : Draft) (value : Text) (back : Draft) (rendered : Rendered),
      draft = front ++ .ok (.value (.string value)) :: back ∧
        front.render writer .inline = .ok rendered ∧
        ¬ place (state.run writer.stringRule rendered.text) := by
  induction draft generalizing state with
  | nil => exact absurd trivial misplaced
  | cons first rest ih =>
      by_cases here : ∀ value, first = .ok (.value (.string value)) → place state
      · have later : ∃ rendered, renderPlace writer .inline first = .ok rendered ∧
            ¬ StringsAt writer place (state.run writer.stringRule rendered.text) rest := by
          by_contra none
          push Not at none
          exact misplaced ⟨here, none⟩
        obtain ⟨rendered, written, misplacedLater⟩ := later
        obtain ⟨front, value, back, behind, rfl, follows, elsewhere⟩ := ih misplacedLater
        refine ⟨first :: front, value, back, rendered ++ behind, rfl, ?_, ?_⟩
        · exact render_cons_eq_ok_iff.2 ⟨rendered, behind, written, follows, rfl⟩
        · rwa [Rendered.text_append, QuoteState.run_append]
      · push Not at here
        obtain ⟨value, rfl, elsewhere⟩ := here
        exact ⟨[], value, rest, .empty, rfl, rfl, elsewhere⟩

namespace Engine

theorem exists_mark_of_joined {state : QuoteState} (proper : state.Proper)
    (joined : state ≠ .outside .boundary) :
    state.run .escapePrefixed ['E', '\''] = .outside .boundary ∨
      ∃ mark, state.run .escapePrefixed ['E', '\''] = .inside mark false := by
  cases state with
  | outside before =>
      cases before with
      | boundary => exact absurd rfl joined
      | word => exact .inr ⟨.single, rfl⟩
      | escapeLetter => exact .inr ⟨.single, rfl⟩
  | inside mark hides =>
      cases mark with
      | single => cases hides <;> exact .inl rfl
      | double =>
          cases hides with
          | false => exact .inr ⟨.double, rfl⟩
          | true => exact absurd (proper rfl) (by decide)
      | back =>
          cases hides with
          | false => exact .inr ⟨.back, rfl⟩
          | true => exact absurd (proper rfl) (by decide)
  | hidden mark =>
      obtain rfl : mark = .single := proper
      exact .inl rfl

theorem run_encode_char (mark : QuoteMark) :
    QuoteState.run .escapePrefixed (.inside mark false)
      (Quoted.encode .escapePrefixed [mark.char]) = .outside .boundary := by
  cases mark <;> rfl

theorem unquoted_encode_semicolons (count : Nat) :
    QuoteState.unquoted .escapePrefixed (.outside .boundary)
      (Quoted.encode .escapePrefixed (List.replicate count ';')) = List.replicate count ';' := by
  induction count with
  | zero => rfl
  | succ count ih =>
      rw [List.replicate_succ]
      exact congrArg (';' :: ·) ih

theorem le_length_unquoted_string {state : QuoteState} {value front : Text} {count : Nat}
    (split : Quoted.encode .escapePrefixed value =
      front ++ Quoted.encode .escapePrefixed (List.replicate count ';'))
    (reached : state.run .escapePrefixed (['E', '\''] ++ front) = .outside .boundary) :
    count ≤ (state.unquoted .escapePrefixed (postgreSQL.string value)).length := by
  have whole : postgreSQL.string value = (['E', '\''] ++ front) ++
      (Quoted.encode .escapePrefixed (List.replicate count ';') ++ ['\'']) := by
    simp [string, stringLead, stringRule, split]
  have shown := unquoted_encode_semicolons count
  rw [whole, QuoteState.unquoted_append, reached,
    QuoteState.unquoted_append (Quoted.encode _ _), shown]
  simp only [List.length_append, List.length_replicate]
  omega

/-- Where the lead of a string does not stand alone, strings show as much as one likes. -/
theorem exists_string_unquoted {state : QuoteState} (proper : state.Proper)
    (joined : state ≠ .outside .boundary) (count : Nat) :
    ∃ value, count ≤ (state.unquoted .escapePrefixed (postgreSQL.string value)).length := by
  rcases exists_mark_of_joined proper joined with opened | ⟨mark, opened⟩
  · refine ⟨List.replicate count ';', le_length_unquoted_string (List.nil_append _).symm ?_⟩
    rwa [List.append_nil]
  · have split : Quoted.encode .escapePrefixed (mark.char :: List.replicate count ';') =
        Quoted.encode .escapePrefixed [mark.char] ++
          Quoted.encode .escapePrefixed (List.replicate count ';') := by
      simp [Quoted.encode]
    refine ⟨_, le_length_unquoted_string split ?_⟩
    rw [QuoteState.run_append, opened, run_encode_char]

end Engine

namespace Template

/-- Every string is written outside quotes and behind no word. -/
def StringsStandAlone (t : Template) (writer : Writer) : Prop :=
  (t.draft writer).StringsAt writer (· = .outside .boundary) .start

instance (t : Template) (writer : Writer) : Decidable (t.StringsStandAlone writer) :=
  Draft.StringsAt.decidable writer (· = .outside .boundary) .start (t.draft writer)

/-- A string that does not stand alone has a variant that shows more outside quotes. -/
theorem exists_variant_of_not_standAlone {t : Template} {values : List Scalar} {out : Text}
    (scalars : t.arguments = .ofScalars values)
    (written : t.inlineWith Engine.postgreSQL.writer = .ok out)
    (joined : ¬ t.StringsStandAlone Engine.postgreSQL.writer) :
    ∃ (u : Template) (other : Text),
      t.toArgument.Variant .escapePrefixed u.toArgument ∧
        u.inlineWith Engine.postgreSQL.writer = .ok other ∧
        out.length < (QuoteState.unquoted .escapePrefixed .start other).length := by
  obtain ⟨front, value, back, rendered, split, writtenFront, misplaced⟩ :=
    Draft.exists_of_not_stringsAt joined
  have proper : (QuoteState.run .escapePrefixed .start rendered.text).Proper :=
    QuoteState.proper_start.run rendered.text
  obtain ⟨poison, long⟩ := Engine.exists_string_unquoted proper misplaced (out.length + 1)
  obtain ⟨u, variant, drafted⟩ := exists_variant_of_string scalars split poison
  have follows : ∃ later, Draft.render Engine.postgreSQL.writer .inline back = .ok later := by
    rw [inlineWith_eq_map_render] at written
    cases whole : (t.draft Engine.postgreSQL.writer).render Engine.postgreSQL.writer .inline with
    | error failure => simp [whole, Except.map] at written
    | ok text =>
        rw [split] at whole
        obtain ⟨-, behind, -, atEnd, -⟩ := Draft.render_append_eq_ok_iff.1 whole
        obtain ⟨-, later, -, last, -⟩ := Draft.render_cons_eq_ok_iff.1 atEnd
        exact ⟨later, last⟩
  obtain ⟨later, writtenBack⟩ := follows
  have writtenOther : u.inlineWith Engine.postgreSQL.writer =
      .ok (rendered.text ++ (Engine.postgreSQL.string poison ++ later.text)) := by
    have whole : (u.draft Engine.postgreSQL.writer).render Engine.postgreSQL.writer .inline =
        .ok (rendered ++ (.plain (Engine.postgreSQL.string poison) ++ later)) := by
      rw [drafted]
      exact Draft.render_append_eq_ok_iff.2 ⟨rendered, _, writtenFront,
        Draft.render_cons_eq_ok_iff.2 ⟨_, later, rfl, writtenBack, rfl⟩, rfl⟩
    rw [inlineWith_eq_map_render, whole]
    rfl
  refine ⟨u, _, variant, writtenOther, ?_⟩
  rw [QuoteState.unquoted_append, QuoteState.unquoted_append]
  simp only [List.length_append]
  omega

/--
Where strings are prefixed, what stands outside quotes does not depend on the
contents of strings exactly when every string stands alone.
-/
theorem stringsStandAlone_iff {t : Template} {values : List Scalar} {out : Text}
    (scalars : t.arguments = .ofScalars values)
    (written : t.inlineWith Engine.postgreSQL.writer = .ok out) :
    t.StringsStandAlone Engine.postgreSQL.writer ↔
      ∀ (u : Template) (other : Text),
        t.toArgument.Variant Engine.postgreSQL.stringRule u.toArgument →
        u.inlineWith Engine.postgreSQL.writer = .ok other →
        QuoteState.unquoted Engine.postgreSQL.stringRule .start other =
          QuoteState.unquoted Engine.postgreSQL.stringRule .start out := by
  constructor
  · intro alone u other variant writtenOther
    have same := variant.unquoted_eq (fun state here => ⟨.boundary, here, fun _ => rfl⟩) alone
    rw [written, writtenOther] at same
    exact (Except.ok.inj same).symm
  · intro agree
    by_contra joined
    obtain ⟨u, other, variant, writtenOther, longer⟩ :=
      exists_variant_of_not_standAlone scalars written joined
    have fewer := QuoteState.length_unquoted_le .escapePrefixed .start out
    have equal := congrArg List.length (agree u other variant writtenOther)
    change (QuoteState.unquoted .escapePrefixed .start other).length = _ at equal
    change _ = (QuoteState.unquoted .escapePrefixed .start out).length at equal
    omega

/-- A pattern behind a word, with nothing in between. -/
def like (pattern : Text) : Template where
  text := "name like?".toList
  arguments := .ofScalars [.string pattern]
  engine := .postgreSQL

theorem lex_like (pattern : Text) :
    Token.lex Engine.postgreSQL.stringRule (like pattern).text =
      [.literal "name like".toList, .marker ⟨.value, .index 0⟩] := by
  change Token.lex Engine.postgreSQL.stringRule "name like?".toList = _
  decide +kernel

theorem like_variant (first second : Text) :
    (like first).toArgument.Variant Engine.postgreSQL.stringRule (like second).toArgument := by
  refine .set (rfl : [Scalar.string first][0]? = some (.string first)) (fun key asked => ?_) second
  rw [lex_like] at asked
  simp at asked

theorem like_empty :
    (like []).inlineWith Engine.postgreSQL.writer = .ok "name likeE''".toList := by
  decide +kernel

theorem like_quote :
    (like "' or 1=1 -- ".toList).inlineWith Engine.postgreSQL.writer =
      .ok "name likeE'\\' or 1=1 -- '".toList := by
  decide +kernel

/-- A quote in a pattern ends the string, and what follows it is SQL. -/
theorem unquoted_like_ne :
    (like []).toArgument.Variant Engine.postgreSQL.stringRule
        (like "' or 1=1 -- ".toList).toArgument ∧
      (like []).inlineWith Engine.postgreSQL.writer = .ok "name likeE''".toList ∧
      (like "' or 1=1 -- ".toList).inlineWith Engine.postgreSQL.writer =
        .ok "name likeE'\\' or 1=1 -- '".toList ∧
      QuoteState.unquoted Engine.postgreSQL.stringRule .start
          "name likeE'\\' or 1=1 -- '".toList ≠
        QuoteState.unquoted Engine.postgreSQL.stringRule .start "name likeE''".toList := by
  refine ⟨like_variant _ _, like_empty, like_quote, ?_⟩
  decide

/-- The pattern does not stand alone. -/
theorem like_joined : ¬ (like []).StringsStandAlone Engine.postgreSQL.writer := by
  rw [stringsStandAlone_iff rfl like_empty]
  intro agree
  have same := agree _ _ (like_variant _ _) like_quote
  exact absurd same (by decide)

end Template

end SqlTemplate
