import SqlTemplate.Proofs.IdentifierText
import SqlTemplate.Proofs.Rereading

/-!
# What takes the place of a marker

A marker is replaced in one of three ways: by its own spelling, when its colon
is plain text; by what its argument says; or by the paths that its argument
names.  Only the second can contain parameters, and neither of the others ends
in a backslash.
-/

namespace SqlTemplate

namespace Draft

theorem singleton_error_ne_ok {failure : CompileError} {parts : List Part} :
    ([.error failure] : Draft) ≠ parts.map .ok := fun same =>
  error_notMem_ok (same ▸ List.mem_singleton_self (Except.error failure))

theorem commaSeparated_cons_cons (first second : Draft) (rest : List Draft) :
    commaSeparated (first :: second :: rest) =
      first ++ ofText [',', ' '] ++ commaSeparated (second :: rest) := by
  simp [commaSeparated, List.append_assoc]

theorem commaSeparated_eq_map_ok {drafts : List Draft} {parts : List Part}
    (drafted : commaSeparated drafts = parts.map .ok) :
    ∃ groups : List (List Part), drafts = groups.map (List.map .ok) ∧
      parts = (groups.intersperse ([',', ' '].map .plain)).flatten := by
  induction drafts generalizing parts with
  | nil =>
      refine ⟨[], rfl, ?_⟩
      simpa [commaSeparated, eq_comm] using drafted
  | cons first rest ih =>
      cases rest with
      | nil =>
          refine ⟨[parts], ?_, by simp⟩
          simpa [commaSeparated] using drafted
      | cons second others =>
          rw [commaSeparated_cons_cons] at drafted
          obtain ⟨front, back, rfl, atFront, atBack⟩ := List.append_eq_map_iff.1 drafted
          obtain ⟨group, comma, rfl, rfl, between⟩ := List.append_eq_map_iff.1 atFront.symm
          obtain rfl := ofText_eq_map_ok between.symm
          obtain ⟨groups, same, rfl⟩ := ih atBack.symm
          cases groups with
          | nil => simp at same
          | cons next later =>
              refine ⟨group :: next :: later, by rw [List.map_cons, same], ?_⟩
              simp [List.append_assoc]

theorem commaSeparated_map_ofText (texts : List Text) :
    commaSeparated (texts.map ofText) = ofText ([',', ' '].intercalate texts) := by
  induction texts with
  | nil => rfl
  | cons first rest ih =>
      cases rest with
      | nil => simp [commaSeparated, List.intercalate]
      | cons second others =>
          rw [List.map_cons, List.map_cons, commaSeparated_cons_cons, ← List.map_cons, ih,
            ← ofText_append, ← ofText_append]
          simp [List.intercalate, List.append_assoc]

/-- A property of errors, and of all drafts that are put together from drafts with the property. -/
structure Compositional (P : Draft → Prop) : Prop where
  nil : P []
  error : ∀ failure, P [.error failure]
  comma : P (ofText [',', ' '])
  append : ∀ {first second}, P first → P second → P (first ++ second)

theorem Compositional.commaSeparated {P : Draft → Prop} (compositional : Compositional P)
    {drafts : List Draft} (all : ∀ draft ∈ drafts, P draft) : P (commaSeparated drafts) := by
  induction drafts with
  | nil => exact compositional.nil
  | cons first rest ih =>
      obtain ⟨front, later⟩ := List.forall_mem_cons.1 all
      cases rest with
      | nil => simpa [Draft.commaSeparated] using front
      | cons second others =>
          rw [commaSeparated_cons_cons]
          exact compositional.append (compositional.append front compositional.comma) (ih later)

end Draft

namespace Template

variable {writer : Writer}

section Compositional

variable {P : Draft → Prop} {slots : Arguments (Slot Draft)} {place : Marker}

theorem draftIdentifier_of_compositional (compositional : Draft.Compositional P)
    (paths : ∀ path, P (.ofText (writer.wrapPath path))) (key : Key) (argument : Argument) :
    P (draftIdentifier writer key argument) := by
  have path (argument : Argument) : P (draftPath writer key argument) := by
    unfold draftPath
    cases argument.path? with
    | none => exact compositional.error _
    | some path => exact paths path
  cases argument with
  | list items =>
      refine compositional.commaSeparated fun draft member => ?_
      obtain ⟨item, -, rfl⟩ := List.mem_map.1 member
      exact path item
  | scalar value => exact path (.scalar value)
  | template text arguments => exact path (.template text arguments)
  | statement compiled => exact path (.statement compiled)

/-- What holds of spellings, of paths and of the arguments holds of what takes a marker's place. -/
theorem draftMarker_of_compositional (compositional : Draft.Compositional P)
    (paths : ∀ path, P (.ofText (writer.wrapPath path)))
    (values : ∀ slot ∈ slots.held, P slot.value)
    (spelling : Slot.isPlain slots place.key = true → P (.ofText place.spelling)) :
    P (draftMarker writer slots place) := by
  unfold draftMarker
  split
  · next isPlain => exact spelling isPlain
  · split
    · exact compositional.error _
    · next slot read =>
        have held := Arguments.mem_held_of_find? (Slot.ofMarker_eq_ok_iff.1 read)
        cases place.role with
        | value => exact values slot held
        | identifier =>
            exact draftIdentifier_of_compositional compositional paths place.key slot.argument

end Compositional

/-- Parts in the place of a marker. -/
inductive Replacement (slots : Arguments (Slot Draft)) (place : Marker) : List Part → Prop where
  | spelling (isPlain : Slot.isPlain slots place.key = true) :
      Replacement slots place (place.spelling.map .plain)
  | value {slot : Slot Draft} {parts : List Part} (role : place.role = .value)
      (found : slots.find? place.key = some slot) (drafted : slot.value = parts.map .ok) :
      Replacement slots place parts
  | paths {slot : Slot Draft} {text : Text} (role : place.role = .identifier)
      (found : slots.find? place.key = some slot)
      (written : (slot.argument = .list [] ∧ text = []) ∨ Sealed text) :
      Replacement slots place (text.map .plain)

theorem draftPath_eq_map_ok {key : Key} {argument : Argument} {parts : List Part}
    (drafted : draftPath writer key argument = parts.map .ok) :
    draftPath writer key argument = .ofText (writer.wrapPath (argument.path?.getD [])) := by
  unfold draftPath at drafted ⊢
  cases path : argument.path? with
  | none =>
      rw [path] at drafted
      exact (Draft.singleton_error_ne_ok drafted).elim
  | some path => rfl

theorem draftIdentifier_eq_map_ok {key : Key} {argument : Argument} {parts : List Part}
    (whole : ∀ path, Sealed (writer.wrapPath path))
    (drafted : draftIdentifier writer key argument = parts.map .ok) :
    ∃ text, ((argument = .list [] ∧ text = []) ∨ Sealed text) ∧ parts = text.map .plain := by
  have single (other : Argument) (same : draftPath writer key other = parts.map .ok) :
      ∃ text, ((argument = .list [] ∧ text = []) ∨ Sealed text) ∧ parts = text.map .plain := by
    rw [draftPath_eq_map_ok same] at same
    exact ⟨_, .inr (whole _), Draft.ofText_eq_map_ok same⟩
  cases argument with
  | list items =>
      obtain ⟨groups, same, -⟩ := Draft.commaSeparated_eq_map_ok drafted
      have texts : items.map (draftPath writer key) =
          (items.map fun item => writer.wrapPath (item.path?.getD [])).map Draft.ofText := by
        rw [List.map_map]
        refine List.map_congr_left fun item member => ?_
        have inGroups := List.mem_map_of_mem (f := draftPath writer key) member
        rw [same] at inGroups
        obtain ⟨group, -, here⟩ := List.mem_map.1 inGroups
        exact draftPath_eq_map_ok here.symm
      rw [draftIdentifier, texts, Draft.commaSeparated_map_ofText] at drafted
      refine ⟨_, ?_, Draft.ofText_eq_map_ok drafted⟩
      cases items with
      | nil => exact .inl ⟨rfl, rfl⟩
      | cons first rest =>
          have comma : Sealed [',', ' '] := .of_bare (by decide) (by decide) (by decide)
          refine .inr (comma.intercalate (fun text member => ?_) (List.cons_ne_nil _ _))
          obtain ⟨item, -, rfl⟩ := List.mem_map.1 member
          exact whole _
  | scalar value => exact single (.scalar value) drafted
  | template text arguments => exact single (.template text arguments) drafted
  | statement compiled => exact single (.statement compiled) drafted

/-- A marker that can be replaced is replaced in one of the three ways. -/
theorem Replacement.of_drafted {slots : Arguments (Slot Draft)} {place : Marker}
    {parts : List Part} (whole : ∀ path, Sealed (writer.wrapPath path))
    (drafted : draftMarker writer slots place = parts.map .ok) :
    Replacement slots place parts := by
  unfold draftMarker at drafted
  split at drafted
  · next isPlain =>
      obtain rfl := Draft.ofText_eq_map_ok drafted
      exact .spelling isPlain
  · split at drafted
    · exact (Draft.singleton_error_ne_ok drafted).elim
    · next slot read =>
        have found := Slot.ofMarker_eq_ok_iff.1 read
        cases role : place.role with
        | value =>
            simp only [role] at drafted
            exact .value role found drafted
        | identifier =>
            simp only [role] at drafted
            obtain ⟨text, written, rfl⟩ := draftIdentifier_eq_map_ok whole drafted
            exact .paths role found written

end Template

/-- Parts that are read again as they were written, and that leave no quoted region open. -/
structure Closing (rule : StringRule) (parts : List Part) : Prop where
  reread : ∀ before, Piece.list rule (.outside before) (parts.flatMap Part.text) =
    parts.flatMap Part.pieces
  outside : ∀ before,
    (QuoteState.run rule (.outside before) (parts.flatMap Part.text)).isOutside = true

namespace Closing

variable {rule : StringRule}

theorem nil : Closing rule [] :=
  ⟨fun _ => rfl, fun _ => rfl⟩

theorem value (scalar : Scalar) : Closing rule [.value scalar] where
  reread before := Piece.list_question before []
  outside before := QuoteState.isOutside_run_of_noMark (by simp [Part.text, QuoteMark.ofChar?])

theorem of_bare {text : Text} (bare : text.Bare) : Closing rule (text.map .plain) where
  reread before := by
    rw [Part.flatMap_text_plain, Part.flatMap_pieces_plain, Piece.list_eq_map_plain bare]
  outside before := by
    rw [Part.flatMap_text_plain]
    exact QuoteState.isOutside_run_of_noMark fun c member => (bare c member).1

theorem of_sealed {text : Text} (whole : Sealed text) : Closing rule (text.map .plain) where
  reread before := by
    rw [Part.flatMap_text_plain, Part.flatMap_pieces_plain, whole.pieces]
  outside before := by
    rw [Part.flatMap_text_plain, whole.run]
    rfl

theorem append {first second : List Part} (front : Closing rule first)
    (back : Closing rule second)
    (cut : Piece.SafeCut (first.flatMap Part.text) (second.flatMap Part.text)) :
    Closing rule (first ++ second) where
  reread before := by
    obtain ⟨behind, state⟩ := QuoteState.isOutside_eq_true_iff.1 (front.outside before)
    rw [List.flatMap_append, Piece.list_append _ cut, state, front.reread, back.reread,
      List.flatMap_append]
  outside before := by
    obtain ⟨behind, state⟩ := QuoteState.isOutside_eq_true_iff.1 (front.outside before)
    rw [List.flatMap_append, QuoteState.run_append, state]
    exact back.outside behind

theorem commaSeparated {groups : List (List Part)} (all : ∀ group ∈ groups, Closing rule group) :
    Closing rule (groups.intersperse ([',', ' '].map .plain)).flatten := by
  induction groups with
  | nil => exact nil
  | cons first rest ih =>
      have front := all first List.mem_cons_self
      have back := ih fun group member => all group (List.mem_cons_of_mem first member)
      cases rest with
      | nil => simpa using front
      | cons second others =>
          have comma : Closing rule ([',', ' '].map .plain) := of_bare (by decide)
          have joined := front.append (comma.append back (by simp [Piece.SafeCut, Part.text]))
            (by simp [Piece.SafeCut, Part.text])
          simpa using joined

theorem fits (plain : rule ≠ .escapePrefixed) {style : Style} {parts : List Part} {rest : Text}
    (closing : Closing rule parts)
    (safe : (parts.flatMap Part.text).getLast? = some '\\' → style.NoMarker rest) :
    Fits rule style parts rest where
  reread := closing.reread
  inStep before := .of_alike plain (.outside rfl (closing.outside before)) rest
  safe := safe

end Closing

theorem Text.IsName.bare {word : Text} (name : word.IsName) : word.Bare := by
  intro c member
  have here := name.2 c member
  refine ⟨QuoteMark.ofChar?_eq_none_of_isNameChar here, ?_, ?_⟩
  · rintro rfl
    exact absurd here (by decide)
  · rintro rfl
    exact absurd here (by decide)

theorem Marker.bare_spelling {role : Role} {word rest : Text}
    (ends : Ends ⟨role, .name word⟩ rest) : (spelling ⟨role, .name word⟩).Bare := by
  have colon : Text.Bare [':'] := by decide
  cases ends with
  | namedIdentifier name rest =>
      exact List.forall_mem_append.2 ⟨List.forall_mem_append.2 ⟨colon, name.bare⟩, colon⟩
  | namedValue name whole cast => exact List.forall_mem_append.2 ⟨colon, name.bare⟩

namespace Template.Replacement

variable {rule : StringRule} {slots : Arguments (Slot Draft)} {place : Marker}
  {parts : List Part} {rest : Text}

theorem exists_name_of_isPlain (isPlain : Slot.isPlain slots place.key = true) :
    ∃ role word, place = ⟨role, .name word⟩ := by
  obtain ⟨role, key⟩ := place
  cases key with
  | index position => cases slots <;> simp [Slot.isPlain] at isPlain
  | name word => exact ⟨role, word, rfl⟩

theorem closing (replaces : Replacement slots place parts) (ends : place.Ends rest)
    (values : ∀ slot ∈ slots.held, ∀ parts, slot.value = parts.map .ok → Closing rule parts) :
    Closing rule parts := by
  cases replaces with
  | spelling isPlain =>
      obtain ⟨role, word, rfl⟩ := exists_name_of_isPlain isPlain
      exact .of_bare (Marker.bare_spelling ends)
  | value role found drafted =>
      exact values _ (Arguments.mem_held_of_find? found) parts drafted
  | paths role found written =>
      rcases written with ⟨-, rfl⟩ | whole
      · exact .nil
      · exact .of_sealed whole

/-- Behind a backslash at the end of what was put in, no marker follows. -/
theorem safe (replaces : Replacement slots place parts) (ends : place.Ends rest)
    (slash : (parts.flatMap Part.text).getLast? = some '\\') : slots.style.NoMarker rest := by
  cases replaces with
  | spelling isPlain =>
      obtain ⟨role, word, rfl⟩ := exists_name_of_isPlain isPlain
      rw [Part.flatMap_text_plain] at slash
      exact absurd rfl (Marker.bare_spelling ends _ (List.mem_of_getLast? slash)).2.2
  | value role found drafted =>
      rw [← Slot.style_eq_of_find? found]
      cases ends with
      | value position single => exact single
      | namedValue name whole cast => exact cast
      | identifier | namedIdentifier => simp at role
  | paths role found written =>
      rw [Part.flatMap_text_plain] at slash
      rcases written with ⟨-, rfl⟩ | whole
      · simp at slash
      · exact absurd slash whole.last

end Template.Replacement

end SqlTemplate
