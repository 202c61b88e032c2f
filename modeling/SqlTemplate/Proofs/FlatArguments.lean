import SqlTemplate.Proofs.ClosedArguments
import SqlTemplate.Proofs.Words

/-!
# Scalars, lists, and gaps

The rule for prefixed strings looks at the word in front of a string.  The
reader of a template counts a marker as the end of that word, but the reader of
the compiled text sees what was put in, and this can be nothing at all: a list
without items leaves a gap, which joins the text on both of its sides.  Without
arguments a name behind a colon is text, and its letters are words to the second
reader only.
-/

namespace SqlTemplate

theorem Draft.exists_parts_of_noError {draft : Draft}
    (noError : ∀ failure, .error failure ∉ draft) :
    ∃ parts : List Part, draft = parts.map .ok := by
  induction draft with
  | nil => exact ⟨[], rfl⟩
  | cons place rest ih =>
      obtain ⟨parts, rfl⟩ := ih fun failure member =>
        noError failure (List.mem_cons_of_mem place member)
      cases place with
      | error failure => exact absurd List.mem_cons_self (noError failure)
      | ok part => exact ⟨part :: parts, rfl⟩

namespace Argument

/-- Arguments without fragments. -/
inductive Flat : Argument → Prop where
  | scalar (value : Scalar) : Flat (.scalar value)
  | list {items : List Argument} (all : ∀ item ∈ items, Flat item) : Flat (.list items)

/-- Lists that say nothing at a value marker. -/
inductive Vacant : Argument → Prop where
  | empty : Vacant (.list [])
  | single {item : Argument} (vacant : Vacant item) : Vacant (.list [item])

theorem Flat.closed {argument : Argument} (flat : argument.Flat) (rule : StringRule) :
    argument.Closed rule := by
  induction flat with
  | scalar value => exact .scalar value
  | list all ih => exact .list ih

variable {writer : Writer} {rule : StringRule}

theorem Vacant.draft_eq_nil {argument : Argument} (vacant : argument.Vacant) :
    argument.draft writer = [] := by
  induction vacant with
  | empty => rfl
  | single vacant ih =>
      rw [draft, draftItems_eq]
      simpa [Draft.commaSeparated, draftSlot] using ih

theorem Flat.vacant_of_draft_eq_nil {argument : Argument} (flat : argument.Flat)
    (nothing : argument.draft writer = []) : argument.Vacant := by
  induction flat with
  | scalar value => simp [draft] at nothing
  | @list items all ih =>
      rw [draft, draftItems_eq] at nothing
      cases items with
      | nil => exact .empty
      | cons first rest =>
          cases rest with
          | nil =>
              refine .single (ih first List.mem_cons_self ?_)
              simpa [Draft.commaSeparated, draftSlot] using nothing
          | cons second others => simp [Draft.commaSeparated, Draft.ofText] at nothing

/-- Scalars and lists of them consist of values, commas and blanks. -/
theorem Flat.mem_draft {argument : Argument} (flat : argument.Flat)
    {place : Except CompileError Part} (member : place ∈ argument.draft writer) :
    (∃ value, place = .ok (.value value)) ∨ place ∈ Draft.ofText [',', ' '] := by
  induction flat with
  | scalar value => exact .inl ⟨value, List.mem_singleton.1 member⟩
  | list all ih =>
      rw [draft, draftItems_eq, List.map_map] at member
      rcases Draft.mem_commaSeparated member with inItem | comma
      · obtain ⟨draft, among, here⟩ := inItem
        obtain ⟨item, inItems, rfl⟩ := List.mem_map.1 among
        exact ih item inItems here
      · exact .inr comma

theorem Flat.exists_parts {argument : Argument} (flat : argument.Flat) (writer : Writer) :
    ∃ parts : List Part, argument.draft writer = parts.map .ok := by
  refine Draft.exists_parts_of_noError fun failure member => ?_
  rcases flat.mem_draft member with ⟨value, impossible⟩ | comma
  · cases impossible
  · simp [Draft.ofText] at comma

theorem Flat.mem_parts {argument : Argument} (flat : argument.Flat) {parts : List Part}
    (drafted : argument.draft writer = parts.map .ok) {part : Part} (member : part ∈ parts) :
    (∃ value, part = .value value) ∨ part = .plain ',' ∨ part = .plain ' ' := by
  have inDraft : .ok part ∈ argument.draft writer := drafted ▸ List.mem_map_of_mem member
  rcases flat.mem_draft inDraft with ⟨value, same⟩ | comma
  · exact .inl ⟨value, Except.ok.inj same⟩
  · exact .inr (by simpa [Draft.ofText] using comma)

theorem Flat.count_pieces {argument : Argument} (flat : argument.Flat) {parts : List Part}
    (drafted : argument.draft writer = parts.map .ok) :
    (parts.flatMap Part.pieces).count .parameter = (parts.flatMap Part.values).length := by
  refine Part.count_flatMap_pieces fun part member => ?_
  rcases flat.mem_parts drafted member with ⟨value, rfl⟩ | rfl | rfl
  · rfl
  · rfl
  · rfl

/-- A value that says something ends no word and opens no quotes. -/
theorem Flat.run_eq_boundary {argument : Argument} (flat : argument.Flat) {parts : List Part}
    (drafted : argument.draft writer = parts.map .ok) (solid : ¬ argument.Vacant)
    (before : Preceding) :
    QuoteState.run rule (.outside before) (parts.flatMap Part.text) = .outside .boundary := by
  have signs : ∀ c ∈ parts.flatMap Part.text, c = '?' ∨ c = ',' ∨ c = ' ' := by
    intro c member
    obtain ⟨part, inParts, inText⟩ := List.mem_flatMap.1 member
    rcases flat.mem_parts drafted inParts with ⟨value, rfl⟩ | rfl | rfl
    · exact .inl (List.mem_singleton.1 inText)
    · exact .inr (.inl (List.mem_singleton.1 inText))
    · exact .inr (.inr (List.mem_singleton.1 inText))
  have nonempty : parts.flatMap Part.text ≠ [] := by
    intro empty
    cases parts with
    | nil => exact solid (flat.vacant_of_draft_eq_nil drafted)
    | cons part rest =>
        have nothing := List.flatMap_eq_nil_iff.1 empty part List.mem_cons_self
        rcases flat.mem_parts drafted List.mem_cons_self with ⟨value, rfl⟩ | rfl | rfl
        · exact List.cons_ne_nil _ _ nothing
        · exact List.cons_ne_nil _ _ nothing
        · exact List.cons_ne_nil _ _ nothing
  refine QuoteState.run_eq_boundary (fun c member => ?_) nonempty ?_
  · rcases signs c member with rfl | rfl | rfl <;> decide
  · rcases signs _ (List.getLast_mem nonempty) with last | last | last <;> rw [last] <;> decide

theorem Flat.closing {argument : Argument} (flat : argument.Flat) {parts : List Part}
    (drafted : argument.draft writer = parts.map .ok) : Closing rule parts := by
  induction flat generalizing parts with
  | scalar value =>
      obtain rfl : [Part.value value] = parts := Draft.eq_of_map_ok drafted
      exact .value value
  | list all ih =>
      rw [draft, draftItems_eq, List.map_map] at drafted
      obtain ⟨groups, same, rfl⟩ := Draft.commaSeparated_eq_map_ok drafted
      refine .commaSeparated fun group member => ?_
      obtain ⟨item, inItems, here⟩ := exists_of_mem_groups same member
      exact ih item inItems here

end Argument

/-- A key that a marker can carry. -/
def Key.Proper : Key → Prop
  | .index _ => True
  | .name word => Text.IsName word

/-- There are arguments, and none that a marker can ask for says nothing. -/
def Arguments.LeavesNoGap (arguments : Arguments Argument) : Prop :=
  arguments ≠ .none ∧
    ∀ key argument, key.Proper → arguments.find? key = some argument → ¬ argument.Vacant

theorem Arguments.leavesNoGap_of_held {arguments : Arguments Argument}
    (present : arguments ≠ .none) (solid : ∀ argument ∈ arguments.held, ¬ argument.Vacant) :
    arguments.LeavesNoGap :=
  ⟨present, fun _ argument _ found => solid argument (mem_held_of_find? found)⟩

theorem Marker.Ends.proper {place : Marker} {rest : Text} (ends : place.Ends rest) :
    place.key.Proper := by
  cases ends with
  | identifier | value => trivial
  | namedIdentifier name rest => exact name
  | namedValue name whole cast => exact name

namespace Template

variable {writer : Writer} {arguments : Arguments Argument} {place : Marker} {parts : List Part}
  {rest : Text}

theorem Replacement.inStep_of_leavesNoGap {rule : StringRule}
    (replaces : Replacement (arguments.map (Argument.draftSlot writer)) place parts)
    (ends : place.Ends rest) (flat : ∀ argument ∈ arguments.held, argument.Flat)
    (noGap : arguments.LeavesNoGap) (before : Preceding) :
    QuoteState.InStep rule (.outside .boundary)
      (QuoteState.run rule (.outside before) (parts.flatMap Part.text)) rest := by
  obtain ⟨present, solid⟩ := noGap
  have ofFound {slot : Slot Draft}
      (found : (arguments.map (Argument.draftSlot writer)).find? place.key = some slot) :
      ∃ argument : Argument, argument.Flat ∧ ¬ argument.Vacant ∧
        slot = argument.draftSlot writer := by
    rw [Arguments.find?_map] at found
    obtain ⟨argument, inArguments, rfl⟩ := Option.map_eq_some_iff.1 found
    exact ⟨argument, flat argument (Arguments.mem_held_of_find? inArguments),
      solid place.key argument ends.proper inArguments, rfl⟩
  cases replaces with
  | spelling isPlain =>
      obtain ⟨role, word, rfl⟩ := Replacement.exists_name_of_isPlain isPlain
      have digit : word.head?.any Char.isDigit = true := by
        cases arguments with
        | positional items =>
            have nonempty : items ≠ [] := fun empty => present (by rw [empty]; rfl)
            simpa [Slot.isPlain, Arguments.map, nonempty] using isPlain
        | named entries => simp [Slot.isPlain, Arguments.map] at isPlain
      rw [Part.flatMap_text_plain]
      cases ends with
      | namedIdentifier name rest =>
          change QuoteState.InStep rule _ (QuoteState.run rule _ (':' :: word ++ [':'])) rest
          rw [QuoteState.run_append, QuoteState.run_colon_digit name digit]
          exact .refl _ _
      | namedValue name whole cast =>
          change QuoteState.InStep rule _ (QuoteState.run rule _ (':' :: word)) rest
          rw [QuoteState.run_colon_digit name digit]
          exact QuoteState.inStep_word whole
  | value role found drafted =>
      obtain ⟨argument, isFlat, isSolid, rfl⟩ := ofFound found
      rw [isFlat.run_eq_boundary drafted isSolid]
      exact .refl _ _
  | paths role found written =>
      obtain ⟨argument, isFlat, isSolid, rfl⟩ := ofFound found
      rcases written with ⟨empty, -⟩ | whole
      · have same : argument = .list [] := empty
        exact absurd (same ▸ Argument.Vacant.empty) isSolid
      · rw [Part.flatMap_text_plain, whole.run]
        exact .refl _ _

/-- The readers are in step behind every marker of a template. -/
def InStep (t : Template) (writer : Writer) : Prop :=
  ∀ place rest, (place, rest) ∈ Token.places (Token.lex writer.stringRule t.text) →
    ∀ parts : List Part,
      draftMarker writer (t.arguments.map (Argument.draftSlot writer)) place = parts.map .ok →
      ∀ before, QuoteState.InStep writer.stringRule (.outside .boundary)
        (QuoteState.run writer.stringRule (.outside before) (parts.flatMap Part.text)) rest

variable {t : Template} {engine : Engine} {s : Statement}

/-- Without fragments, readers in step find the parameters that were written. -/
theorem complete_of_inStep (flat : ∀ argument ∈ t.arguments.held, argument.Flat)
    (inStep : t.InStep engine.writer) (compiled : t.compileWith engine.writer = .ok s) :
    s.Complete := by
  have values : ∀ slot ∈ (t.arguments.map (Argument.draftSlot engine.writer)).held, ∀ parts,
      slot.value = parts.map .ok → Closing engine.writer.stringRule parts := by
    rw [Arguments.held_map, List.forall_mem_map]
    intro argument member parts here
    exact (flat argument member).closing here
  have fits : ∀ place rest,
      (place, rest) ∈ Token.places (Token.lex engine.writer.stringRule t.text) →
      ∀ parts, draftMarker engine.writer
          (t.arguments.map (Argument.draftSlot engine.writer)) place = parts.map .ok →
        Fits engine.writer.stringRule t.arguments.style parts rest := by
    intro place rest member parts here
    have replaces := Replacement.of_drafted engine.sealed_wrapPath here
    have ends := Lexeme.ends_of_mem_places member
    have safe := replaces.safe ends
    rw [Arguments.style_map] at safe
    exact ⟨(replaces.closing ends values).reread, inStep place rest member parts here, safe⟩
  obtain ⟨parts, -, pieces, values, counted⟩ := exists_parts_of_fits fits
    (fun argument member => (flat argument member).closed engine.writer.stringRule) compiled
  rw [Statement.Complete, Statement.parameterCount, pieces, values,
    Part.count_flatMap_pieces counted]

theorem inStep_of_leavesNoGap (flat : ∀ argument ∈ t.arguments.held, argument.Flat)
    (noGap : t.arguments.LeavesNoGap) (engine : Engine) : t.InStep engine.writer := by
  intro place rest member parts drafted before
  have replaces := Replacement.of_drafted engine.sealed_wrapPath drafted
  exact replaces.inStep_of_leavesNoGap (Lexeme.ends_of_mem_places member) flat noGap before

end Template

end SqlTemplate
