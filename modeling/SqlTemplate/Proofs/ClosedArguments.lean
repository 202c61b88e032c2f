import SqlTemplate.Proofs.Replacements

/-!
# Arguments that leave nothing open

Fragments inside a template are written into its text.  The text around them
keeps its meaning when every fragment closes the quotes that it opens, and the
values keep their order when every compiled fragment has a parameter for each
of its values.
-/

namespace SqlTemplate

def Statement.parameterCount (s : Statement) : Nat :=
  s.pieces.count .parameter

def Statement.Complete (s : Statement) : Prop :=
  s.parameterCount = s.values.length

instance (s : Statement) : Decidable s.Complete :=
  inferInstanceAs (Decidable (_ = _))

/-- Arguments whose statements are complete, however deep they are nested. -/
inductive Argument.Complete : Argument → Prop where
  | scalar (value : Scalar) : Complete (.scalar value)
  | list {items : List Argument} (all : ∀ item ∈ items, Complete item) : Complete (.list items)
  | template {text : Text} {arguments : Arguments Argument}
      (all : ∀ argument ∈ arguments.held, Complete argument) : Complete (.template text arguments)
  | statement {compiled : Statement} (complete : compiled.Complete) : Complete (.statement compiled)

/-- Arguments whose fragments close all quotes, and whose statements are complete. -/
inductive Argument.Closed (rule : StringRule) : Argument → Prop where
  | scalar (value : Scalar) : Closed rule (.scalar value)
  | list {items : List Argument} (all : ∀ item ∈ items, Closed rule item) :
      Closed rule (.list items)
  | template {text : Text} {arguments : Arguments Argument} (closes : rule.Closes text)
      (all : ∀ argument ∈ arguments.held, Closed rule argument) :
      Closed rule (.template text arguments)
  | statement {compiled : Statement} (sameRule : compiled.stringRule = rule)
      (closes : rule.Closes compiled.text) (complete : compiled.Complete) :
      Closed rule (.statement compiled)

theorem Argument.Closed.complete {rule : StringRule} {argument : Argument}
    (closed : argument.Closed rule) : argument.Complete := by
  induction closed with
  | scalar value => exact .scalar value
  | list all ih => exact .list ih
  | template closes all ih => exact .template ih
  | statement sameRule closes complete => exact .statement complete

/-- The parts that only arguments bring into a draft. -/
inductive Part.Given : Part → Prop where
  | value (scalar : Scalar) : Given (.value scalar)
  | statement (compiled : Statement) : Given (.statement compiled)

namespace Draft

theorem mem_commaSeparated {drafts : List Draft} {place : Except CompileError Part}
    (member : place ∈ commaSeparated drafts) :
    (∃ draft ∈ drafts, place ∈ draft) ∨ place ∈ ofText [',', ' '] := by
  induction drafts with
  | nil => simp [commaSeparated] at member
  | cons first rest ih =>
      cases rest with
      | nil => exact .inl ⟨first, List.mem_cons_self, by simpa [commaSeparated] using member⟩
      | cons second others =>
          rw [commaSeparated_cons_cons] at member
          rcases List.mem_append.1 member with front | back
          · exact (List.mem_append.1 front).imp_left fun here => ⟨first, List.mem_cons_self, here⟩
          · refine (ih back).imp_left ?_
            rintro ⟨draft, among, here⟩
            exact ⟨draft, List.mem_cons_of_mem first among, here⟩

end Draft

namespace Template

variable {writer : Writer} {slots : Arguments (Slot Draft)} {part : Part}

theorem given_notMem_ofText (given : part.Given) {text : Text} : .ok part ∉ Draft.ofText text := by
  intro member
  obtain ⟨char, -, same⟩ := List.mem_map.1 member
  obtain rfl := Except.ok.inj same
  cases given

theorem exists_given_mem (given : part.Given) {drafts : List Draft}
    (member : .ok part ∈ Draft.commaSeparated drafts) : ∃ draft ∈ drafts, .ok part ∈ draft :=
  (Draft.mem_commaSeparated member).resolve_right (given_notMem_ofText given)

theorem given_notMem_draftPath (given : part.Given) (key : Key) (argument : Argument) :
    .ok part ∉ draftPath writer key argument := by
  unfold draftPath
  cases argument.path? with
  | none => simp
  | some path => exact given_notMem_ofText given

theorem given_notMem_draftIdentifier (given : part.Given) {key : Key} {argument : Argument} :
    .ok part ∉ draftIdentifier writer key argument := by
  cases argument with
  | list items =>
      intro member
      obtain ⟨draft, among, here⟩ := exists_given_mem given member
      obtain ⟨item, -, rfl⟩ := List.mem_map.1 among
      exact given_notMem_draftPath given key item here
  | scalar | template | statement =>
      rw [draftIdentifier]
      · exact given_notMem_draftPath given key _
      · simp

theorem exists_slot_of_given_mem (given : part.Given) {token : Token}
    (member : .ok part ∈ draftToken writer slots token) :
    ∃ key slot, token = .marker ⟨.value, key⟩ ∧ slots.find? key = some slot ∧
      draftToken writer slots token = slot.value := by
  cases token with
  | literal text => exact absurd member (given_notMem_ofText given)
  | escaped sign =>
      cases sign with
      | question =>
          obtain rfl := Except.ok.inj (List.mem_singleton.1 member)
          cases given
      | colon => exact absurd member (given_notMem_ofText given)
  | marker place =>
      change _ ∈ draftMarker writer slots place at member
      change ∃ key slot, _ ∧ _ ∧ draftMarker writer slots place = Slot.value slot
      unfold draftMarker at member ⊢
      split at member
      · exact absurd member (given_notMem_ofText given)
      · next notPlain =>
          rw [if_neg notPlain]
          obtain ⟨role, key⟩ := place
          split at member
          · simp at member
          · next slot read =>
              have found := Slot.ofMarker_eq_ok_iff.1 read
              cases role with
              | value => exact ⟨key, slot, rfl, found, rfl⟩
              | identifier => exact absurd member (given_notMem_draftIdentifier given)

/-- A value or a statement in what a template says is given by one of the arguments. -/
theorem given_mem_draftText (given : part.Given) {text : Text}
    (member : .ok part ∈ draftText writer text slots) :
    ∃ slot ∈ slots.held, .ok part ∈ slot.value := by
  obtain ⟨token, -, here⟩ := List.mem_flatMap.1 member
  obtain ⟨key, slot, -, found, same⟩ := exists_slot_of_given_mem given here
  exact ⟨slot, Arguments.mem_held_of_find? found, same ▸ here⟩

theorem fits_of_closing (plain : writer.stringRule ≠ .escapePrefixed)
    (whole : ∀ path, Sealed (writer.wrapPath path))
    (values : ∀ slot ∈ slots.held, ∀ parts, slot.value = parts.map .ok →
      Closing writer.stringRule parts) {text rest : Text} {place : Marker} {parts : List Part}
    (member : (place, rest) ∈ Token.places (Token.lex writer.stringRule text))
    (drafted : draftMarker writer slots place = parts.map .ok) :
    Fits writer.stringRule slots.style parts rest := by
  have replaces := Replacement.of_drafted whole drafted
  have ends := Lexeme.ends_of_mem_places member
  exact (replaces.closing ends values).fits plain (replaces.safe ends)

end Template

theorem Argument.exists_of_mem_groups {writer : Writer} {items : List Argument}
    {groups : List (List Part)}
    (same : items.map (Slot.value ∘ draftSlot writer) = groups.map (List.map .ok))
    {group : List Part} (member : group ∈ groups) :
    ∃ item ∈ items, item.draft writer = group.map .ok := by
  have inDrafts := List.mem_map_of_mem (f := List.map (Except.ok (ε := CompileError))) member
  rw [← same] at inDrafts
  obtain ⟨item, inItems, here⟩ := List.mem_map.1 inDrafts
  exact ⟨item, inItems, here⟩

theorem Argument.Complete.of_mem {writer : Writer} {argument : Argument} {compiled : Statement}
    (complete : argument.Complete)
    (member : .ok (.statement compiled) ∈ argument.draft writer) : compiled.Complete := by
  induction argument using Argument.nested_induction with
  | scalar value => simp [draft] at member
  | list items ih =>
      cases complete with
      | list all =>
          rw [draft, draftItems_eq, List.map_map] at member
          obtain ⟨draft, among, here⟩ := Template.exists_given_mem (.statement compiled) member
          obtain ⟨item, inItems, rfl⟩ := List.mem_map.1 among
          exact ih item inItems (all item inItems) here
  | template text arguments ih =>
      cases complete with
      | template all =>
          rw [draft, draftSlots_eq] at member
          obtain ⟨slot, inSlots, here⟩ := Template.given_mem_draftText (.statement compiled) member
          rw [Arguments.held_map] at inSlots
          obtain ⟨argument, inArguments, rfl⟩ := List.mem_map.1 inSlots
          exact ih argument inArguments (all argument inArguments) here
  | statement other =>
      cases complete with
      | statement complete =>
          rw [draft, List.mem_singleton] at member
          obtain rfl := Part.statement.inj (Except.ok.inj member)
          exact complete

theorem Template.counted_of_complete {t : Template} {writer : Writer}
    (complete : ∀ argument ∈ t.arguments.held, argument.Complete) {part : Part}
    (member : .ok part ∈ t.draft writer) :
    part.pieces.count .parameter = part.values.length := by
  cases part with
  | plain | question | value => rfl
  | statement compiled => exact (Argument.Complete.template complete).of_mem member

namespace Argument.Closed

variable {writer : Writer} {rule : StringRule}

/-- Without prefixed strings a closed argument is closing wherever it is put. -/
theorem closing {argument : Argument} {parts : List Part}
    (plain : writer.stringRule ≠ .escapePrefixed) (whole : ∀ path, Sealed (writer.wrapPath path))
    (closed : argument.Closed writer.stringRule)
    (drafted : argument.draft writer = parts.map .ok) : Closing writer.stringRule parts := by
  induction argument using Argument.nested_induction generalizing parts with
  | scalar value =>
      obtain rfl : [Part.value value] = parts := Draft.eq_of_map_ok drafted
      exact .value value
  | list items ih =>
      cases closed with
      | list all =>
          rw [draft, draftItems_eq, List.map_map] at drafted
          obtain ⟨groups, same, rfl⟩ := Draft.commaSeparated_eq_map_ok drafted
          refine .commaSeparated fun group member => ?_
          obtain ⟨item, inItems, here⟩ := exists_of_mem_groups same member
          exact ih item inItems (all item inItems) here
  | template text arguments ih =>
      cases closed with
      | template closes all =>
          rw [draft, draftSlots_eq] at drafted
          have values : ∀ slot ∈ (arguments.map (draftSlot writer)).held, ∀ parts,
              slot.value = parts.map .ok → Closing writer.stringRule parts := by
            rw [Arguments.held_map, List.forall_mem_map]
            intro argument member parts here
            exact ih argument member (all argument member) here
          have inStep (before : Preceding) :
              QuoteState.InStep writer.stringRule .start (.outside before) text :=
            .of_alike plain (.outside QuoteState.isOutside_start rfl) text
          have read (before : Preceding) := Template.reread_number (inStep before)
            (fun place rest member parts here =>
              Template.fits_of_closing plain whole values member here) drafted
          constructor
          · intro before
            exact (read before).1
          · intro before
            rw [((read before).2 plain).isOutside_eq]
            exact closes
  | statement compiled =>
      cases closed with
      | statement sameRule closes complete =>
          obtain rfl : [Part.statement compiled] = parts := Draft.eq_of_map_ok drafted
          have fromStart (before : Preceding) : QuoteState.InStep writer.stringRule
              (.outside before) .start compiled.text :=
            .of_alike plain (.outside rfl QuoteState.isOutside_start) compiled.text
          constructor
          · intro before
            simp only [List.flatMap_cons, List.flatMap_nil, List.append_nil, Part.text, Part.pieces]
            rw [Piece.list_congr fun n => (fromStart before n).isOutside_eq, ← sameRule]
            rfl
          · intro before
            simp only [List.flatMap_cons, List.flatMap_nil, List.append_nil, Part.text]
            exact closes.isOutside_run plain before

end Argument.Closed

theorem Part.count_flatMap_pieces {parts : List Part}
    (counted : ∀ part ∈ parts, part.pieces.count .parameter = part.values.length) :
    (parts.flatMap pieces).count .parameter = (parts.flatMap values).length := by
  induction parts with
  | nil => rfl
  | cons part rest ih =>
      obtain ⟨here, later⟩ := List.forall_mem_cons.1 counted
      rw [List.flatMap_cons, List.flatMap_cons, List.count_append, List.length_append, here,
        ih later]

namespace Template

variable {t : Template} {s : Statement}

/--
A template compiles to its parts: if what is put in fits at every marker, the
pieces that are found in the statement are those that were written, with a
parameter for every value.
-/
theorem exists_parts_of_fits {writer : Writer}
    (fits : ∀ place rest, (place, rest) ∈ Token.places (Token.lex writer.stringRule t.text) →
      ∀ parts, draftMarker writer (t.arguments.map (Argument.draftSlot writer)) place =
        parts.map .ok → Fits writer.stringRule t.arguments.style parts rest)
    (closed : ∀ argument ∈ t.arguments.held, argument.Closed writer.stringRule)
    (compiled : t.compileWith writer = .ok s) :
    ∃ parts : List Part, t.draft writer = parts.map .ok ∧
      s.pieces = parts.flatMap Part.pieces ∧ s.values = parts.flatMap Part.values ∧
      ∀ part ∈ parts, part.pieces.count .parameter = part.values.length := by
  obtain ⟨parts, drafted, rfl⟩ := compileWith_eq_ok_iff.1 compiled
  rw [Draft.parts_eq_ok_iff] at drafted
  have text := (t.draft_eq writer).symm.trans drafted
  refine ⟨parts, drafted, ?_, rfl, fun part member => ?_⟩
  · rw [← Arguments.style_map (Argument.draftSlot writer)] at fits
    exact (reread_number (.refl _ _) fits text).1
  · have inDraft : .ok part ∈ t.draft writer := drafted ▸ List.mem_map_of_mem member
    exact counted_of_complete (fun argument held => (closed argument held).complete) inDraft

/-- For engines without prefixed strings closed arguments fit at every marker. -/
theorem exists_parts_of_closed {engine : Engine} (plain : engine ≠ .postgreSQL)
    (closed : ∀ argument ∈ t.arguments.held, argument.Closed engine.stringRule)
    (compiled : t.compileWith engine.writer = .ok s) :
    ∃ parts : List Part, t.draft engine.writer = parts.map .ok ∧
      s.pieces = parts.flatMap Part.pieces ∧ s.values = parts.flatMap Part.values ∧
      ∀ part ∈ parts, part.pieces.count .parameter = part.values.length := by
  have noPrefix : engine.writer.stringRule ≠ .escapePrefixed :=
    Engine.stringRule_ne_escapePrefixed plain
  have values : ∀ slot ∈ (t.arguments.map (Argument.draftSlot engine.writer)).held, ∀ parts,
      slot.value = parts.map .ok → Closing engine.writer.stringRule parts := by
    rw [Arguments.held_map, List.forall_mem_map]
    intro argument member parts here
    exact (closed argument member).closing noPrefix engine.sealed_wrapPath here
  refine exists_parts_of_fits ?_ closed compiled
  intro place rest member parts here
  rw [← Arguments.style_map (Argument.draftSlot engine.writer)]
  exact fits_of_closing noPrefix engine.sealed_wrapPath values member here

end Template

end SqlTemplate
