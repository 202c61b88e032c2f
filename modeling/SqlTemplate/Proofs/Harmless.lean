import SqlTemplate.Proofs.FlatArguments
import SqlTemplate.Proofs.LiteralText

/-!
# Values show no signs

For engines without prefixed strings every literal closes all that it opens,
and outside its quotes stand neither question marks nor backslashes.  The same
holds of identifier paths, and so of everything that takes the place of a
marker when there are no fragments among the arguments.
-/

namespace SqlTemplate

/--
Text that leaves no quotes open and shows no signs outside quotes, wherever it
is put outside quotes.
-/
structure StringRule.Harmless (rule : StringRule) (text : Text) : Prop where
  outside : ∀ before, (QuoteState.run rule (.outside before) text).isOutside = true
  signless : ∀ before, (QuoteState.unquoted rule (.outside before) text).Signless

namespace StringRule.Harmless

variable {rule : StringRule} {first second text : Text}

theorem of_signless (outside : ∀ before, (QuoteState.run rule (.outside before) text).isOutside = true)
    (signless : text.Signless) : rule.Harmless text where
  outside := outside
  signless _ c member := signless c (QuoteState.unquoted_subset text member)

theorem of_bare (bare : text.Bare) : rule.Harmless text :=
  .of_signless (fun _ => QuoteState.isOutside_run_of_noMark fun c member => (bare c member).1)
    bare.signless

theorem nil : rule.Harmless [] :=
  .of_bare (List.forall_mem_nil _)

theorem append (front : rule.Harmless first) (back : rule.Harmless second) :
    rule.Harmless (first ++ second) where
  outside before := by
    obtain ⟨between, state⟩ := QuoteState.isOutside_eq_true_iff.1 (front.outside before)
    rw [QuoteState.run_append, state]
    exact back.outside between
  signless before := by
    obtain ⟨between, state⟩ := QuoteState.isOutside_eq_true_iff.1 (front.outside before)
    rw [QuoteState.unquoted_append, state]
    exact (front.signless before).append (back.signless between)

theorem intercalate {separator : Text} {texts : List Text} (between : rule.Harmless separator)
    (all : ∀ text ∈ texts, rule.Harmless text) : rule.Harmless (separator.intercalate texts) := by
  by_cases empty : texts = []
  · subst empty
    exact nil
  · exact @Text.rel_intercalate (fun text _ => rule.Harmless text) separator
      (fun front back => (front.append between).append back) texts texts
      (List.forall₂_same.2 all) empty

end StringRule.Harmless

namespace Identifier

variable {rule : StringRule} {mark : QuoteMark} {quote : Text → Text}

theorem reading_quote (other : mark ≠ .single) (before : Preceding) (segment : Text) :
    QuoteState.reading rule (.outside before) (Identifier.quote mark.char segment) =
      (.outside .boundary, []) := by
  have doubled (c : Char) :
      QuoteState.reading rule (.inside mark false) (if c = mark.char then [c, c] else [c]) =
        (.inside mark false, []) := by
    split
    · next same =>
        subst same
        rw [QuoteState.reading_cons_of_covers rfl, QuoteState.next_inside_mark,
          QuoteState.reading_cons_of_covers (covers_char _), next_outside_char other]
        rfl
    · next different =>
        rw [QuoteState.reading_cons_of_covers rfl, next_inside_of_ne different]
        rfl
  rw [Identifier.quote, List.cons_append, QuoteState.reading_cons_of_covers (covers_char _),
    next_outside_char other, Text.double,
    QuoteState.reading_append_of_silent (QuoteState.reading_flatMap doubled segment),
    QuoteState.reading_cons_of_covers rfl, QuoteState.next_inside_mark]
  rfl

theorem harmless_wrap (quoted : ∀ segment, rule.Harmless (quote segment)) (path : Text) :
    rule.Harmless (wrap quote path) := by
  refine .intercalate (.of_bare (by decide)) fun text member => ?_
  obtain ⟨part, -, rfl⟩ := List.mem_map.1 member
  refine .intercalate (.of_bare (by decide)) fun text member => ?_
  obtain ⟨segment, -, rfl⟩ := List.mem_map.1 member
  split
  · next star =>
      rw [star]
      exact .of_bare (by decide)
  · exact quoted segment

end Identifier

namespace Engine

variable {engine : Engine}

theorem harmless_wrapPath (rule : StringRule) (path : Text) :
    rule.Harmless (engine.writer.wrapPath path) := by
  apply Identifier.harmless_wrap
  intro segment
  have reading (before : Preceding) :
      QuoteState.reading rule (.outside before) (engine.quoteName segment) =
        (.outside .boundary, []) :=
    Identifier.reading_quote engine.nameMark_ne_single before segment
  constructor
  · intro before
    rw [(Prod.mk.inj (reading before)).1]
    rfl
  · intro before
    rw [(Prod.mk.inj (reading before)).2]
    exact List.forall_mem_nil _

theorem harmless_bytes {value : List UInt8} {text : Text}
    (written : engine.bytes? value = some text) : engine.stringRule.Harmless text where
  outside := isOutside_run_bytes written
  signless before := by
    obtain ⟨after, visible, read, signless⟩ := exists_reading_bytes written before
    rw [(Prod.mk.inj read).2]
    exact signless

theorem signless_moment (plain : engine ≠ .postgreSQL) {value : Moment} {text : Text}
    (written : Timestamp.write? engine.timestampForm value = some text) : text.Signless := by
  cases set : value.isUnset with
  | true =>
      obtain rfl := Option.some.inj ((if_pos set).symm.trans written)
      decide
  | false =>
      obtain ⟨time, rfl⟩ := Timestamp.exists_of_write? set written
      have noName : engine.timestampForm.zone ≠ .abbreviation := by
        cases engine <;> first | exact absurd rfl plain | decide
      have around : engine.timestampForm.opening.Signless ∧
          engine.timestampForm.closing.Signless := by
        cases engine <;> decide
      have blank : Text.Bare [' '] := by decide
      have clock := (Timestamp.bare_date time.date).append
        (blank.cons (Timestamp.bare_clock engine.timestampForm.places time.clock))
      have whole := (around.1.append clock.signless).append
        ((Timestamp.bare_zone value noName).signless.append around.2)
      simpa [List.append_assoc] using whole

/-- Whatever a value is, its literal is harmless. -/
theorem harmless_literal (plain : engine ≠ .postgreSQL) {value : Scalar} {text : Text}
    (written : engine.literal value = .ok text) : engine.stringRule.Harmless text := by
  have outside := isOutside_run_literal plain written
  cases writes_of_literal written with
  | bare bare => exact .of_bare bare
  | string value =>
      refine ⟨outside, fun before => ?_⟩
      have shown : QuoteState.unquoted engine.stringRule (.outside before) (engine.string value) =
          engine.stringLead :=
        (Prod.mk.inj (reading_string (fun prefixed => absurd prefixed plain) value)).2
      rw [shown]
      cases engine <;> decide
  | bytes found => exact harmless_bytes found
  | moment found => exact .of_signless outside (signless_moment plain found)

end Engine

/-- A draft that is written as harmless text, if it is written with literals at all. -/
def Draft.Harmless (writer : Writer) (draft : Draft) : Prop :=
  ∀ rendered, draft.render writer .inline = .ok rendered →
    writer.stringRule.Harmless rendered.text

namespace Draft.Harmless

variable {writer : Writer} {engine : Engine}

theorem ofText {text : Text} (harmless : writer.stringRule.Harmless text) :
    Harmless writer (.ofText text) := by
  intro rendered written
  obtain rfl := Except.ok.inj ((render_ofText writer .inline text).symm.trans written)
  exact harmless

theorem compositional (writer : Writer) : Compositional (Harmless writer) where
  nil := ofText .nil
  error _ := nofun
  comma := ofText (.of_bare (by decide))
  append front back rendered written := by
    obtain ⟨first, later, atFirst, atEnd, rfl⟩ := render_append_eq_ok_iff.1 written
    exact (front first atFirst).append (back later atEnd)

theorem value (plain : engine ≠ .postgreSQL) (scalar : Scalar) :
    Harmless engine.writer [.ok (.value scalar)] := by
  intro rendered written
  obtain ⟨first, later, atFirst, atEnd, rfl⟩ := render_cons_eq_ok_iff.1 written
  obtain rfl := Except.ok.inj atEnd
  obtain ⟨text, literal, rfl⟩ := exists_of_map_eq_ok atFirst
  rw [Rendered.append_empty]
  exact Engine.harmless_literal plain literal

end Draft.Harmless

theorem Argument.Flat.harmless {engine : Engine} (plain : engine ≠ .postgreSQL)
    {argument : Argument} (flat : argument.Flat) :
    Draft.Harmless engine.writer (argument.draft engine.writer) := by
  induction flat with
  | scalar value => exact .value plain value
  | list all ih =>
      rw [draft, draftItems_eq, List.map_map]
      refine (Draft.Harmless.compositional _).commaSeparated fun draft member => ?_
      obtain ⟨item, inItems, rfl⟩ := List.mem_map.1 member
      exact ih item inItems

/-- Without fragments, what takes the place of a marker is harmless. -/
theorem Template.harmless_draftMarker {engine : Engine} (plain : engine ≠ .postgreSQL)
    {arguments : Arguments Argument} (flat : ∀ argument ∈ arguments.held, argument.Flat)
    {place : Marker} {rest : Text} (ends : place.Ends rest) :
    Draft.Harmless engine.writer
      (draftMarker engine.writer (arguments.map (Argument.draftSlot engine.writer)) place) := by
  refine draftMarker_of_compositional (Draft.Harmless.compositional _)
    (fun path => .ofText (engine.harmless_wrapPath _ path)) ?_ fun isPlain => ?_
  · rw [Arguments.held_map, List.forall_mem_map]
    exact fun argument member => (flat argument member).harmless plain
  · obtain ⟨role, word, rfl⟩ := Replacement.exists_name_of_isPlain isPlain
    exact .ofText (.of_bare (Marker.bare_spelling ends))

end SqlTemplate
