import SqlTemplate.Proofs.LiteralText
import SqlTemplate.Proofs.Variants

/-!
# The places of strings

A text with literals is written from a draft, and a string in it is hidden
behind the quotes of its literal if the reader is outside quotes where the
literal begins, and, for prefixed strings, not inside a word.  When all strings
are written at such places, exchanging them for others changes nothing outside
quotes.
-/

namespace SqlTemplate

namespace Draft

/-- As far as a draft can be written, its strings begin in states of a kind. -/
def StringsAt (writer : Writer) (place : QuoteState → Prop) : QuoteState → Draft → Prop
  | _, [] => True
  | state, first :: rest =>
      (∀ value, first = .ok (.value (.string value)) → place state) ∧
        ∀ rendered, renderPlace writer .inline first = .ok rendered →
          StringsAt writer place (state.run writer.stringRule rendered.text) rest

instance StringsAt.decidable (writer : Writer) (place : QuoteState → Prop) [DecidablePred place] :
    ∀ (state : QuoteState) (draft : Draft), Decidable (StringsAt writer place state draft)
  | _, [] => .isTrue trivial
  | state, first :: rest =>
      have here : Decidable (∀ value, first = .ok (.value (.string value)) → place state) :=
        match first with
        | .ok (.value (.string value)) =>
            decidable_of_iff (place state) ⟨fun h _ _ => h, fun h => h value rfl⟩
        | .ok (.value .null) | .ok (.value (.boolean _)) | .ok (.value (.signed _))
        | .ok (.value (.unsigned _)) | .ok (.value (.float _)) | .ok (.value (.bytes _))
        | .ok (.value (.moment _)) | .error _ => .isTrue nofun
        | .ok (.plain _) | .ok .question | .ok (.statement _) => .isTrue nofun
      have later : Decidable (∀ rendered, renderPlace writer .inline first = .ok rendered →
          StringsAt writer place (state.run writer.stringRule rendered.text) rest) :=
        match renderPlace writer .inline first with
        | .error _ => .isTrue nofun
        | .ok rendered =>
            have := StringsAt.decidable writer place (state.run writer.stringRule rendered.text) rest
            decidable_of_iff (StringsAt writer place (state.run writer.stringRule rendered.text) rest)
              ⟨fun h _ same => Except.ok.inj same ▸ h, fun h => h rendered rfl⟩
      @instDecidableAnd _ _ here later

variable {writer : Writer} {place : QuoteState → Prop} {state : QuoteState}

theorem StringsAt.append {first second : Draft} (front : first.StringsAt writer place state)
    (back : ∀ rendered, first.render writer .inline = .ok rendered →
      second.StringsAt writer place (state.run writer.stringRule rendered.text)) :
    (first ++ second).StringsAt writer place state := by
  induction first generalizing state with
  | nil => exact back .empty rfl
  | cons part rest ih =>
      obtain ⟨here, later⟩ := front
      refine ⟨here, fun rendered written => ih (later rendered written) fun behind follows => ?_⟩
      rw [← QuoteState.run_append]
      exact back (rendered ++ behind)
        (render_cons_eq_ok_iff.2 ⟨rendered, behind, written, follows, rfl⟩)

theorem StringsAt.behind {first second : Draft}
    (strings : (first ++ second).StringsAt writer place state) {rendered : Rendered}
    (written : first.render writer .inline = .ok rendered) :
    second.StringsAt writer place (state.run writer.stringRule rendered.text) := by
  induction first generalizing state rendered with
  | nil =>
      obtain rfl := Except.ok.inj written
      exact strings
  | cons part rest ih =>
      obtain ⟨here, later, atHere, atLater, rfl⟩ := render_cons_eq_ok_iff.1 written
      rw [Rendered.text_append, QuoteState.run_append]
      exact ih (strings.2 here atHere) atLater

theorem stringsAt_of_noValue {draft : Draft}
    (noValue : ∀ scalar, .ok (.value scalar) ∉ draft) :
    draft.StringsAt writer place state := by
  induction draft generalizing state with
  | nil => trivial
  | cons part rest ih =>
      refine ⟨fun value same => ?_, fun _ _ => ih fun scalar member => ?_⟩
      · subst same
        exact absurd List.mem_cons_self (noValue _)
      · exact noValue scalar (List.mem_cons_of_mem part member)

end Draft

theorem Rendered.map_reading_append (rule : StringRule) (state : QuoteState) (first : Rendered)
    (rest : Except CompileError Rendered) :
    (rest.map (first ++ ·)).map (fun whole => state.reading rule whole.text) =
      (rest.map fun later => (state.run rule first.text).reading rule later.text).map
        (Prod.map id (state.unquoted rule first.text ++ ·)) := by
  cases rest with
  | error failure => rfl
  | ok later => simp only [Except.map, text_append, QuoteState.reading_append]

/--
When the strings of a draft begin where their literals are read as strings, a
variant of the draft fails alike, or shows the same outside quotes and ends in
the same state.
-/
theorem Draft.Variant.reading_eq {engine : Engine} {place : QuoteState → Prop}
    (opens : ∀ state, place state → ∃ before, state = .outside before ∧
      (engine = .postgreSQL → before = .boundary))
    {first second : Draft} (variant : Variant first second) {state : QuoteState}
    (strings : first.StringsAt engine.writer place state) :
    (first.render engine.writer .inline).map
        (fun whole => state.reading engine.stringRule whole.text) =
      (second.render engine.writer .inline).map
        (fun whole => state.reading engine.stringRule whole.text) := by
  induction variant generalizing state with
  | nil => rfl
  | same part _ ih =>
      obtain ⟨-, later⟩ := strings
      rw [render_cons, render_cons]
      cases written : renderPlace engine.writer .inline part with
      | error failure => rfl
      | ok rendered =>
          simp only [Except.bind, Rendered.map_reading_append]
          exact congrArg _ (ih (later rendered written))
  | string value other _ ih =>
      obtain ⟨here, later⟩ := strings
      obtain ⟨before, rfl, prefixed⟩ := opens state (here value rfl)
      have rest := later (.plain (engine.string value)) rfl
      obtain ⟨run, shown⟩ := Prod.mk.inj (Engine.reading_string prefixed value)
      obtain ⟨otherRun, otherShown⟩ := Prod.mk.inj (Engine.reading_string prefixed other)
      rw [render_cons, render_cons]
      change (Except.map (Rendered.plain (engine.string value) ++ ·) _).map _ =
        (Except.map (Rendered.plain (engine.string other) ++ ·) _).map _
      rw [Rendered.map_reading_append, Rendered.map_reading_append]
      simp only [Rendered.plain, run, shown, otherRun, otherShown]
      refine congrArg _ (ih ?_)
      rw [← run]
      exact rest

theorem Template.inlineWith_eq_map_render (t : Template) (writer : Writer) :
    t.inlineWith writer = ((t.draft writer).render writer .inline).map Rendered.text := by
  rw [inlineWith, render_draft]

theorem Template.map_reading_render (t : Template) (writer : Writer) :
    (t.inlineWith writer).map (QuoteState.reading writer.stringRule .start) =
      ((t.draft writer).render writer .inline).map
        fun whole => QuoteState.reading writer.stringRule .start whole.text := by
  rw [inlineWith_eq_map_render]
  cases (t.draft writer).render writer .inline <;> rfl

/-- When strings begin where they are read as strings, exchanging them shows nothing. -/
theorem Argument.Variant.unquoted_eq {t u : Template} {engine : Engine}
    {place : QuoteState → Prop} (variant : t.toArgument.Variant engine.stringRule u.toArgument)
    (opens : ∀ state, place state → ∃ before, state = .outside before ∧
      (engine = .postgreSQL → before = .boundary))
    (strings : (t.draft engine.writer).StringsAt engine.writer place .start) :
    (t.inlineWith engine.writer).map (QuoteState.unquoted engine.stringRule .start) =
      (u.inlineWith engine.writer).map (QuoteState.unquoted engine.stringRule .start) := by
  have drafts : Draft.Variant (t.draft engine.writer) (u.draft engine.writer) := variant.draft
  have read : (t.inlineWith engine.writer).map (QuoteState.reading engine.stringRule .start) =
      (u.inlineWith engine.writer).map (QuoteState.reading engine.stringRule .start) :=
    (t.map_reading_render engine.writer).trans
      ((drafts.reading_eq opens strings).trans (u.map_reading_render engine.writer).symm)
  have shown := congrArg (Except.map Prod.snd) read
  rwa [QuoteState.map_snd_reading, QuoteState.map_snd_reading] at shown

end SqlTemplate
