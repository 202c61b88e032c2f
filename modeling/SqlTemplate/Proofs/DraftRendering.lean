import SqlTemplate.Proofs.Draft

/-!
# Both modes read the draft

Rendering is a walk along the draft: every part is written in the mode, and the
first error ends the walk.  Among parameters no part fails, so a template
compiles exactly when its draft is free of errors.
-/

namespace SqlTemplate

namespace Rendered

variable {ε : Type}

theorem concat_append (first second : List (Except ε Rendered)) :
    concat (first ++ second) =
      (concat first).bind fun before => (concat second).map (before ++ ·) := by
  induction first with
  | nil =>
      simp only [List.nil_append, concat_nil, Except.bind, empty_append]
      cases concat second <;> rfl
  | cons step rest ih =>
      cases step with
      | error failure => rfl
      | ok piece =>
          simp only [List.cons_append, concat_ok, ih]
          cases concat rest with
          | error failure => rfl
          | ok before =>
              simp only [Except.bind, Except.map]
              cases concat second with
              | error failure => rfl
              | ok behind => simp only [append_assoc]

theorem concat_flatten (groups : List (List (Except ε Rendered))) :
    concat groups.flatten = concat (groups.map concat) := by
  induction groups with
  | nil => rfl
  | cons group rest ih =>
      rw [List.flatten_cons, concat_append, ih, List.map_cons]
      cases concat group <;> rfl

end Rendered

theorem map_intersperse {α β : Type} (f : α → β) (sep : α) (items : List α) :
    (items.intersperse sep).map f = (items.map f).intersperse (f sep) := by
  induction items with
  | nil => rfl
  | cons first rest ih =>
      cases rest with
      | nil => rfl
      | cons second others =>
          simp only [List.map_cons, List.intersperse_cons_cons] at ih ⊢
          rw [ih]

namespace Draft

variable (writer : Writer) (mode : Mode)

theorem render_cons (place : Except CompileError Part) (rest : Draft) :
    render writer mode (place :: rest) =
      (renderPlace writer mode place).bind fun first =>
        (render writer mode rest).map (first ++ ·) := by
  simp only [render, List.map_cons]
  cases renderPlace writer mode place <;> rfl

theorem render_append (first second : Draft) :
    render writer mode (first ++ second) =
      (render writer mode first).bind fun front =>
        (render writer mode second).map (front ++ ·) := by
  rw [render, List.map_append, Rendered.concat_append]
  rfl

variable {writer mode} in
theorem render_cons_eq_ok_iff {place : Except CompileError Part} {rest : Draft} {whole : Rendered} :
    render writer mode (place :: rest) = .ok whole ↔
      ∃ first later, renderPlace writer mode place = .ok first ∧
        render writer mode rest = .ok later ∧ whole = first ++ later := by
  rw [render_cons]
  cases renderPlace writer mode place with
  | error failure => simp [Except.bind]
  | ok first =>
      cases render writer mode rest with
      | error failure => simp [Except.bind, Except.map]
      | ok later => simp [Except.bind, Except.map, eq_comm]

variable {writer mode} in
theorem render_append_eq_ok_iff {first second : Draft} {whole : Rendered} :
    render writer mode (first ++ second) = .ok whole ↔
      ∃ front back, render writer mode first = .ok front ∧
        render writer mode second = .ok back ∧ whole = front ++ back := by
  rw [render_append]
  cases render writer mode first with
  | error failure => simp [Except.bind]
  | ok front =>
      cases render writer mode second with
      | error failure => simp [Except.bind, Except.map]
      | ok back => simp [Except.bind, Except.map, eq_comm]

theorem render_flatten (drafts : List Draft) :
    render writer mode drafts.flatten = Rendered.concat (drafts.map (render writer mode)) := by
  simp only [render, List.map_flatten, Rendered.concat_flatten, List.map_map]
  rfl

@[simp] theorem render_ofText (text : Text) :
    render writer mode (ofText text) = .ok (.plain text) := by
  induction text with
  | nil => rfl
  | cons char rest ih =>
      change render writer mode (.ok (.plain char) :: ofText rest) = _
      rw [render_cons, ih]
      rfl

theorem eq_of_render_ofText {writer : Writer} {mode : Mode} {text : Text} {rendered : Rendered}
    (written : render writer mode (ofText text) = .ok rendered) : rendered = .plain text :=
  Except.ok.inj (written.symm.trans (render_ofText writer mode text))

theorem render_commaSeparated (drafts : List Draft) :
    render writer mode (commaSeparated drafts) =
      Rendered.commaSeparated (drafts.map (render writer mode)) := by
  rw [commaSeparated, render_flatten, map_intersperse, render_ofText]
  rfl

end Draft

namespace Slot

variable {α β : Type}

def map (f : α → β) (slot : Slot α) : Slot β :=
  ⟨slot.argument, f slot.value⟩

@[simp] theorem isPlain_map (f : α → β) (slots : Arguments (Slot α)) (key : Key) :
    isPlain (slots.map (map f)) key = isPlain slots key := by
  cases slots <;> cases key <;> simp [isPlain, Arguments.map]

theorem ofMarker_map (f : α → β) (slots : Arguments (Slot α)) (marker : Marker) :
    ofMarker (slots.map (map f)) marker = (ofMarker slots marker).map (map f) := by
  simp only [ofMarker, Arguments.style_map, Arguments.find?_map]
  split
  · cases slots.find? marker.key <;> rfl
  · rfl

theorem style_eq_of_find? {slots : Arguments (Slot α)} {key : Key} {slot : Slot α}
    (found : slots.find? key = some slot) : key.style = slots.style := by
  cases slots <;> cases key <;> first | rfl | simp [Arguments.find?] at found

theorem ofMarker_eq_ok_iff {slots : Arguments (Slot α)} {marker : Marker} {slot : Slot α} :
    ofMarker slots marker = .ok slot ↔ slots.find? marker.key = some slot := by
  unfold ofMarker
  constructor
  · intro read
    split at read
    · cases found : slots.find? marker.key with
      | none => simp [found] at read
      | some other =>
          simp only [found, Except.ok.injEq] at read
          rw [read]
    · simp at read
  · intro found
    rw [if_pos (style_eq_of_find? found), found]

end Slot

namespace Template

variable (writer : Writer) (mode : Mode)

theorem render_draftPath (key : Key) (argument : Argument) :
    (draftPath writer key argument).render writer mode = renderPath writer key argument := by
  unfold draftPath renderPath
  cases argument.path? with
  | none => rfl
  | some path => simp

theorem render_draftIdentifier (key : Key) (argument : Argument) :
    (draftIdentifier writer key argument).render writer mode =
      renderIdentifier writer key argument := by
  cases argument with
  | list items =>
      simp only [draftIdentifier, renderIdentifier, Draft.render_commaSeparated, List.map_map]
      congr 1
      exact List.map_congr_left fun item _ => render_draftPath writer mode key item
  | scalar value => exact render_draftPath writer mode key (.scalar value)
  | template text arguments =>
      exact render_draftPath writer mode key (.template text arguments)
  | statement compiled => exact render_draftPath writer mode key (.statement compiled)

theorem render_draftMarker (slots : Arguments (Slot Draft)) (marker : Marker) :
    (draftMarker writer slots marker).render writer mode =
      renderMarker writer (slots.map (Slot.map (Draft.render writer mode))) marker := by
  unfold draftMarker renderMarker
  rw [Slot.isPlain_map, Slot.ofMarker_map]
  split
  · simp
  · cases Slot.ofMarker slots marker with
    | error failure => rfl
    | ok slot =>
        cases hrole : marker.role with
        | value => rfl
        | identifier => exact render_draftIdentifier writer mode marker.key slot.argument

theorem render_draftToken (slots : Arguments (Slot Draft)) (token : Token) :
    (draftToken writer slots token).render writer mode =
      renderToken writer mode (slots.map (Slot.map (Draft.render writer mode))) token := by
  cases token with
  | literal text => simp [draftToken, renderToken]
  | escaped sign =>
      cases sign with
      | question => cases mode <;> rfl
      | colon => cases mode <;> rfl
  | marker place => exact render_draftMarker writer mode slots place

theorem render_draftText (text : Text) (slots : Arguments (Slot Draft)) :
    (draftText writer text slots).render writer mode =
      renderText writer mode text (slots.map (Slot.map (Draft.render writer mode))) := by
  rw [draftText, renderText, List.flatMap_def, Draft.render_flatten, List.map_map]
  congr 1
  exact List.map_congr_left fun token _ => render_draftToken writer mode slots token

end Template

namespace Argument

/-- Both modes of rendering read the draft of an argument. -/
theorem render_eq_render_draft (writer : Writer) (mode : Mode) (argument : Argument) :
    argument.render writer mode = (argument.draft writer).render writer mode := by
  induction argument using Argument.nested_induction with
  | scalar value =>
      simp only [render, draft, Draft.render, List.map_cons, List.map_nil, Draft.renderPlace,
        Part.render]
      cases Template.renderScalar writer mode value <;> simp [Rendered.concat, Except.map]
  | list items ih =>
      simp only [render, draft, slotItems_eq, draftItems_eq, Draft.render_commaSeparated,
        List.map_map]
      congr 1
      exact List.map_congr_left ih
  | template text arguments ih =>
      have same : arguments.map (slot writer mode) =
          (arguments.map (draftSlot writer)).map (Slot.map (Draft.render writer mode)) := by
        rw [Arguments.map_map]
        refine Arguments.map_congr fun argument member => ?_
        simp only [slot, Function.comp_apply, draftSlot, Slot.map, ih argument member]
      simp only [render, draft, slots_eq, draftSlots_eq, Template.render_draftText, same]
  | statement compiled =>
      simp only [render, draft, Draft.render, List.map_cons, List.map_nil, Draft.renderPlace,
        Part.render]
      cases compiled.render writer mode <;> simp [Rendered.concat, Except.map]

end Argument

namespace Draft

theorem parts_eq_ok_iff {draft : Draft} {parts : List Part} :
    draft.parts = .ok parts ↔ draft = parts.map .ok := by
  induction draft generalizing parts with
  | nil => cases parts <;> simp [Draft.parts]
  | cons place rest ih =>
      cases place with
      | error failure => cases parts <;> simp [Draft.parts]
      | ok part =>
          cases hrest : Draft.parts rest with
          | error failure =>
              cases parts <;> simp_all [Draft.parts, Except.map]
          | ok others =>
              cases parts <;> simp_all [Draft.parts, Except.map]

/-- A draft without parts has a first error behind parts. -/
theorem exists_of_parts_eq_error {draft : Draft} {failure : CompileError}
    (failed : draft.parts = .error failure) :
    ∃ (front : List Part) (back : Draft), draft = front.map .ok ++ .error failure :: back := by
  induction draft with
  | nil => cases failed
  | cons place rest ih =>
      cases place with
      | error other =>
          obtain rfl := Except.error.inj failed
          exact ⟨[], rest, rfl⟩
      | ok part =>
          cases later : Draft.parts rest with
          | ok others => simp [Draft.parts, later, Except.map] at failed
          | error other =>
              have same : other = failure := by simpa [Draft.parts, later, Except.map] using failed
              obtain ⟨front, back, rfl⟩ := ih (same ▸ later)
              exact ⟨part :: front, back, rfl⟩

/-- Among parameters the texts and the values of the parts stand one behind the other. -/
theorem render_parameterized (writer : Writer) (draft : Draft) :
    draft.render writer .parameterized =
      draft.parts.map fun parts =>
        ⟨parts.flatMap Part.text, parts.flatMap Part.values⟩ := by
  induction draft with
  | nil => rfl
  | cons place rest ih =>
      cases place with
      | error failure => rfl
      | ok part =>
          rw [render_cons, ih, renderPlace, Part.render_parameterized]
          cases hrest : Draft.parts rest with
          | error failure => simp [Draft.parts, hrest, Except.map, Except.bind]
          | ok others =>
              simp only [Draft.parts, hrest, Except.map, Except.bind, List.flatMap_cons]
              rfl

end Draft

namespace Template

variable {t : Template} {writer : Writer}

theorem render_draft (t : Template) (writer : Writer) (mode : Mode) :
    t.render writer mode = (t.draft writer).render writer mode :=
  t.toArgument.render_eq_render_draft writer mode

theorem render_parameterized (t : Template) (writer : Writer) :
    t.render writer .parameterized =
      (t.draft writer).parts.map fun parts =>
        ⟨parts.flatMap Part.text, parts.flatMap Part.values⟩ := by
  rw [render_draft, Draft.render_parameterized]

theorem render_parameterized_eq_ok_iff {rendered : Rendered} :
    t.render writer .parameterized = .ok rendered ↔
      ∃ parts : List Part, t.draft writer = parts.map .ok ∧
        rendered = ⟨parts.flatMap Part.text, parts.flatMap Part.values⟩ := by
  rw [render_parameterized]
  constructor
  · intro compiled
    cases drafted : (t.draft writer).parts with
    | error failure => simp [drafted, Except.map] at compiled
    | ok parts =>
        refine ⟨parts, Draft.parts_eq_ok_iff.1 drafted, ?_⟩
        simpa [drafted, Except.map, eq_comm] using compiled
  · rintro ⟨parts, drafted, rfl⟩
    rw [Draft.parts_eq_ok_iff.2 drafted]
    rfl

theorem exists_of_render_parameterized_eq_error {failure : CompileError}
    (failed : t.render writer .parameterized = .error failure) :
    ∃ (front : List Part) (back : Draft),
      t.draft writer = front.map .ok ++ .error failure :: back := by
  apply Draft.exists_of_parts_eq_error
  rw [render_parameterized] at failed
  cases drafted : (t.draft writer).parts with
  | ok parts => simp [drafted, Except.map] at failed
  | error other => simpa [drafted, Except.map] using failed

/-- A template compiles to the parts of its draft. -/
theorem compileWith_eq_ok_iff {s : Statement} :
    t.compileWith writer = .ok s ↔
      ∃ parts, (t.draft writer).parts = .ok parts ∧
        s = { text := parts.flatMap Part.text
              values := parts.flatMap Part.values
              hints := t.hints
              placeholders := writer.placeholders
              stringRule := writer.stringRule } := by
  rw [compileWith, render_parameterized]
  cases (t.draft writer).parts with
  | error failure => simp [Except.map]
  | ok parts => simp [Except.map, eq_comm]

end Template

theorem exists_of_map_eq_ok {ε α β : Type} {result : Except ε α} {f : α → β} {field : β}
    (mapped : result.map f = .ok field) : ∃ value, result = .ok value ∧ f value = field := by
  cases result with
  | error failure => cases mapped
  | ok value => exact ⟨value, rfl, Except.ok.inj mapped⟩

theorem eq_error_of_map_eq_error {ε α β : Type} {result : Except ε α} {f : α → β} {failure : ε}
    (mapped : result.map f = .error failure) : result = .error failure := by
  cases result with
  | error other => exact congrArg _ (Except.error.inj mapped)
  | ok value => cases mapped

theorem Template.exists_of_map_compileWith {α : Type} {t : Template} {writer : Writer}
    {f : Statement → α} {field : α} (compiled : (t.compileWith writer).map f = .ok field) :
    ∃ s, t.compileWith writer = .ok s ∧ f s = field :=
  exists_of_map_eq_ok compiled

end SqlTemplate

