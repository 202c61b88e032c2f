import SqlTemplate.Proofs.Draft

/-!
# Arguments in context

A fragment can be put into a list or among the arguments of a template, and
these into further lists and templates.  What is rendered around a fragment
depends on no more than what the fragment says at each marker, so arguments
that agree there can be exchanged in every context.
-/

namespace SqlTemplate

mutual

/-- An argument with a hole. -/
inductive Argument.Context where
  | hole
  | list (before : List Argument) (inner : Argument.Context) (after : List Argument)
  | template (text : Text) (arguments : Arguments.Context)

inductive Arguments.Context where
  | positional (before : List Argument) (inner : Argument.Context) (after : List Argument)
  | named (before : List (Text × Argument)) (name : Text) (inner : Argument.Context)
      (after : List (Text × Argument))

end

mutual

def Argument.Context.plug (argument : Argument) : Argument.Context → Argument
  | .hole => argument
  | .list before inner after => .list (before ++ inner.plug argument :: after)
  | .template text arguments => .template text (arguments.plug argument)
termination_by structural context => context

def Arguments.Context.plug (argument : Argument) : Arguments.Context → Arguments Argument
  | .positional before inner after => .positional (before ++ inner.plug argument :: after)
  | .named before name inner after => .named (before ++ (name, inner.plug argument) :: after)
termination_by structural context => context

end

/-- What a slot says at a marker, which may ask for a value or for an identifier. -/
def Slot.answer (writer : Writer) (slot : Slot (Except CompileError Rendered)) :
    Role → Key → Except CompileError Rendered
  | .value, _ => slot.value
  | .identifier, key => Template.renderIdentifier writer key slot.argument

namespace Template

variable {writer : Writer} {mode : Mode} {first second : Slots}

theorem isPlain_congr
    (same : first.map (Slot.answer writer) = second.map (Slot.answer writer)) (key : Key) :
    Slot.isPlain first key = Slot.isPlain second key := by
  cases first with
  | positional items =>
      cases second with
      | positional others =>
          have lengths := congrArg List.length (Arguments.positional.inj same)
          rw [List.length_map, List.length_map] at lengths
          cases key with
          | index position => rfl
          | name word => cases items <;> cases others <;> first | rfl | simp at lengths
      | named entries => simp [Arguments.map] at same
  | named entries =>
      cases second with
      | positional others => simp [Arguments.map] at same
      | named others => rfl

/-- A marker sees of the slots their style, whether its key is plain text, and one answer. -/
theorem renderMarker_of_answers {marker : Marker}
    (plain : Slot.isPlain first marker.key = Slot.isPlain second marker.key)
    (style : first.style = second.style)
    (found : (first.find? marker.key).map (Slot.answer writer) =
      (second.find? marker.key).map (Slot.answer writer)) :
    renderMarker writer first marker = renderMarker writer second marker := by
  unfold renderMarker Slot.ofMarker
  rw [plain, style]
  split
  · rfl
  · by_cases matching : marker.key.style = second.style
    · rw [if_pos matching, if_pos matching]
      cases inFirst : first.find? marker.key with
      | none =>
          cases inSecond : second.find? marker.key with
          | none => rfl
          | some other => simp [inFirst, inSecond] at found
      | some slot =>
          cases inSecond : second.find? marker.key with
          | none => simp [inFirst, inSecond] at found
          | some other =>
              rw [inFirst, inSecond] at found
              have answers := congrFun (congrFun (Option.some.inj found) marker.role) marker.key
              cases role : marker.role with
              | value => rwa [role] at answers
              | identifier => rwa [role] at answers
    · rw [if_neg matching, if_neg matching]

theorem renderText_of_markers
    (same : ∀ marker, renderMarker writer first marker = renderMarker writer second marker)
    (text : Text) : renderText writer mode text first = renderText writer mode text second := by
  unfold renderText
  congr 1
  refine List.map_congr_left fun token _ => ?_
  cases token with
  | literal text => rfl
  | escaped sign => rfl
  | marker place => exact same place

theorem renderText_congr
    (same : first.map (Slot.answer writer) = second.map (Slot.answer writer)) (text : Text) :
    renderText writer mode text first = renderText writer mode text second := by
  refine renderText_of_markers (fun marker => ?_) text
  refine renderMarker_of_answers (isPlain_congr same marker.key) ?_ ?_
  · rw [← Arguments.style_map (Slot.answer writer), same, Arguments.style_map]
  · rw [← Arguments.find?_map, same, Arguments.find?_map]

end Template

namespace Argument

/-- Arguments that say the same at every marker, as items of a list too. -/
structure Interchangeable (writer : Writer) (first second : Argument) : Prop where
  render : ∀ mode, first.render writer mode = second.render writer mode
  path : ∀ key, Template.renderPath writer key first = Template.renderPath writer key second
  identifier : ∀ key,
    Template.renderIdentifier writer key first = Template.renderIdentifier writer key second

variable {writer : Writer} {first second : Argument}

theorem Interchangeable.answer_slot (same : Interchangeable writer first second) (mode : Mode) :
    (first.slot writer mode).answer writer = (second.slot writer mode).answer writer := by
  funext role key
  cases role with
  | value => exact same.render mode
  | identifier => exact same.identifier key

mutual

/-- Interchangeable arguments stay so in every context. -/
theorem Interchangeable.inContext (same : Interchangeable writer first second) :
    ∀ context : Context, Interchangeable writer (context.plug first) (context.plug second)
  | .hole => same
  | .list before inner after => by
      have inside := same.inContext inner
      refine ⟨fun mode => ?_, fun key => rfl, fun key => ?_⟩
      · simp only [Context.plug, Argument.render, slotItems_eq, List.map_append, List.map_cons,
          slot, inside.render mode]
      · simp only [Context.plug, Template.renderIdentifier, List.map_append, List.map_cons,
          inside.path key]
  | .template text arguments => by
      refine ⟨fun mode => ?_, fun key => rfl, fun key => rfl⟩
      simp only [Context.plug, Argument.render, slots_eq]
      exact Template.renderText_congr (same.inArguments arguments mode) text

theorem Interchangeable.inArguments (same : Interchangeable writer first second) :
    ∀ (context : Arguments.Context) (mode : Mode),
      ((context.plug first).map (slot writer mode)).map (Slot.answer writer) =
        ((context.plug second).map (slot writer mode)).map (Slot.answer writer)
  | .positional before inner after, mode => by
      have inside := (same.inContext inner).answer_slot mode
      simp only [Arguments.Context.plug, Arguments.map, List.map_append, List.map_cons, inside]
  | .named before name inner after, mode => by
      have inside := (same.inContext inner).answer_slot mode
      simp only [Arguments.Context.plug, Arguments.map, List.map_append, List.map_cons, inside]

end

end Argument

end SqlTemplate
