import Mathlib.Data.List.Forall2
import SqlTemplate.Proofs.DraftRendering

/-!
# Attempts that agree

Two attempts agree when both succeed with related results, or both fail with
related errors.  Putting pieces together and writing identifiers keep such an
agreement, so two templates agree when their tokens do, one by one.
-/

namespace SqlTemplate

/-- Two attempts with related errors or with related results. -/
inductive Agree {ε α : Type} (alike : ε → ε → Prop) (related : α → α → Prop) :
    Except ε α → Except ε α → Prop where
  | error {first second : ε} (errors : alike first second) :
      Agree alike related (.error first) (.error second)
  | ok {first second : α} (results : related first second) :
      Agree alike related (.ok first) (.ok second)

/-- A relation of rendered pieces that putting them together respects. -/
structure Rendered.Congruence (related : Rendered → Rendered → Prop) : Prop where
  plain : ∀ text, related (plain text) (plain text)
  append : ∀ {first second front back}, related first second → related front back →
    related (first ++ front) (second ++ back)

theorem Rendered.congruence_eq : Congruence Eq :=
  ⟨fun _ => rfl, fun same other => same ▸ other ▸ rfl⟩

/-- Arguments that are the same path, or that are no paths and of one kind. -/
def Argument.SamePath (first second : Argument) : Prop :=
  first.path? = second.path? ∧ first.kind = second.kind

namespace Agree

section

variable {ε α β : Type} {alike : ε → ε → Prop} {related : α → α → Prop} {other : β → β → Prop}
  {first second : Except ε α}

theorem map {f g : α → β} (agree : Agree alike related first second)
    (maps : ∀ x y, related x y → other (f x) (g y)) :
    Agree alike other (first.map f) (second.map g) := by
  cases agree with
  | error errors => exact .error errors
  | ok results => exact .ok (maps _ _ results)

theorem eq_ok_iff (agree : Agree alike Eq first second) (result : α) :
    first = .ok result ↔ second = .ok result := by
  cases agree with
  | error errors => exact ⟨nofun, nofun⟩
  | ok results => rw [results]

theorem refl (errors : ∀ failure, alike failure failure) (results : ∀ result, related result result)
    (attempt : Except ε α) : Agree alike related attempt attempt := by
  cases attempt with
  | error failure => exact .error (errors failure)
  | ok result => exact .ok (results result)

end

section Pieces

variable {ε : Type} {alike : ε → ε → Prop} {related : Rendered → Rendered → Prop}
  {pieces others : List (Except ε Rendered)}

theorem concat (congruence : Rendered.Congruence related)
    (agree : List.Forall₂ (Agree alike related) pieces others) :
    Agree alike related (Rendered.concat pieces) (Rendered.concat others) := by
  induction agree with
  | nil => exact .ok (congruence.plain [])
  | cons here _ ih =>
      cases here with
      | error errors => exact .error errors
      | ok results => exact ih.map fun _ _ behind => congruence.append results behind

theorem intersperse {piece : Except ε Rendered} (between : Agree alike related piece piece)
    (agree : List.Forall₂ (Agree alike related) pieces others) :
    List.Forall₂ (Agree alike related) (pieces.intersperse piece) (others.intersperse piece) := by
  induction agree with
  | nil => exact .nil
  | cons here later ih =>
      cases later with
      | nil => exact .cons here .nil
      | cons => exact .cons here (.cons between ih)

theorem commaSeparated (congruence : Rendered.Congruence related)
    (agree : List.Forall₂ (Agree alike related) pieces others) :
    Agree alike related (Rendered.commaSeparated pieces) (Rendered.commaSeparated others) :=
  concat congruence (intersperse (.ok (congruence.plain _)) agree)

end Pieces

section Identifiers

variable {alike : CompileError → CompileError → Prop} {related : Rendered → Rendered → Prop}
  {writer : Writer} {key other : Key} {argument twin : Argument} {items twins : List Argument}

theorem renderPath (congruence : Rendered.Congruence related)
    (errors : ∀ kind, alike (.notIdentifier key kind) (.notIdentifier other kind))
    (same : argument.SamePath twin) :
    Agree alike related (Template.renderPath writer key argument)
      (Template.renderPath writer other twin) := by
  obtain ⟨path, kind⟩ := same
  unfold Template.renderPath
  rw [path, kind]
  cases twin.path? with
  | none => exact .error (errors twin.kind)
  | some path => exact .ok (congruence.plain _)

theorem renderIdentifier_list (congruence : Rendered.Congruence related)
    (errors : ∀ kind, alike (.notIdentifier key kind) (.notIdentifier other kind))
    (same : List.Forall₂ Argument.SamePath items twins) :
    Agree alike related (Template.renderIdentifier writer key (.list items))
      (Template.renderIdentifier writer other (.list twins)) := by
  apply commaSeparated congruence
  apply List.forall₂_map_left_iff.2
  apply List.forall₂_map_right_iff.2
  exact same.imp fun _ _ => renderPath congruence errors

end Identifiers

end Agree

namespace Template

variable {writer : Writer} {mode : Mode}

theorem render_eq (t : Template) (writer : Writer) (mode : Mode) :
    t.render writer mode =
      renderText writer mode t.text (t.arguments.map (Argument.slot writer mode)) := by
  rw [← Argument.slots_eq]
  rfl

theorem renderMarker_of_find? {arguments : Arguments Argument} {argument : Argument} {role : Role}
    {key : Key} (plain : Slot.isPlain (arguments.map (Argument.slot writer mode)) key = false)
    (found : arguments.find? key = some argument) :
    renderMarker writer (arguments.map (Argument.slot writer mode)) ⟨role, key⟩ =
      match role with
      | .value => argument.render writer mode
      | .identifier => renderIdentifier writer key argument := by
  have slot : Slot.ofMarker (arguments.map (Argument.slot writer mode)) ⟨role, key⟩ =
      .ok (argument.slot writer mode) := by
    apply Slot.ofMarker_eq_ok_iff.2
    rw [Arguments.find?_map, found]
    rfl
  rw [renderMarker, plain, slot]
  cases role <;> rfl

theorem renderMarker_of_find?_none {arguments : Arguments Argument} {role : Role} {key : Key}
    (plain : Slot.isPlain (arguments.map (Argument.slot writer mode)) key = false)
    (missing : arguments.find? key = none) :
    renderMarker writer (arguments.map (Argument.slot writer mode)) ⟨role, key⟩ =
      .error (if key.style = arguments.style then .missingArgument key
        else .mixedStyle ⟨role, key⟩ arguments.style) := by
  have slot : Slot.ofMarker (arguments.map (Argument.slot writer mode)) ⟨role, key⟩ =
      .error (if key.style = arguments.style then .missingArgument key
        else .mixedStyle ⟨role, key⟩ arguments.style) := by
    rw [Slot.ofMarker, Arguments.find?_map, missing, Arguments.style_map]
    by_cases fits : key.style = arguments.style
    · rw [if_pos fits, if_pos fits]
      rfl
    · rw [if_neg fits, if_neg fits]
  rw [renderMarker, plain, slot]
  rfl

end Template

end SqlTemplate
