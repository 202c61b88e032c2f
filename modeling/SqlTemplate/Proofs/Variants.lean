import SqlTemplate.Proofs.Replacements

/-!
# Variants of arguments

Two arguments are variants of each other when they differ in nothing but the
strings that are asked for as values.  The strings that a template asks for as
identifiers must be the same, since they become SQL.  The drafts of variants
then agree in everything except for the strings among their values: in the
characters, in the other values, and in the errors.
-/

namespace SqlTemplate

/-- The paths that an argument gives to an identifier marker. -/
def Argument.paths : Argument → List Text
  | .list items => items.filterMap path?
  | argument => argument.path?.toList

/-- Arguments that differ in nothing but strings that are asked for as values. -/
inductive Argument.Variant (rule : StringRule) : Argument → Argument → Prop where
  | scalar (value : Scalar) : Variant rule (.scalar value) (.scalar value)
  | string (first second : Text) :
      Variant rule (.scalar (.string first)) (.scalar (.string second))
  | list {pairs : List (Argument × Argument)} (all : ∀ pair ∈ pairs, Variant rule pair.1 pair.2) :
      Variant rule (.list (pairs.map Prod.fst)) (.list (pairs.map Prod.snd))
  | template {text : Text} {pairs : Arguments (Argument × Argument)}
      (all : ∀ pair ∈ pairs.held, Variant rule pair.1 pair.2)
      (paths : ∀ key pair, .marker ⟨.identifier, key⟩ ∈ Token.lex rule text →
        pairs.find? key = some pair → pair.1.paths = pair.2.paths) :
      Variant rule (.template text (pairs.map Prod.fst)) (.template text (pairs.map Prod.snd))

/-- Drafts that differ in nothing but the strings among their values. -/
inductive Draft.Variant : Draft → Draft → Prop where
  | nil : Variant [] []
  | same (place : Except CompileError Part) {first second : Draft}
      (rest : Variant first second) : Variant (place :: first) (place :: second)
  | string (value other : Text) {first second : Draft} (rest : Variant first second) :
      Variant (.ok (.value (.string value)) :: first) (.ok (.value (.string other)) :: second)

namespace Draft.Variant

theorem refl (draft : Draft) : Variant draft draft := by
  induction draft with
  | nil => exact .nil
  | cons place rest ih => exact .same place ih

theorem append {first second front back : Draft} (variant : Variant first front)
    (rest : Variant second back) : Variant (first ++ second) (front ++ back) := by
  induction variant with
  | nil => exact rest
  | same place _ ih => exact .same place ih
  | string value other _ ih => exact .string value other ih

theorem flatMap {α : Type} {items : List α} {f g : α → Draft}
    (all : ∀ item ∈ items, Variant (f item) (g item)) :
    Variant (items.flatMap f) (items.flatMap g) := by
  induction items with
  | nil => exact .nil
  | cons item rest ih =>
      obtain ⟨here, later⟩ := List.forall_mem_cons.1 all
      exact here.append (ih later)

theorem commaSeparated {α : Type} {items : List α} {f g : α → Draft}
    (all : ∀ item ∈ items, Variant (f item) (g item)) :
    Variant (Draft.commaSeparated (items.map f)) (Draft.commaSeparated (items.map g)) := by
  induction items with
  | nil => exact .nil
  | cons item rest ih =>
      obtain ⟨here, later⟩ := List.forall_mem_cons.1 all
      cases rest with
      | nil => simpa [Draft.commaSeparated] using here
      | cons next others =>
          simp only [List.map_cons, commaSeparated_cons_cons] at ih ⊢
          exact (here.append (.refl _)).append (ih later)

end Draft.Variant

namespace Argument.Variant

variable {writer : Writer} {rule : StringRule} {first second : Argument}

theorem kind_eq (variant : Variant rule first second) : first.kind = second.kind := by
  cases variant <;> rfl

theorem draftPath_eq (variant : Variant rule first second)
    (same : first.path?.toList = second.path?.toList) (key : Key) :
    Template.draftPath writer key first = Template.draftPath writer key second := by
  have path : first.path? = second.path? := by
    cases atFirst : first.path? <;> cases atSecond : second.path? <;>
      simp_all [Option.toList]
  rw [Template.draftPath, Template.draftPath, path, variant.kind_eq]

theorem path?_isSome (variant : Variant rule first second) :
    first.path?.isSome = second.path?.isSome := by
  cases variant <;> rfl

theorem draftPaths_eq {pairs : List (Argument × Argument)}
    (all : ∀ pair ∈ pairs, Variant rule pair.1 pair.2)
    (same : (pairs.map Prod.fst).filterMap path? = (pairs.map Prod.snd).filterMap path?)
    (key : Key) :
    (pairs.map Prod.fst).map (Template.draftPath writer key) =
      (pairs.map Prod.snd).map (Template.draftPath writer key) := by
  induction pairs with
  | nil => rfl
  | cons pair rest ih =>
      obtain ⟨here, later⟩ := List.forall_mem_cons.1 all
      have together := here.path?_isSome
      simp only [List.map_cons, List.filterMap_cons] at same ⊢
      cases atFirst : pair.1.path? with
      | none =>
          have atSecond : pair.2.path? = none := by simpa [atFirst] using together
          rw [atFirst, atSecond] at same
          rw [here.draftPath_eq (by rw [atFirst, atSecond]) key, ih later same]
      | some path =>
          rw [atFirst] at together
          obtain ⟨other, atSecond⟩ := Option.isSome_iff_exists.1 together.symm
          rw [atFirst, atSecond] at same
          obtain ⟨equal, tails⟩ := List.cons.inj same
          rw [here.draftPath_eq (by rw [atFirst, atSecond, equal]) key, ih later tails]

theorem draftIdentifier_eq (writer : Writer) (variant : Variant rule first second)
    (same : first.paths = second.paths) (key : Key) :
    Template.draftIdentifier writer key first = Template.draftIdentifier writer key second := by
  cases variant with
  | scalar value => rfl
  | string value other =>
      have variant : Variant rule (.scalar (.string value)) (.scalar (.string other)) :=
        .string value other
      exact variant.draftPath_eq same key
  | list all =>
      rw [Template.draftIdentifier, Template.draftIdentifier, draftPaths_eq all same key]
  | template all paths => rfl

theorem draftMarker {text : Text} {pairs : Arguments (Argument × Argument)}
    (all : ∀ pair ∈ pairs.held, Variant rule pair.1 pair.2)
    (paths : ∀ key pair, .marker ⟨.identifier, key⟩ ∈ Token.lex rule text →
      pairs.find? key = some pair → pair.1.paths = pair.2.paths)
    (drafts : ∀ pair ∈ pairs.held, Draft.Variant (pair.1.draft writer) (pair.2.draft writer))
    {place : Marker} (member : .marker place ∈ Token.lex rule text) :
    Draft.Variant
      (Template.draftMarker writer ((pairs.map Prod.fst).map (draftSlot writer)) place)
      (Template.draftMarker writer ((pairs.map Prod.snd).map (draftSlot writer)) place) := by
  have isPlain : Slot.isPlain ((pairs.map Prod.fst).map (draftSlot writer)) place.key =
      Slot.isPlain ((pairs.map Prod.snd).map (draftSlot writer)) place.key := by
    cases pairs <;> cases place.key <;> simp [Slot.isPlain, Arguments.map]
  unfold Template.draftMarker
  rw [isPlain]
  cases found : pairs.find? place.key with
  | none =>
      have same : Slot.ofMarker ((pairs.map Prod.fst).map (draftSlot writer)) place =
          Slot.ofMarker ((pairs.map Prod.snd).map (draftSlot writer)) place := by
        simp [Slot.ofMarker, found]
      rw [same]
      exact .refl _
  | some pair =>
      have held := Arguments.mem_held_of_find? found
      have atFirst : Slot.ofMarker ((pairs.map Prod.fst).map (draftSlot writer)) place =
          .ok (pair.1.draftSlot writer) := Slot.ofMarker_eq_ok_iff.2 (by simp [found])
      have atSecond : Slot.ofMarker ((pairs.map Prod.snd).map (draftSlot writer)) place =
          .ok (pair.2.draftSlot writer) := Slot.ofMarker_eq_ok_iff.2 (by simp [found])
      rw [atFirst, atSecond]
      split
      · exact .refl _
      · obtain ⟨role, key⟩ := place
        cases role with
        | value => exact drafts pair held
        | identifier =>
            have same := (all pair held).draftIdentifier_eq writer (paths key pair member found)
            simp only [draftSlot, same]
            exact .refl _

/-- The drafts of variants differ in nothing but the strings among their values. -/
theorem draft (variant : Variant writer.stringRule first second) :
    Draft.Variant (first.draft writer) (second.draft writer) := by
  induction variant with
  | scalar value => exact .refl _
  | string value other => exact .string value other .nil
  | list all ih =>
      simp only [Argument.draft, draftItems_eq, List.map_map]
      exact Draft.Variant.commaSeparated ih
  | template all paths ih =>
      simp only [Argument.draft, draftSlots_eq, Template.draftText]
      refine Draft.Variant.flatMap fun token member => ?_
      cases token with
      | literal text => exact .refl _
      | escaped sign => cases sign <;> exact .refl _
      | marker place => exact draftMarker all paths ih member

end Argument.Variant

end SqlTemplate
