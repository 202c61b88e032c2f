import SqlTemplate.Template.Render

/-!
# Arguments inside arguments

Lists and templates hold further arguments.  A statement about all arguments is
proved by induction, with a hypothesis for every argument that is held, and what
depends on an argument alone is computed from what is held.
-/

namespace SqlTemplate

namespace Arguments

variable {α β : Type}

def held : Arguments α → List α
  | .positional items => items
  | .named entries => entries.map Prod.snd

theorem map_congr {f g : α → β} {arguments : Arguments α}
    (agree : ∀ argument ∈ arguments.held, f argument = g argument) :
    arguments.map f = arguments.map g := by
  cases arguments with
  | positional items => simpa [map, held] using agree
  | named entries =>
      simp only [map, named.injEq]
      refine List.map_congr_left fun entry member => ?_
      rw [agree entry.2 (List.mem_map_of_mem member)]

@[simp] theorem map_map {γ : Type} (f : α → β) (g : β → γ) (arguments : Arguments α) :
    (arguments.map f).map g = arguments.map (g ∘ f) := by
  cases arguments <;> simp [map]

@[simp] theorem held_map (f : α → β) (arguments : Arguments α) :
    (arguments.map f).held = arguments.held.map f := by
  cases arguments <;> simp [map, held]

theorem mem_held_of_find? {arguments : Arguments α} {key : Key} {argument : α}
    (found : arguments.find? key = some argument) : argument ∈ arguments.held := by
  cases arguments with
  | positional items =>
      cases key with
      | index position => exact List.mem_of_getElem? found
      | name word => simp [find?] at found
  | named entries =>
      cases key with
      | index position => simp [find?] at found
      | name word =>
          exact List.mem_map.2 ⟨_, KeyMap.mem_of_find? found, rfl⟩

end Arguments

/-- Induction on an argument, with a hypothesis for each argument inside it. -/
@[elab_as_elim]
theorem Argument.nested_induction {motive : Argument → Prop}
    (scalar : ∀ value, motive (.scalar value))
    (list : ∀ items, (∀ item ∈ items, motive item) → motive (.list items))
    (template : ∀ text arguments,
      (∀ argument ∈ arguments.held, motive argument) → motive (.template text arguments))
    (statement : ∀ compiled, motive (.statement compiled))
    (argument : Argument) : motive argument := by
  refine Argument.rec
    (motive_1 := motive)
    (motive_2 := fun items => ∀ item ∈ items, motive item)
    (motive_3 := fun arguments => ∀ item ∈ arguments.held, motive item)
    (motive_4 := fun entries => ∀ item ∈ entries.map Prod.snd, motive item)
    (motive_5 := fun entry => motive entry.2)
    scalar list template statement ?_ ?_ ?_ ?_ ?_ ?_ ?_ argument
  · simp
  · intro first rest holds ih
    exact List.forall_mem_cons.2 ⟨holds, ih⟩
  · exact fun items ih => ih
  · exact fun entries ih => ih
  · simp
  · intro entry rest holds ih
    exact List.forall_mem_cons.2 ⟨holds, ih⟩
  · exact fun name argument holds => holds

/-- What to compute for an argument, given what is computed for the arguments inside it. -/
structure Argument.Algebra (α : Type) where
  scalar : Scalar → α
  list : List α → α
  template : Text → Arguments (Slot α) → α
  statement : Statement → α

namespace Argument

section Fold

variable {α : Type}

mutual

/-- Compute from the innermost arguments outwards. -/
def fold (algebra : Algebra α) : Argument → α
  | .scalar value => algebra.scalar value
  | .list items => algebra.list ((foldItems algebra items).map Slot.value)
  | .template text arguments => algebra.template text (foldSlots algebra arguments)
  | .statement compiled => algebra.statement compiled
termination_by structural argument => argument

def foldSlots (algebra : Algebra α) : Arguments Argument → Arguments (Slot α)
  | .positional items => .positional (foldItems algebra items)
  | .named entries => .named (foldEntries algebra entries)
termination_by structural arguments => arguments

def foldItems (algebra : Algebra α) : List Argument → List (Slot α)
  | [] => []
  | argument :: rest => ⟨argument, fold algebra argument⟩ :: foldItems algebra rest
termination_by structural items => items

def foldEntries (algebra : Algebra α) : List (Text × Argument) → List (Text × Slot α)
  | [] => []
  | (name, argument) :: rest =>
      (name, ⟨argument, fold algebra argument⟩) :: foldEntries algebra rest
termination_by structural entries => entries

end

variable (algebra : Algebra α)

def foldSlot (argument : Argument) : Slot α :=
  ⟨argument, argument.fold algebra⟩

theorem foldItems_eq (items : List Argument) :
    foldItems algebra items = items.map (foldSlot algebra) := by
  induction items with
  | nil => simp [foldItems]
  | cons argument rest ih => simp [foldItems, foldSlot, ih]

theorem foldEntries_eq (entries : List (Text × Argument)) :
    foldEntries algebra entries =
      entries.map fun entry => (entry.1, foldSlot algebra entry.2) := by
  induction entries with
  | nil => simp [foldEntries]
  | cons entry rest ih => simp [foldEntries, foldSlot, ih]

theorem fold_list (items : List Argument) :
    (Argument.list items).fold algebra = algebra.list (items.map (fold algebra)) := by
  rw [fold, foldItems_eq, List.map_map]
  rfl

theorem fold_template (text : Text) (arguments : Arguments Argument) :
    (Argument.template text arguments).fold algebra =
      algebra.template text (arguments.map (foldSlot algebra)) := by
  cases arguments with
  | positional items => simp [fold, foldSlots, foldItems_eq, Arguments.map]
  | named entries => simp [fold, foldSlots, foldEntries_eq, Arguments.map]

end Fold

end Argument

end SqlTemplate
