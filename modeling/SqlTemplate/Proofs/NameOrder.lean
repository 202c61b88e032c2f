import SqlTemplate.Proofs.Contexts
import SqlTemplate.Proofs.LastWrites
import SqlTemplate.Template.Basic

/-!
# The order of named arguments

Of several arguments with one name the last counts, and apart from this the order
in which named arguments are given does not matter.  Nor does the order in which
they are kept: whatever holds the last writes is searched by name only, so it
can stand for any other such set, at whatever depth of fragments.
-/

namespace SqlTemplate

namespace KeyMap

variable {α : Type} {first second entries others : List (Text × α)}

/-- Pairs in another order, in which the pairs with one key follow each other as before. -/
structure Rearranged (first second : List (Text × α)) : Prop where
  perm : first.Perm second
  order : ∀ key, first.filter (fun pair => pair.1 = key) = second.filter fun pair => pair.1 = key

theorem rearranged_swap {a b : Text × α} (different : a.1 ≠ b.1) (rest : List (Text × α)) :
    Rearranged (a :: b :: rest) (b :: a :: rest) where
  perm := .swap b a rest
  order key := by
    by_cases first : a.1 = key
    · have second : ¬ b.1 = key := fun same => different (first.trans same.symm)
      simp [first, second]
    · simp [List.filter_cons, first]

theorem find?_filter (key : Text) (entries : List (Text × α)) :
    find? key (entries.filter fun pair => pair.1 = key) = find? key entries := by
  induction entries with
  | nil => rfl
  | cons entry rest ih =>
      rw [List.filter_cons, find?]
      by_cases same : key = entry.1
      · rw [if_pos (decide_eq_true same.symm), find?, if_pos same, if_pos same]
      · have other : ¬ decide (entry.1 = key) = true := by simpa using Ne.symm same
        rw [if_neg other, if_neg same, ih]

theorem last_filter (key : Text) (pairs : List (Text × α)) :
    last key (pairs.filter fun pair => pair.1 = key) = last key pairs := by
  rw [last, ← List.filter_reverse, find?_filter, last]

theorem Rearranged.last_eq (rearranged : Rearranged first second) (key : Text) :
    last key first = last key second := by
  rw [← last_filter key first, rearranged.order key, last_filter]

theorem Rearranged.holds (rearranged : Rearranged first second) (holds : Holds entries second) :
    Holds entries first where
  distinct := holds.distinct
  mem_iff key value := by rw [rearranged.last_eq, holds.mem_iff]

theorem Holds.of_perm (holds : Holds entries first) (perm : entries.Perm others) :
    Holds others first where
  distinct := (perm.map Prod.fst).nodup_iff.1 holds.distinct
  mem_iff key value := by rw [← perm.mem_iff, holds.mem_iff]

end KeyMap

namespace Template

variable {writer : Writer} {mode : Mode} {entries others : List (Text × Argument)}

/-- Markers find named arguments by name, and see nothing else of them. -/
theorem renderText_of_find?
    (same : ∀ name, KeyMap.find? name entries = KeyMap.find? name others) (text : Text) :
    renderText writer mode text ((Arguments.named entries).map (Argument.slot writer mode)) =
      renderText writer mode text ((Arguments.named others).map (Argument.slot writer mode)) := by
  refine renderText_of_markers (fun marker => ?_) text
  have found : (Arguments.named entries).find? marker.key =
      (Arguments.named others).find? marker.key := by
    cases marker.key with
    | index position => rfl
    | name word => exact same word
  refine renderMarker_of_answers rfl rfl ?_
  rw [Arguments.find?_map, Arguments.find?_map, found]

end Template

namespace Argument

variable {one two : Arguments Argument} {x y : Argument} {writer : Writer}

/-- Some fragments with one set of arguments get another one, wherever they stand. -/
inductive Exchanges (one two : Arguments Argument) : Argument → Argument → Prop where
  | fragment (text : Text) : Exchanges one two (.template text one) (.template text two)
  | inside {x y : Argument} (context : Context) (exchanges : Exchanges one two x y) :
      Exchanges one two (context.plug x) (context.plug y)
  | refl (x : Argument) : Exchanges one two x x
  | trans {x y z : Argument} (first : Exchanges one two x y) (later : Exchanges one two y z) :
      Exchanges one two x z

theorem Interchangeable.refl (writer : Writer) (x : Argument) : Interchangeable writer x x :=
  ⟨fun _ => rfl, fun _ => rfl, fun _ => rfl⟩

theorem Interchangeable.trans {x y z : Argument} (first : Interchangeable writer x y)
    (later : Interchangeable writer y z) : Interchangeable writer x z where
  render mode := (first.render mode).trans (later.render mode)
  path key := (first.path key).trans (later.path key)
  identifier key := (first.identifier key).trans (later.identifier key)

/-- Sets that every fragment is rendered alike with can be exchanged at every depth. -/
theorem Exchanges.interchangeable
    (alike : ∀ text mode, (Argument.template text one).render writer mode =
      (Argument.template text two).render writer mode)
    (exchanges : Exchanges one two x y) : Interchangeable writer x y := by
  induction exchanges with
  | fragment text => exact ⟨alike text, fun _ => rfl, fun _ => rfl⟩
  | inside context _ ih => exact ih.inContext context
  | refl x => exact .refl writer x
  | trans _ _ first later => exact first.trans later

end Argument

namespace Template

variable {first second entries others : List (Text × Argument)}

/--
Named arguments that are given in another order, but one after the other as
before where they have one name, are as many, are found alike, and can be
exchanged at any depth without a trace in what is rendered, in whatever order
they are kept.
-/
theorem render_rearranged (rearranged : KeyMap.Rearranged first second)
    (holds : KeyMap.Holds entries first) (other : KeyMap.Holds others second) :
    (KeyMap.Holds (KeyMap.ofPairs first) first ∧ KeyMap.Holds (KeyMap.ofPairs second) second) ∧
      ((Arguments.named entries).size = (first.map Prod.fst).dedup.length ∧
        (Arguments.named others).size = (first.map Prod.fst).dedup.length) ∧
      (∀ name, (Arguments.named entries).find? (.name name) = KeyMap.last name first ∧
        (Arguments.named others).find? (.name name) = KeyMap.last name first) ∧
      ∀ (writer : Writer) (mode : Mode) (t u : Template),
        Argument.Exchanges (.named entries) (.named others) t.toArgument u.toArgument →
          t.render writer mode = u.render writer mode := by
  have moved : KeyMap.Holds others first := rearranged.holds other
  refine ⟨⟨KeyMap.holds_ofPairs first, KeyMap.holds_ofPairs second⟩,
    ⟨holds.length_eq, moved.length_eq⟩, fun name => ⟨holds.find?_eq name, moved.find?_eq name⟩,
    fun writer mode t u exchanges => ?_⟩
  have same : Argument.Interchangeable writer t.toArgument u.toArgument := by
    refine exchanges.interchangeable fun text mode => ?_
    rw [Argument.render, Argument.render, Argument.slots_eq, Argument.slots_eq]
    refine renderText_of_find? (fun name => ?_) text
    rw [holds.find?_eq, moved.find?_eq]
  exact same.render mode

/-- Two identifiers, the second of which counts, and a name between them. -/
def row : List (Text × Argument) :=
  [("id".toList, .scalar (.signed 1)), ("name".toList, .scalar (.string "x".toList)),
    ("id".toList, .scalar (.signed 2))]

def rowByName : List (Text × Argument) :=
  [("name".toList, .scalar (.string "x".toList)), ("id".toList, .scalar (.signed 1)),
    ("id".toList, .scalar (.signed 2))]

/-- A fragment with named arguments, in a list that is an argument itself. -/
def insertion (arguments : Arguments Argument) : Template where
  text := "insert into t values (?)".toList
  arguments := .positional [.list [.scalar .null, .template ":id, :name, :id".toList arguments]]
  engine := .sqlite

theorem exchanges_insertion (one two : Arguments Argument) :
    Argument.Exchanges one two (insertion one).toArgument (insertion two).toArgument :=
  .inside
    (.template "insert into t values (?)".toList (.positional [] (.list [.scalar .null] .hole []) []))
    (.fragment ":id, :name, :id".toList)

/-- Rows in two orders, the second of which is kept backwards, are inserted alike. -/
theorem render_rearranged_insertion :
    KeyMap.Rearranged row rowByName ∧ KeyMap.Holds (KeyMap.ofPairs row) row ∧
      KeyMap.Holds (KeyMap.ofPairs rowByName).reverse rowByName ∧
      (KeyMap.ofPairs row).map Prod.fst ≠ (KeyMap.ofPairs rowByName).reverse.map Prod.fst ∧
      (∀ writer mode, (insertion (.named (KeyMap.ofPairs row))).render writer mode =
        (insertion (.named (KeyMap.ofPairs rowByName).reverse)).render writer mode) ∧
      (insertion (.named (KeyMap.ofPairs rowByName).reverse)).inline =
        .ok "insert into t values (NULL, 2, 'x', 2)".toList := by
  have rearranged : KeyMap.Rearranged row rowByName := KeyMap.rearranged_swap (by decide) _
  have holds := KeyMap.holds_ofPairs row
  have backwards : KeyMap.Holds (KeyMap.ofPairs rowByName).reverse rowByName :=
    (KeyMap.holds_ofPairs rowByName).of_perm (List.reverse_perm _).symm
  obtain ⟨-, -, -, alike⟩ := render_rearranged rearranged holds backwards
  exact ⟨rearranged, holds, backwards, by decide +kernel,
    fun writer mode => alike writer mode _ _ (exchanges_insertion _ _), by decide +kernel⟩

end Template

end SqlTemplate
