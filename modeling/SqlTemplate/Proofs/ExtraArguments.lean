import SqlTemplate.Proofs.Agreement
import SqlTemplate.Proofs.LastWrites

/-!
# Arguments that nobody asks for

Arguments can be added behind those that are given by position, if there are
any, and under new names to those that are given by name.  Every marker that
found its argument finds it again, and colons that were plain text are plain
text still.  So only a template that missed an argument renders differently.
-/

namespace SqlTemplate

namespace Arguments

variable {α : Type}

/-- Arguments and the same with others added, behind them or under new names. -/
inductive Extends : Arguments α → Arguments α → Prop where
  | positional {items : List α} (nonempty : items ≠ []) (extra : List α) :
      Extends (.positional items) (.positional (items ++ extra))
  | named {entries extra : List (Text × α)}
      (new : ∀ pair ∈ extra, KeyMap.find? pair.1 entries = Option.none) :
      Extends (.named entries) (.named (KeyMap.insertAll extra entries))

variable {given more : Arguments α} {key : Key} {argument : α}

theorem find?_eq_none_of_style_ne (other : key.style ≠ given.style) : given.find? key = Option.none := by
  cases given <;> cases key <;> first | rfl | exact absurd rfl other

namespace Extends

theorem style_eq (grown : given.Extends more) : more.style = given.style := by
  cases grown <;> rfl

theorem find?_eq_some (grown : given.Extends more) (found : given.find? key = some argument) :
    more.find? key = some argument := by
  cases grown with
  | positional nonempty extra =>
      cases key with
      | index position =>
          have below := (List.getElem?_eq_some_iff.1 found).1
          exact (List.getElem?_append_left below).trans found
      | name word => cases found
  | @named entries extra new =>
      cases key with
      | index position => cases found
      | name word =>
          have unwritten : KeyMap.last word extra = Option.none := by
            rw [KeyMap.last_eq_none_iff, List.mem_map]
            rintro ⟨pair, member, rfl⟩
            exact nomatch (new pair member).symm.trans found
          change KeyMap.find? word (KeyMap.insertAll extra entries) = some argument
          rw [KeyMap.find?_insertAll, unwritten, Option.none_or]
          exact found

theorem isPlain_eq {β : Type} {f : α → Slot β} (grown : given.Extends more) (key : Key) :
    Slot.isPlain (more.map f) key = Slot.isPlain (given.map f) key := by
  cases grown with
  | named new => rfl
  | @positional items nonempty extra =>
      cases items with
      | nil => exact absurd rfl nonempty
      | cons item rest => cases key <;> rfl

end Extends

end Arguments

/-- An attempt that ends as another one does, unless that one misses an argument. -/
def Keeps {α : Type} (first second : Except CompileError α) : Prop :=
  (∀ key, first ≠ .error (.missingArgument key)) → second = first

theorem Keeps.concat {α : Type} {first second : α → Except CompileError Rendered}
    (keeps : ∀ item, Keeps (first item) (second item)) (items : List α) :
    Keeps (Rendered.concat (items.map first)) (Rendered.concat (items.map second)) := by
  induction items with
  | nil => exact fun _ => rfl
  | cons item rest ih =>
      intro found
      have here := keeps item
      rw [List.map_cons] at found ⊢
      rw [List.map_cons]
      cases piece : first item with
      | error failure =>
          rw [piece] at found here
          rw [here found]
          rfl
      | ok rendered =>
          rw [piece] at found here
          rw [here nofun, Rendered.concat_ok, Rendered.concat_ok, ih]
          intro key missing
          refine found key ?_
          rw [Rendered.concat_ok, missing]
          rfl

namespace Template

variable {writer : Writer} {mode : Mode} {given more : Arguments Argument}

theorem keeps_renderMarker (grown : given.Extends more) (role : Role) (key : Key) :
    Keeps (renderMarker writer (given.map (Argument.slot writer mode)) ⟨role, key⟩)
      (renderMarker writer (more.map (Argument.slot writer mode)) ⟨role, key⟩) := by
  intro found
  have samePlain := grown.isPlain_eq (f := Argument.slot writer mode) key
  cases plain : Slot.isPlain (given.map (Argument.slot writer mode)) key with
  | true => rw [renderMarker, renderMarker, samePlain, plain, if_pos rfl, if_pos rfl]
  | false =>
      rw [plain] at samePlain
      cases here : given.find? key with
      | some argument =>
          rw [renderMarker_of_find? plain here,
            renderMarker_of_find? samePlain (grown.find?_eq_some here)]
      | none =>
          rw [renderMarker_of_find?_none plain here] at found ⊢
          by_cases fits : key.style = given.style
          · exact absurd (congrArg _ (if_pos fits)) (found key)
          · have there : more.find? key = none :=
              Arguments.find?_eq_none_of_style_ne (by rwa [grown.style_eq])
            rw [renderMarker_of_find?_none samePlain there, grown.style_eq]

theorem keeps_renderToken (grown : given.Extends more) (token : Token) :
    Keeps (renderToken writer mode (given.map (Argument.slot writer mode)) token)
      (renderToken writer mode (more.map (Argument.slot writer mode)) token) := by
  cases token with
  | literal | escaped => exact fun _ => rfl
  | marker place => exact keeps_renderMarker grown place.role place.key

/--
With more arguments a template renders to what it rendered to, and fails with
the error that it failed with, unless it missed an argument.
-/
theorem render_extends (writer : Writer) (mode : Mode) {t : Template} {more : Arguments Argument}
    (grown : t.arguments.Extends more)
    (found : ∀ key, t.render writer mode ≠ .error (.missingArgument key)) :
    { t with arguments := more }.render writer mode = t.render writer mode := by
  rw [render_eq] at found ⊢
  rw [render_eq]
  exact Keeps.concat (keeps_renderToken grown) _ found

/-- A slice with colons that are plain text, and one value. -/
def slice : Template where
  text := "select a[1:2], b[:9] where c = ?".toList
  arguments := .positional [.scalar (.signed 7)]
  engine := .postgreSQL

/-- A question mark among named arguments. -/
def mixed : Template where
  text := "where a = :a and b = ? and c = :c".toList
  arguments := .ofPairs [(['a'], .scalar (.signed 7))]
  engine := .mySQL

/-- Neither a template that compiles nor one that fails notices two more arguments. -/
theorem render_extends_slice :
    ∃ rendered, slice.render Engine.postgreSQL.writer .parameterized = .ok rendered ∧
      rendered.text = "select a[1:2], b[:9] where c = ?".toList ∧
      { slice with arguments := .positional [.scalar (.signed 7), .scalar .null, .list []] }.render
        Engine.postgreSQL.writer .parameterized = .ok rendered ∧
      mixed.render Engine.mySQL.writer .inline =
        .error (.mixedStyle ⟨.value, .index 0⟩ .named) ∧
      { mixed with
          arguments := .ofPairs
            [(['a'], .scalar (.signed 7)), (['c'], .list []), (['b'], .scalar .null)] }.render
        Engine.mySQL.writer .inline = .error (.mixedStyle ⟨.value, .index 0⟩ .named) := by
  obtain ⟨rendered, compiled, text⟩ : ∃ rendered,
      slice.render Engine.postgreSQL.writer .parameterized = .ok rendered ∧
        rendered.text = "select a[1:2], b[:9] where c = ?".toList :=
    exists_of_map_eq_ok (by decide +kernel)
  have failed : mixed.render Engine.mySQL.writer .inline =
      .error (.mixedStyle ⟨.value, .index 0⟩ .named) :=
    eq_error_of_map_eq_error (f := Rendered.text) (by decide +kernel)
  have behind : slice.arguments.Extends
      (.positional ([.scalar (.signed 7)] ++ [.scalar .null, .list []])) :=
    .positional (List.cons_ne_nil _ _) _
  have under : mixed.arguments.Extends (.ofPairs
      [(['a'], .scalar (.signed 7)), (['c'], .list []), (['b'], .scalar .null)]) :=
    .named (List.forall_mem_cons.2 ⟨rfl, List.forall_mem_singleton.2 rfl⟩)
  refine ⟨rendered, compiled, text, ?_, failed, ?_⟩
  · rw [← compiled]
    exact render_extends _ _ behind (by rw [compiled]; exact nofun)
  · rw [← failed]
    exact render_extends _ _ under (by rw [failed]; exact nofun)

end Template

end SqlTemplate
