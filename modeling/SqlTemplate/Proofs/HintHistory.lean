import SqlTemplate.Proofs.LastWrites
import SqlTemplate.Template.Basic

/-!
# Hints that are set one after the other

After a template is made, hints are set on it, one at a time or several at once,
and its engine is exchanged.  What is kept of this history is, for every key, the
hint that was written last.  A step writes its pairs behind all earlier ones, and
this is carried along the history.

A second template goes through the same history, except that it gets no hints.
The two differ in nothing that is rendered.
-/

namespace SqlTemplate

inductive Setting where
  | hints (pairs : List (Text × Datum))
  | hint (key : Text) (value : Datum)
  | engine (other : Engine)

namespace Setting

def apply (t : Template) : Setting → Template
  | .hints pairs => t.setHints pairs
  | .hint key value => t.setHint key value
  | .engine other => t.setEngine other

def writes : Setting → List (Text × Datum)
  | .hints pairs => pairs
  | .hint key value => [(key, value)]
  | .engine _ => []

def choosesEngine : Setting → Bool
  | .hints _ | .hint .. => false
  | .engine _ => true

end Setting

/--
What hints keep of the pairs that were written: one entry for every key, in
increasing order of the keys, with the value that was written last.
-/
structure Hints.Record (hints : Hints) (writes : List (Text × Datum)) : Prop where
  increasing : hints.entries.Pairwise fun first second => first.1.precedes second.1 = true
  holds : KeyMap.Holds hints.entries writes
  counted : hints.size = (writes.map Prod.fst).dedup.length
  found : ∀ key, hints.find? key = KeyMap.last key writes

namespace Hints

variable {hints : Hints} {writes : List (Text × Datum)}

theorem Record.of_find? (found : ∀ key, hints.find? key = KeyMap.last key writes) :
    hints.Record writes := by
  have holds : KeyMap.Holds hints.entries writes := hints.sorted.holds found
  exact ⟨hints.sorted, holds, holds.length_eq, found⟩

theorem record_entries (hints : Hints) : hints.Record hints.entries :=
  .of_find? fun _ => (KeyMap.last_eq_find? hints.sorted.distinct).symm

theorem Record.insertAll (kept : hints.Record writes) (pairs : List (Text × Datum)) :
    (hints.insertAll pairs).Record (writes ++ pairs) := by
  refine .of_find? fun key => ?_
  have before : KeyMap.find? key hints.entries = KeyMap.last key writes := kept.found key
  rw [KeyMap.last_append, ← before]
  exact KeyMap.find?_insertAll key pairs hints.entries

theorem Record.insert (kept : hints.Record writes) (key : Text) (value : Datum) :
    (hints.insert key value).Record (writes ++ [(key, value)]) :=
  kept.insertAll [(key, value)]

end Hints

/-- Templates that differ at most in their hints. -/
structure Template.SameButHints (t u : Template) : Prop where
  text : t.text = u.text
  arguments : t.arguments = u.arguments
  engine : t.engine = u.engine

namespace Setting

variable {t u : Template} {writes : List (Text × Datum)}

theorem record (setting : Setting) (kept : t.hints.Record writes) :
    (setting.apply t).hints.Record (writes ++ setting.writes) := by
  cases setting with
  | hints pairs => exact kept.insertAll pairs
  | hint key value => exact kept.insert key value
  | engine other =>
      rw [Setting.writes, List.append_nil]
      exact kept

/-- A setting of hints can be left out on one side. -/
theorem sameButHints (setting : Setting) (same : t.SameButHints u) :
    (setting.apply t).SameButHints
      (([setting].filter choosesEngine).foldl apply u) := by
  cases setting with
  | hints pairs => exact ⟨same.text, same.arguments, same.engine⟩
  | hint key value => exact ⟨same.text, same.arguments, same.engine⟩
  | engine other => exact ⟨same.text, same.arguments, rfl⟩

end Setting

namespace Template

variable {t u : Template} {writes : List (Text × Datum)}

def configure (t : Template) (settings : List Setting) : Template :=
  settings.foldl Setting.apply t

theorem record_configure (kept : t.hints.Record writes) (settings : List Setting) :
    (t.configure settings).hints.Record (writes ++ settings.flatMap Setting.writes) := by
  induction settings generalizing t writes with
  | nil =>
      rw [List.flatMap_nil, List.append_nil]
      exact kept
  | cons setting rest ih =>
      rw [List.flatMap_cons, ← List.append_assoc]
      exact ih (setting.record kept)

theorem SameButHints.configure (same : t.SameButHints u) (settings : List Setting) :
    (t.configure settings).SameButHints
      (u.configure (settings.filter Setting.choosesEngine)) := by
  induction settings generalizing t u with
  | nil => exact same
  | cons setting rest ih =>
      have split : (setting :: rest).filter Setting.choosesEngine =
          [setting].filter Setting.choosesEngine ++ rest.filter Setting.choosesEngine :=
        List.filter_append (p := Setting.choosesEngine) [setting] rest
      rw [split, Template.configure, Template.configure, List.foldl_append]
      exact ih (setting.sameButHints same)

theorem SameButHints.render (same : t.SameButHints u) (writer : Writer) (mode : Mode) :
    t.render writer mode = u.render writer mode := by
  rw [Template.render, Template.render, toArgument, toArgument, same.text, same.arguments]

/-- A statement carries the hints of its template, and owes them nothing else. -/
theorem SameButHints.compileWith (same : t.SameButHints u) (writer : Writer) :
    t.compileWith writer =
      (u.compileWith writer).map fun compiled => { compiled with hints := t.hints } := by
  rw [Template.compileWith, Template.compileWith, same.render]
  cases u.render writer .parameterized <;> rfl

theorem SameButHints.inlineWith (same : t.SameButHints u) (writer : Writer) :
    t.inlineWith writer = u.inlineWith writer := by
  rw [Template.inlineWith, Template.inlineWith, same.render]

/--
After any history a template has the hints that were written last, and telling
what a hint replaces tells what was written last; for every writer it compiles as
it would without any hints, except that the statement carries them.
-/
theorem hints_keep_last_writes (t : Template) (settings : List Setting) :
    let configured := t.configure settings
    let bare := { t with hints := .empty }.configure (settings.filter Setting.choosesEngine)
    let writes := t.hints.entries ++ settings.flatMap Setting.writes
    configured.hints.Record writes ∧
      (∀ key value,
        (configured.hints.replace key value).1 = KeyMap.last key writes ∧
          (configured.hints.replace key value).2.Record (writes ++ [(key, value)])) ∧
      ∀ writer,
        configured.compileWith writer = (bare.compileWith writer).map
            (fun compiled => { compiled with hints := configured.hints }) ∧
          configured.inlineWith writer = bare.inlineWith writer := by
  have kept := record_configure t.hints.record_entries settings
  have start : t.SameButHints { t with hints := .empty } := ⟨rfl, rfl, rfl⟩
  have same := start.configure settings
  exact ⟨kept, fun key value => ⟨kept.found key, kept.insert key value⟩,
    fun writer => ⟨same.compileWith writer, same.inlineWith writer⟩⟩

end Template

end SqlTemplate
