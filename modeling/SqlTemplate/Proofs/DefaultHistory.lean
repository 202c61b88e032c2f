import Mathlib.Data.List.Basic
import SqlTemplate.Engine.Default

/-!
# Programs that share a default engine

A program reads and sets the default engine, opens and leaves scopes, makes
templates and assigns engines to them, in any order.  At most one scope is open
at a time, because opening another one waits until the first is left.

What one action does is listed once.  From the list follows what every action
keeps: an open scope remembers the same engine until it is left, and a template
keeps its engine until another one is assigned to it.  Both are carried along
the whole history of a program.
-/

namespace SqlTemplate

/-- What a program does with the default engine and with its templates. -/
inductive Action where
  | read
  | set (engine : Engine)
  | enter (engine : Engine)
  | leave
  | create (text : Text) (arguments : Arguments Argument)
  /-- Assign an engine to a template; templates are numbered in the order of their creation. -/
  | assign (number : Nat) (engine : Engine)

namespace Action

def sets? : Action → Option Engine
  | .set engine | .enter engine => some engine
  | .read | .leave | .create .. | .assign .. => none

/-- The engine that is assigned to the template with a number. -/
def assigns? (number : Nat) : Action → Option Engine
  | .assign other engine => if other = number then some engine else none
  | .read | .set _ | .enter _ | .leave | .create .. => none

def asks : Action → Bool
  | .read | .set _ => true
  | .enter _ | .leave | .create .. | .assign .. => false

def creates : Action → Bool
  | .create .. => true
  | .read | .set _ | .enter _ | .leave | .assign .. => false

end Action

/-- The default engine, and the templates in the order of their creation. -/
structure Workspace where
  default : DefaultEngine := {}
  templates : List Template := []

namespace Workspace

/--
What an action tells and what it leaves, if it can be done.  No scope is opened
while another one is open, and only an open scope is left.
-/
def step (w : Workspace) : Action → Option (Option Engine × Workspace)
  | .read => some (some w.default.current, w)
  | .set engine =>
      let (old, default) := w.default.set engine
      some (some old, { w with default })
  | .enter engine =>
      if w.default.restored = [] then some (none, { w with default := w.default.enter engine })
      else none
  | .leave =>
      if w.default.restored = [] then none
      else some (none, { w with default := w.default.leave })
  | .create text arguments =>
      some (none, { w with templates := w.templates ++ [w.default.template text arguments] })
  | .assign number engine =>
      w.templates[number]?.map fun t =>
        (some t.engine, { w with templates := w.templates.set number (t.setEngine engine) })

def run (w : Workspace) : List Action → Option (List (Option Engine) × Workspace)
  | [] => some ([], w)
  | action :: rest =>
      (w.step action).bind fun first =>
        (run first.2 rest).map fun later => (first.1 :: later.1, later.2)

def defaultAfter (history : List Action) : Option Engine :=
  (run {} history).map fun result => result.2.default.current

/-- The ways in which an action can be done. -/
inductive Step (w : Workspace) : Action → Option Engine → Workspace → Prop where
  | read : Step w .read (some w.default.current) w
  | set (engine : Engine) :
      Step w (.set engine) (some w.default.current)
        { w with default := (w.default.set engine).2 }
  | enter (engine : Engine) (closed : w.default.restored = []) :
      Step w (.enter engine) none { w with default := w.default.enter engine }
  | leave {old : Engine} {outer : List Engine} (scope : w.default.restored = old :: outer) :
      Step w .leave none { w with default := w.default.leave }
  | create (text : Text) (arguments : Arguments Argument) :
      Step w (.create text arguments) none
        { w with templates := w.templates ++ [w.default.template text arguments] }
  | assign {number : Nat} {t : Template} (held : w.templates[number]? = some t)
      (engine : Engine) :
      Step w (.assign number engine) (some t.engine)
        { w with templates := w.templates.set number (t.setEngine engine) }

variable {w next last : Workspace} {action : Action} {history first second : List Action}
  {answer : Option Engine} {answers : List (Option Engine)}

theorem step_of_eq_some (done : w.step action = some (answer, next)) :
    Step w action answer next := by
  cases action with
  | read =>
      obtain ⟨rfl, rfl⟩ := Prod.mk.inj (Option.some.inj done)
      exact .read
  | set engine =>
      obtain ⟨rfl, rfl⟩ := Prod.mk.inj (Option.some.inj done)
      exact .set engine
  | enter engine =>
      simp only [step] at done
      split at done
      · next closed =>
          obtain ⟨rfl, rfl⟩ := Prod.mk.inj (Option.some.inj done)
          exact .enter engine closed
      · cases done
  | leave =>
      simp only [step] at done
      split at done
      · cases done
      · next opened =>
          obtain ⟨old, outer, scope⟩ := List.exists_cons_of_ne_nil opened
          obtain ⟨rfl, rfl⟩ := Prod.mk.inj (Option.some.inj done)
          exact .leave scope
  | create text arguments =>
      obtain ⟨rfl, rfl⟩ := Prod.mk.inj (Option.some.inj done)
      exact .create text arguments
  | assign number engine =>
      obtain ⟨t, held, same⟩ := Option.map_eq_some_iff.1 done
      obtain ⟨rfl, rfl⟩ := Prod.mk.inj same
      exact .assign held engine

namespace Step

theorem answer_eq (step : Step w action answer next) (asks : action.asks = true) :
    answer = some w.default.current := by
  cases step with
  | read => rfl
  | set engine => rfl
  | enter | leave | create | assign => cases asks

/-- Leaving a scope apart, the default is what an action sets, or stays as it is. -/
theorem current_eq (step : Step w action answer next) (stays : action ≠ .leave) :
    next.default.current = action.sets?.getD w.default.current := by
  cases step with
  | set engine => exact w.default.current_set engine
  | enter engine closed => exact w.default.current_enter engine
  | leave scope => exact absurd rfl stays
  | read | create | assign => rfl

theorem restored_eq {old : Engine} (step : Step w action answer next)
    (scope : w.default.restored = [old]) (stays : action ≠ .leave) :
    next.default.restored = [old] := by
  cases step with
  | enter engine closed =>
      rw [scope] at closed
      cases closed
  | leave scope => exact absurd rfl stays
  | read | set | create | assign => exact scope

theorem length_templates (step : Step w action answer next) :
    next.templates.length = w.templates.length + if action.creates then 1 else 0 := by
  cases step with
  | create text arguments => exact List.length_append
  | assign held engine => exact List.length_set
  | read | set | enter | leave => rfl

theorem template_eq {number : Nat} {t : Template} (step : Step w action answer next)
    (held : w.templates[number]? = some t) :
    next.templates[number]? = some (t.setEngine ((action.assigns? number).getD t.engine)) := by
  cases step with
  | create text arguments =>
      exact List.getElem?_append_left (List.getElem?_eq_some_iff.1 held).1 ▸ held
  | @assign other u here engine =>
      by_cases same : other = number
      · subst same
        obtain rfl := Option.some.inj (held.symm.trans here)
        have inside := (List.getElem?_eq_some_iff.1 held).1
        simp [Action.assigns?, inside]
      · have kept : t.setEngine t.engine = t := rfl
        simpa [Action.assigns?, same, List.getElem?_set_ne same, kept] using held
  | read | set | enter | leave => exact held

end Step

theorem run_cons_eq_some (ran : w.run (action :: history) = some (answers, last)) :
    ∃ answer next later, Step w action answer next ∧ next.run history = some (later, last) ∧
      answers = answer :: later := by
  obtain ⟨⟨answer, next⟩, done, behind⟩ := Option.bind_eq_some_iff.1 ran
  obtain ⟨⟨later, final⟩, rest, same⟩ := Option.map_eq_some_iff.1 behind
  obtain ⟨rfl, rfl⟩ := Prod.mk.inj same
  exact ⟨answer, next, later, step_of_eq_some done, rest, rfl⟩

theorem run_append (w : Workspace) (first second : List Action) :
    w.run (first ++ second) =
      (w.run first).bind fun front =>
        (front.2.run second).map fun back => (front.1 ++ back.1, back.2) := by
  induction first generalizing w with
  | nil => simp [run]
  | cons action rest ih =>
      rw [List.cons_append, run, run]
      cases w.step action with
      | none => rfl
      | some front =>
          simp only [Option.bind_some, ih]
          cases front.2.run rest with
          | none => rfl
          | some middle => simp [Function.comp_def]

theorem run_append_eq_some (ran : w.run (first ++ second) = some (answers, last)) :
    ∃ front middle back, w.run first = some (front, middle) ∧
      middle.run second = some (back, last) ∧ answers = front ++ back := by
  rw [run_append] at ran
  obtain ⟨⟨front, middle⟩, start, behind⟩ := Option.bind_eq_some_iff.1 ran
  obtain ⟨⟨back, final⟩, rest, same⟩ := Option.map_eq_some_iff.1 behind
  obtain ⟨rfl, rfl⟩ := Prod.mk.inj same
  exact ⟨front, middle, back, start, rest, rfl⟩

theorem length_answers (ran : w.run history = some (answers, last)) :
    answers.length = history.length := by
  induction history generalizing w answers with
  | nil =>
      obtain ⟨rfl, -⟩ := Prod.mk.inj (Option.some.inj ran)
      rfl
  | cons action rest ih =>
      obtain ⟨answer, next, later, -, behind, rfl⟩ := run_cons_eq_some ran
      rw [List.length_cons, List.length_cons, ih behind]

/-- An open scope remembers the same engine all along a history in which it is not left. -/
theorem restored_run {old : Engine} (ran : w.run history = some (answers, last))
    (scope : w.default.restored = [old]) (stays : .leave ∉ history) :
    last.default.restored = [old] := by
  induction history generalizing w answers with
  | nil =>
      obtain ⟨-, rfl⟩ := Prod.mk.inj (Option.some.inj ran)
      exact scope
  | cons action rest ih =>
      obtain ⟨answer, next, told, step, behind, -⟩ := run_cons_eq_some ran
      have here : action ≠ .leave := fun same => stays (same ▸ List.mem_cons_self)
      have later : .leave ∉ rest := fun member => stays (List.mem_cons_of_mem action member)
      exact ih behind (step.restored_eq scope here) later

theorem length_templates_run (ran : w.run history = some (answers, last)) :
    last.templates.length = w.templates.length + history.countP Action.creates := by
  induction history generalizing w answers with
  | nil =>
      obtain ⟨-, rfl⟩ := Prod.mk.inj (Option.some.inj ran)
      rfl
  | cons action rest ih =>
      obtain ⟨answer, next, later, step, behind, -⟩ := run_cons_eq_some ran
      rw [ih behind, step.length_templates, List.countP_cons]
      omega

/-- A template has the engine that was assigned to it last, or else the one it started with. -/
theorem template_run {number : Nat} {t : Template} (ran : w.run history = some (answers, last))
    (held : w.templates[number]? = some t) :
    last.templates[number]? =
      some (t.setEngine ((history.filterMap (Action.assigns? number)).getLast?.getD t.engine)) := by
  induction history generalizing w answers t with
  | nil =>
      obtain ⟨-, rfl⟩ := Prod.mk.inj (Option.some.inj ran)
      exact held
  | cons action rest ih =>
      obtain ⟨answer, next, later, step, behind, -⟩ := run_cons_eq_some ran
      rw [ih behind (step.template_eq held), List.filterMap_cons]
      cases action.assigns? number with
      | none => rfl
      | some engine => simp [Template.setEngine, List.getLast?_cons]

theorem run_at (ran : w.run (first ++ action :: second) = some (answers, last)) :
    ∃ front middle answer next back, w.run first = some (front, middle) ∧
      Step middle action answer next ∧
      w.run (first ++ [action]) = some (front ++ [answer], next) ∧
      next.run second = some (back, last) ∧ answers = front ++ answer :: back := by
  rw [List.append_cons] at ran
  obtain ⟨begin, next, back, start, rest, rfl⟩ := run_append_eq_some ran
  obtain ⟨front, middle, told, before, done, rfl⟩ := run_append_eq_some start
  obtain ⟨answer, _, _, step, stop, rfl⟩ := run_cons_eq_some done
  obtain ⟨rfl, rfl⟩ := Prod.mk.inj (Option.some.inj stop)
  exact ⟨front, middle, answer, _, back, before, step, start, rest, by simp⟩

theorem defaultAfter_eq (ran : run {} history = some (answers, last)) :
    defaultAfter history = some last.default.current := by
  rw [defaultAfter, ran]
  rfl

theorem defaultAfter_append {front back : List (Option Engine)}
    (start : run {} first = some (front, next)) (rest : next.run second = some (back, last)) :
    defaultAfter (first ++ second) = some last.default.current := by
  rw [defaultAfter, run_append, start, Option.bind_some, rest]
  rfl

/-- What a program can rely on behind a history, given what it was told on the way. -/
structure Reliable (history : List Action) (answers : List (Option Engine)) (last : Workspace) :
    Prop where
  /-- Reading and setting the default tell the default just before. -/
  told : ∀ before action after, history = before ++ action :: after → action.asks = true →
    answers[before.length]? = some (defaultAfter before)
  /-- The default is what is set, by itself or for a scope, and nothing else touches it. -/
  current : ∀ before action after, history = before ++ action :: after → action ≠ .leave →
    defaultAfter (before ++ [action]) = action.sets?.or (defaultAfter before)
  /-- Leaving a scope restores the default from before the scope, whatever is done inside. -/
  restored : ∀ before engine inside after,
    history = before ++ .enter engine :: (inside ++ .leave :: after) → .leave ∉ inside →
    defaultAfter (before ++ .enter engine :: (inside ++ [.leave])) = defaultAfter before
  /-- A template is made for the default, and later for the engine assigned to it last. -/
  engines : ∀ before text arguments after,
    history = before ++ .create text arguments :: after →
    ∃ engine, last.templates[before.countP Action.creates]? = some { text, arguments, engine } ∧
      some engine =
        (after.filterMap (Action.assigns? (before.countP Action.creates))).getLast?.or
          (defaultAfter before)

/--
In every history each reading and each setting of the default tells the default
just before, leaving a scope restores the default from just before the scope,
and every template has the engine that was assigned to it last, or else the
default from the moment of its creation.
-/
theorem reliable_of_run (ran : run {} history = some (answers, last)) :
    Reliable history answers last := by
  refine ⟨?_, ?_, ?_, ?_⟩
  · rintro before action after rfl asks
    obtain ⟨front, middle, answer, next, back, start, step, -, -, rfl⟩ := run_at ran
    rw [← length_answers start, List.getElem?_append_right (Nat.le_refl _), Nat.sub_self,
      List.getElem?_cons_zero, step.answer_eq asks, defaultAfter_eq start]
  · rintro before action after rfl stays
    obtain ⟨front, middle, answer, next, back, start, step, done, -, -⟩ := run_at ran
    rw [defaultAfter_eq start, defaultAfter_eq done, step.current_eq stays, Option.or_some]
  · rintro before engine inside after rfl stays
    obtain ⟨front, middle, answer, next, back, start, opening, opened, rest, -⟩ := run_at ran
    obtain ⟨told, inner, _, outer, _, within, closing, done, -, -⟩ := run_at rest
    cases opening with
    | enter engine closed =>
        -- No other scope is open, so there is just the one engine to be remembered.
        have scope : (middle.default.enter engine).restored = [middle.default.current] := by
          rw [DefaultEngine.restored_enter, closed]
        have remembers := restored_run within scope stays
        cases closing with
        | leave =>
            rw [List.append_cons, defaultAfter_append opened done, defaultAfter_eq start]
            exact congrArg some (inner.default.current_leave remembers)
  · rintro before text arguments after rfl
    obtain ⟨front, middle, answer, next, back, start, step, -, rest, -⟩ := run_at ran
    have number : middle.templates.length = before.countP Action.creates := by
      simpa using length_templates_run start
    cases step with
    | create text arguments =>
        -- The new template comes behind all others, so its number is how many there are.
        have held : (middle.templates ++ [middle.default.template text arguments])[
            before.countP Action.creates]? = some (middle.default.template text arguments) := by
          rw [← number, List.getElem?_concat_length]
        refine ⟨_, template_run rest held, ?_⟩
        rw [defaultAfter_eq start, Option.or_some]
        rfl

/-- Templates before, inside and behind a scope in which the default is set again. -/
def interleaved : List Action :=
  [.set .oracle, .create ['?'] .none, .enter .postgreSQL, .create ['a'] .none, .set .doris,
   .assign 0 .cql, .create ['b'] .none, .leave, .create ['c'] .none, .assign 2 .presto,
   .assign 2 .sqlite, .read]

/-- Leaving the scope restores the default, and the templates made inside keep their engines. -/
theorem reliable_interleaved :
    ∃ answers last, run {} interleaved = some (answers, last) ∧ Reliable interleaved answers last ∧
      answers.filterMap id = [.mySQL, .postgreSQL, .oracle, .doris, .presto, .oracle] ∧
      last.templates.map Template.engine = [.cql, .postgreSQL, .sqlite, .oracle] := by
  refine ⟨_, _, rfl, reliable_of_run rfl, ?_, ?_⟩
  · decide
  · decide

end Workspace

end SqlTemplate
