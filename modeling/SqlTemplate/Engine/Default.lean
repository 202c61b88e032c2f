import SqlTemplate.Template.Basic

/-!
# The default engine

New templates are made for the engine that is the default at that time.  The
default is kept in a cell of one byte.  A scope changes the default until it is
left, and leaving it restores the default from before, whatever was set in
between.
-/

namespace SqlTemplate

namespace Engine

def code : Engine → UInt8
  | .mySQL => 0
  | .postgreSQL => 1
  | .sqlite => 2
  | .sqlServer => 3
  | .cql => 4
  | .clickHouse => 5
  | .presto => 6
  | .oracle => 7
  | .informix => 8
  | .doris => 9

/-- The engine that a byte stands for; a byte without a meaning stands for the first one. -/
def ofCode : UInt8 → Engine
  | 0 => .mySQL
  | 1 => .postgreSQL
  | 2 => .sqlite
  | 3 => .sqlServer
  | 4 => .cql
  | 5 => .clickHouse
  | 6 => .presto
  | 7 => .oracle
  | 8 => .informix
  | 9 => .doris
  | _ => .mySQL

@[simp] theorem ofCode_code (engine : Engine) : ofCode engine.code = engine := by
  cases engine <;> decide

end Engine

/-- The cell of the default engine, and the engines to be restored when the open scopes are left. -/
structure DefaultEngine where
  cell : UInt8 := Engine.mySQL.code
  restored : List Engine := []
  deriving DecidableEq

namespace DefaultEngine

def current (d : DefaultEngine) : Engine :=
  .ofCode d.cell

def set (d : DefaultEngine) (engine : Engine) : Engine × DefaultEngine :=
  (d.current, { d with cell := engine.code })

/-- Open a scope with a default of its own; it remembers the default that it replaces. -/
def enter (d : DefaultEngine) (engine : Engine) : DefaultEngine :=
  let (old, changed) := d.set engine
  { changed with restored := old :: d.restored }

/-- Leave the innermost scope, if one is open, and set the default that it remembers. -/
def leave (d : DefaultEngine) : DefaultEngine :=
  match d.restored with
  | [] => d
  | old :: outer => { (d.set old).2 with restored := outer }

def template (d : DefaultEngine) (text : Text) (arguments : Arguments Argument) : Template :=
  { text, arguments, engine := d.current }

variable (d : DefaultEngine) (engine : Engine)

@[simp] theorem current_set : (d.set engine).2.current = engine :=
  engine.ofCode_code

@[simp] theorem current_enter : (d.enter engine).current = engine :=
  engine.ofCode_code

@[simp] theorem restored_enter : (d.enter engine).restored = d.current :: d.restored := rfl

theorem current_leave {old : Engine} {outer : List Engine} (scope : d.restored = old :: outer) :
    d.leave.current = old := by
  rw [leave, scope]
  exact old.ofCode_code

end DefaultEngine

end SqlTemplate
