import SqlTemplate.Text.Quoting
import SqlTemplate.Placeholder

/-!
# Database engines

The ten engines whose SQL the library writes.  Each fixes the mark around
identifiers, the meaning of backslashes in strings, and the placeholders that
its drivers expect.
-/

namespace SqlTemplate

inductive Engine where
  | mySQL
  | postgreSQL
  | sqlite
  | sqlServer
  | cql
  | clickHouse
  | presto
  | oracle
  | informix
  | doris
  deriving DecidableEq

namespace Engine

def all : List Engine :=
  [.mySQL, .postgreSQL, .sqlite, .sqlServer, .cql, .clickHouse, .presto, .oracle, .informix,
   .doris]

theorem mem_all (engine : Engine) : engine ∈ all := by
  cases engine <;> decide

def name : Engine → String
  | .mySQL => "MySQL"
  | .postgreSQL => "PostgreSQL"
  | .sqlite => "SQLite"
  | .sqlServer => "SQLServer"
  | .cql => "CQL"
  | .clickHouse => "ClickHouse"
  | .presto => "Presto"
  | .oracle => "Oracle"
  | .informix => "Informix"
  | .doris => "Doris"

/-- The mark around identifiers. -/
def nameMark : Engine → QuoteMark
  | .mySQL | .clickHouse | .doris => .back
  | _ => .double

def stringRule : Engine → StringRule
  | .mySQL | .clickHouse | .doris => .backslash
  | .postgreSQL => .escapePrefixed
  | _ => .standard

theorem stringRule_ne_escapePrefixed {engine : Engine} (plain : engine ≠ .postgreSQL) :
    engine.stringRule ≠ .escapePrefixed := by
  cases engine <;> first | exact absurd rfl plain | exact StringRule.noConfusion

def placeholders : Engine → PlaceholderStyle
  | .postgreSQL => .dollar
  | .sqlServer => .atSign
  | .oracle => .colon
  | _ => .question

end Engine

end SqlTemplate
