import SqlTemplate.CompileError
import SqlTemplate.Literal.Quoted
import SqlTemplate.Literal.Timestamp
import SqlTemplate.Number.Plain

/-!
# Literals of an engine

How each engine writes truth values, strings, bytes and moments.  Two engines
have no literal for bytes, and none has one for numbers that are not finite.
-/

namespace SqlTemplate

namespace Engine

/-- Truth values are words, or digits where the engine has no such words. -/
def boolean (engine : Engine) (value : Bool) : Text :=
  match engine, value with
  | .oracle, true | .sqlServer, true => ['1']
  | .oracle, false | .sqlServer, false => ['0']
  | _, true => "TRUE".toList
  | _, false => "FALSE".toList

/-- What stands before the opening mark of a string. -/
def stringLead : Engine → Text
  | .postgreSQL => ['E']
  | .sqlServer => ['N']
  | _ => []

def string (engine : Engine) (value : Text) : Text :=
  engine.stringLead ++ '\'' :: Quoted.encode engine.stringRule value ++ ['\'']

/-- The text before and behind the hexadecimal digits of bytes, if there is such a literal. -/
def bytesFrame? : Engine → Option (String × String)
  | .postgreSQL => some ("E'\\\\x", "'::bytea")
  | .mySQL | .sqlite => some ("X'", "'")
  | .sqlServer | .cql => some ("0x", "")
  | .clickHouse => some ("unhex('", "')")
  | .presto => some ("from_hex('", "')")
  | .oracle => some ("hextoraw('", "')")
  | .informix | .doris => none

def bytes? (engine : Engine) (value : List UInt8) : Option Text :=
  engine.bytesFrame?.map fun frame => frame.1.toList ++ Text.hex value ++ frame.2.toList

def timestampForm : Engine → TimestampForm
  | .mySQL | .clickHouse | .informix | .doris => ⟨['\''], 6, .absent, ['\'']⟩
  | .postgreSQL => ⟨['\''], 6, .abbreviation, ['\'']⟩
  | .sqlite | .presto => ⟨['\''], 3, .absent, ['\'']⟩
  | .sqlServer => ⟨['\''], 6, .offset, ['\'']⟩
  | .cql => ⟨['\''], 6, .compactOffset, ['\'']⟩
  | .oracle =>
      ⟨"to_timestamp('".toList, 6, .absent, "', 'YYYY-MM-DD HH24:MI:SS.FF')".toList⟩

def literal (engine : Engine) : Scalar → Except CompileError Text
  | .null => .ok "NULL".toList
  | .boolean value => .ok (engine.boolean value)
  | .signed value => .ok (Text.integer value.toInt)
  | .unsigned value => .ok (Text.natural value.toNat)
  | .float value =>
      if value.isFinite then .ok value.plain else .error (.noLiteral engine .float)
  | .string value => .ok (engine.string value)
  | .bytes value =>
      match engine.bytes? value with
      | some text => .ok text
      | none => .error (.noLiteral engine .bytes)
  | .moment value =>
      match Timestamp.write? engine.timestampForm value with
      | some text => .ok text
      | none => .error .calendarExceeded

end Engine

end SqlTemplate
