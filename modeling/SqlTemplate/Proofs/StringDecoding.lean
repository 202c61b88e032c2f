import SqlTemplate.Engine.Literal

/-!
# Reading strings back

A database reads the literal of a string from its opening mark to the first
mark that ends it.  Without escapes a doubled mark stands for one mark and ends
nothing; with escapes a backslash gives the next character another meaning.
Reading a literal gives back the string that was written, and ends at its last
mark, whatever follows.
-/

namespace SqlTemplate

namespace Quoted

def unescape : Char → Char
  | '0' => '\x00'
  | 'b' => '\x08'
  | 'n' => '\n'
  | 'r' => '\x0d'
  | 't' => '\t'
  | 'Z' => '\x1a'
  | c => c

/-- The string in front of the first single mark, where two marks stand for one, and the rest. -/
def readDoubled : Text → Option (Text × Text)
  | [] => none
  | '\'' :: '\'' :: rest => (readDoubled rest).map (Prod.map ('\'' :: ·) id)
  | '\'' :: rest => some ([], rest)
  | c :: rest => (readDoubled rest).map (Prod.map (c :: ·) id)

/-- The string in front of the first mark without a backslash, and the rest. -/
def readEscaped : Text → Option (Text × Text)
  | [] => none
  | '\\' :: c :: rest => (readEscaped rest).map (Prod.map (unescape c :: ·) id)
  | '\'' :: rest => some ([], rest)
  | c :: rest => (readEscaped rest).map (Prod.map (c :: ·) id)

/-- The string that stands between marks at the start of a text, and the text behind them. -/
def decode? (rule : StringRule) : Text → Option (Text × Text)
  | '\'' :: body =>
      match rule with
      | .standard | .escapePrefixed => readDoubled body
      | .backslash => readEscaped body
  | _ => none

def letters : List (Char × Char) :=
  [('\x00', '0'), ('\x08', 'b'), ('\n', 'n'), ('\x0d', 'r'), ('\t', 't'), ('\x1a', 'Z')]

theorem mem_letters_of_letter? {c letter : Char} (written : letter? c = some letter) :
    (c, letter) ∈ letters := by
  grind [letter?, letters]

theorem unescape_of_letter? {c letter : Char} (written : letter? c = some letter) :
    unescape letter = c := by
  have table : ∀ pair ∈ letters, unescape pair.2 = pair.1 := by decide
  exact table (c, letter) (mem_letters_of_letter? written)

variable {rest : Text}

theorem readDoubled_mark (single : rest.head? ≠ some '\'') :
    readDoubled ('\'' :: rest) = some ([], rest) := by
  rw [readDoubled]
  rintro tail rfl
  exact single rfl

theorem readDoubled_plain {c : Char} (noMark : c ≠ '\'') (rest : Text) :
    readDoubled (c :: rest) = (readDoubled rest).map (Prod.map (c :: ·) id) := by
  rw [readDoubled]
  · exact fun _ mark _ => noMark mark
  · exact noMark

theorem readDoubled_double (value : Text) (single : rest.head? ≠ some '\'') :
    readDoubled (Text.double '\'' value ++ '\'' :: rest) = some (value, rest) := by
  induction value with
  | nil => exact readDoubled_mark single
  | cons c later ih =>
      rw [Text.double_cons]
      by_cases mark : c = '\''
      · subst mark
        change (readDoubled (Text.double '\'' later ++ '\'' :: rest)).map _ = _
        rw [ih]
        rfl
      · rw [if_neg mark]
        change readDoubled (c :: (Text.double '\'' later ++ '\'' :: rest)) = _
        rw [readDoubled_plain mark, ih]
        rfl

theorem readEscaped_plain {c : Char} (noMark : c ≠ '\'') (noSlash : c ≠ '\\') (rest : Text) :
    readEscaped (c :: rest) = (readEscaped rest).map (Prod.map (c :: ·) id) := by
  rw [readEscaped]
  · exact fun _ _ slash _ => noSlash slash
  · exact noMark

theorem readEscaped_escape (c : Char) (rest : Text) :
    readEscaped (escape c ++ rest) = (readEscaped rest).map (Prod.map (c :: ·) id) := by
  unfold escape
  cases written : letter? c with
  | some letter =>
      change (readEscaped rest).map (Prod.map (unescape letter :: ·) id) = _
      rw [unescape_of_letter? written]
  | none =>
      dsimp only
      split
      · next special =>
          have itself : unescape c = c := by
            rcases special with rfl | rfl | rfl <;> rfl
          change (readEscaped rest).map (Prod.map (unescape c :: ·) id) = _
          rw [itself]
      · next ordinary =>
          simp only [not_or] at ordinary
          exact readEscaped_plain ordinary.1 ordinary.2.2 rest

theorem readEscaped_flatMap (value rest : Text) :
    readEscaped (value.flatMap escape ++ '\'' :: rest) = some (value, rest) := by
  induction value with
  | nil => rfl
  | cons c later ih =>
      rw [List.flatMap_cons, List.append_assoc, readEscaped_escape, ih]
      rfl

def quote (rule : StringRule) (value : Text) : Text :=
  '\'' :: encode rule value ++ ['\'']

/-- What is quoted is read back, up to the last of its marks. -/
theorem decode?_quote_append {rule : StringRule} (plain : rule ≠ .escapePrefixed) (value : Text)
    (single : rest.head? ≠ some '\'') :
    decode? rule (quote rule value ++ rest) = some (value, rest) := by
  rw [quote, List.append_assoc]
  cases rule with
  | standard => exact readDoubled_double value single
  | backslash => exact readEscaped_flatMap value rest
  | escapePrefixed => exact absurd rfl plain

theorem decode?_quote {rule : StringRule} (plain : rule ≠ .escapePrefixed) (value : Text) :
    decode? rule (quote rule value) = some (value, []) := by
  have alone : ([] : Text).head? ≠ some '\'' := by simp
  have read := decode?_quote_append plain value alone
  rwa [List.append_nil] at read

theorem quote_injective {rule : StringRule} (plain : rule ≠ .escapePrefixed) :
    Function.Injective (quote rule) := by
  intro first second same
  have read := decode?_quote plain first
  rw [same, decode?_quote plain second] at read
  exact (Prod.mk.inj (Option.some.inj read)).1.symm

end Quoted

namespace Engine

theorem string_eq (engine : Engine) (value : Text) :
    engine.string value = engine.stringLead ++ Quoted.quote engine.stringRule value :=
  List.append_assoc _ _ _

/--
For engines without prefixed strings the literal of a string, behind the letter
that one engine puts in front, is read back as this string.  Its last mark is
the one that ends it, whatever follows, and no other string is written alike.
-/
theorem string_decodes {engine : Engine} (plain : engine ≠ .postgreSQL) (value : Text) :
    ∃ quoted : Text,
      engine.literal (.string value) =
          .ok ((if engine = .sqlServer then ['N'] else []) ++ quoted) ∧
        Quoted.decode? engine.stringRule quoted = some (value, []) ∧
        (∀ rest : Text, rest.head? ≠ some '\'' →
          Quoted.decode? engine.stringRule (quoted ++ rest) = some (value, rest)) ∧
        ∀ other, engine.literal (.string other) = engine.literal (.string value) →
          other = value := by
  have noPrefix := stringRule_ne_escapePrefixed plain
  have lead : engine.stringLead = if engine = .sqlServer then ['N'] else [] := by
    cases engine <;> first | rfl | exact absurd rfl plain
  refine ⟨Quoted.quote engine.stringRule value, ?_, Quoted.decode?_quote noPrefix value,
    fun rest single => Quoted.decode?_quote_append noPrefix value single, fun other same => ?_⟩
  · rw [literal, string_eq, lead]
  · have written := Except.ok.inj same
    rw [string_eq, string_eq] at written
    exact Quoted.quote_injective noPrefix (List.append_cancel_left written)

/-- A backslash, a mark, a control character and a backslash at the end are read back. -/
theorem string_decodes_mySQL :
    Engine.mySQL ≠ .postgreSQL ∧
      Engine.mySQL.literal (.string "a\\'\x1a\\".toList) = .ok "'a\\\\\\'\\Z\\\\'".toList ∧
      Quoted.decode? .backslash "'a\\\\\\'\\Z\\\\'".toList = some ("a\\'\x1a\\".toList, []) := by
  have other : Engine.mySQL ≠ .postgreSQL := by decide
  obtain ⟨quoted, written, decodes, -⟩ := string_decodes other "a\\'\x1a\\".toList
  have same : "'a\\\\\\'\\Z\\\\'".toList = quoted := Except.ok.inj written
  rw [← same] at decodes
  exact ⟨other, rfl, decodes⟩

end Engine

end SqlTemplate
