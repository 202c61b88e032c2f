import SqlTemplate.Proofs.StringDecoding

/-!
# Reading prefixed strings back

A prefixed string denotes bytes.  A backslash gives some letters and all digits
behind it a meaning: control characters, bytes in octal notation, and code
points in hexadecimal notation.  Any other character behind a backslash stands
for itself, and so does every character without one.  The literals are written
with the letters of other engines, one of which has no meaning here: the
substitute character, written `\Z`, is read back as the letter.
-/

namespace SqlTemplate

namespace PrefixedString

def digit? (base : Nat) (c : Char) : Option Nat :=
  (['0', '1', '2', '3', '4', '5', '6', '7', '8', '9', 'a', 'b', 'c', 'd', 'e', 'f'].idxOf?
    c.toLower).filter (· < base)

/-- The digits at the start of a text, at most as many as a limit, and the text behind them. -/
def digits (base : Nat) : Nat → Text → List Nat × Text
  | 0, text => ([], text)
  | _ + 1, [] => ([], [])
  | limit + 1, c :: rest =>
      match digit? base c with
      | none => ([], c :: rest)
      | some value => (digits base limit rest).map (value :: ·) id

def number (base : Nat) (values : List Nat) : Nat :=
  values.foldl (fun n value => base * n + value) 0

def codePoint? (n : Nat) : Option (List UInt8) :=
  if n.isValidChar then some (String.utf8EncodeChar (Char.ofNat n)) else none

/-- A code point in a fixed number of hexadecimal digits, and the text behind it. -/
def readCodePoint (length : Nat) (text : Text) : Option (List UInt8 × Text) :=
  let (values, rest) := digits 16 length text
  if values.length = length then (codePoint? (number 16 values)).map (·, rest) else none

/-- A code point in at most two hexadecimal digits; without digits the letter stands for itself. -/
def readHexadecimal (text : Text) : Option (List UInt8 × Text) :=
  match digits 16 2 text with
  | ([], _) => some (String.utf8EncodeChar 'x', text)
  | (values, rest) => (codePoint? (number 16 values)).map (·, rest)

/-- A byte in at most three octal digits; without digits a character stands for itself. -/
def readOctal (c : Char) (text : Text) : Option (List UInt8 × Text) :=
  match digits 8 3 (c :: text) with
  | ([], _) => some (String.utf8EncodeChar c, text)
  | (values, rest) => some ([UInt8.ofNat (number 8 values)], rest)

/-- The bytes that a backslash in front of a text stands for, and the text behind them. -/
def readEscape : Text → Option (List UInt8 × Text)
  | [] => none
  | 'b' :: rest => some ([8], rest)
  | 'f' :: rest => some ([12], rest)
  | 'n' :: rest => some ([10], rest)
  | 'r' :: rest => some ([13], rest)
  | 't' :: rest => some ([9], rest)
  | 'u' :: rest => readCodePoint 4 rest
  | 'U' :: rest => readCodePoint 8 rest
  | 'x' :: rest => readHexadecimal rest
  | c :: rest => readOctal c rest

theorem length_digits_le (base limit : Nat) (text : Text) :
    (digits base limit text).2.length ≤ text.length := by
  induction limit generalizing text with
  | zero => exact Nat.le_refl _
  | succ limit ih =>
      cases text with
      | nil => exact Nat.le_refl _
      | cons c rest =>
          rw [digits]
          cases digit? base c with
          | none => exact Nat.le_refl _
          | some value => exact Nat.le_succ_of_le (ih rest)

theorem length_readCodePoint_le {length : Nat} {text behind : Text} {bytes : List UInt8}
    (read : readCodePoint length text = some (bytes, behind)) :
    behind.length ≤ text.length := by
  unfold readCodePoint at read
  dsimp only at read
  split at read
  · obtain ⟨unit, -, same⟩ := Option.map_eq_some_iff.1 read
    obtain ⟨-, rfl⟩ := Prod.mk.inj same
    exact length_digits_le 16 length text
  · cases read

theorem length_readHexadecimal_le {text behind : Text} {bytes : List UInt8}
    (read : readHexadecimal text = some (bytes, behind)) : behind.length ≤ text.length := by
  unfold readHexadecimal at read
  have shorter := length_digits_le 16 2 text
  split at read
  · obtain ⟨-, rfl⟩ := Prod.mk.inj (Option.some.inj read)
    exact Nat.le_refl _
  · next values rest split =>
      obtain ⟨unit, -, same⟩ := Option.map_eq_some_iff.1 read
      obtain ⟨-, rfl⟩ := Prod.mk.inj same
      rwa [split] at shorter

theorem length_readOctal_le {c : Char} {text behind : Text} {bytes : List UInt8}
    (read : readOctal c text = some (bytes, behind)) : behind.length ≤ (c :: text).length := by
  unfold readOctal at read
  have shorter := length_digits_le 8 3 (c :: text)
  split at read
  · obtain ⟨-, rfl⟩ := Prod.mk.inj (Option.some.inj read)
    exact Nat.le_succ _
  · next values rest split =>
      obtain ⟨-, rfl⟩ := Prod.mk.inj (Option.some.inj read)
      rwa [split] at shorter

theorem length_readEscape_le {text behind : Text} {bytes : List UInt8}
    (read : readEscape text = some (bytes, behind)) : behind.length ≤ text.length := by
  have letter {c : Char} {rest : Text} {unit : List UInt8}
      (same : some (unit, rest) = some (bytes, behind)) : behind.length ≤ (c :: rest).length := by
    obtain ⟨-, rfl⟩ := Prod.mk.inj (Option.some.inj same)
    exact Nat.le_succ _
  unfold readEscape at read
  split at read
  · cases read
  · exact letter read
  · exact letter read
  · exact letter read
  · exact letter read
  · exact letter read
  · exact Nat.le_succ_of_le (length_readCodePoint_le read)
  · exact Nat.le_succ_of_le (length_readCodePoint_le read)
  · exact Nat.le_succ_of_le (length_readHexadecimal_le read)
  · exact length_readOctal_le read

/-- The bytes up to the mark that ends a string, and the text behind the mark. -/
def readBody : Text → Option (List UInt8 × Text)
  | [] => none
  | '\'' :: '\'' :: rest => (readBody rest).map (Prod.map (String.utf8EncodeChar '\'' ++ ·) id)
  | '\'' :: rest => some ([], rest)
  | '\\' :: rest =>
      match _read : readEscape rest with
      | none => none
      | some (bytes, behind) => (readBody behind).map (Prod.map (bytes ++ ·) id)
  | c :: rest => (readBody rest).map (Prod.map (String.utf8EncodeChar c ++ ·) id)
termination_by text => text.length
decreasing_by
  all_goals simp only [List.length_cons]
  · omega
  · have := length_readEscape_le _read
    omega
  · omega

/-- The string that a text denotes that is one prefixed string from its first to its last character. -/
def denoted? : Text → Option Text
  | 'E' :: '\'' :: body | 'e' :: '\'' :: body =>
      match readBody body with
      | some (bytes, []) => bytes.toByteArray.utf8Decode?.map Array.toList
      | _ => none
  | _ => none

/-- What is read back where a character was written. -/
def readBack (c : Char) : Char :=
  if c = '\x1a' then 'Z' else c

theorem readBack_eq_self_iff {c : Char} : readBack c = c ↔ c ≠ '\x1a' := by
  unfold readBack
  split
  · next same =>
      subst same
      decide
  · next other => exact iff_of_true rfl other

theorem map_readBack_eq_self_iff {value : Text} :
    value.map readBack = value ↔ '\x1a' ∉ value := by
  constructor
  · intro same member
    rw [← List.map_id value, List.map_map] at same
    have here := List.map_inj_left.1 same '\x1a' member
    exact absurd here (by decide)
  · intro absent
    have itself : ∀ c ∈ value, readBack c = id c := fun c member =>
      readBack_eq_self_iff.2 fun same => absent (same ▸ member)
    rw [List.map_congr_left itself, List.map_id]

theorem readEscape_letter {c letter : Char} (written : Quoted.letter? c = some letter)
    (noNull : c ≠ '\x00') (rest : Text) :
    readEscape (letter :: rest) = some (String.utf8EncodeChar (readBack c), rest) := by
  have table : ∀ pair ∈ Quoted.letters, pair.1 ≠ '\x00' →
      readEscape (pair.2 :: rest) = some (String.utf8EncodeChar (readBack pair.1), rest) := by
    simp only [Quoted.letters, List.forall_mem_cons]
    exact ⟨fun null => absurd rfl null, fun _ => rfl, fun _ => rfl, fun _ => rfl, fun _ => rfl,
      fun _ => rfl, by simp⟩
  exact table (c, letter) (Quoted.mem_letters_of_letter? written) noNull

variable {rest : Text}

theorem readBody_mark (single : rest.head? ≠ some '\'') :
    readBody ('\'' :: rest) = some ([], rest) := by
  rw [readBody]
  rintro tail rfl
  exact single rfl

theorem readBody_plain {c : Char} (noMark : c ≠ '\'') (noSlash : c ≠ '\\') (rest : Text) :
    readBody (c :: rest) =
      (readBody rest).map (Prod.map (String.utf8EncodeChar c ++ ·) id) := by
  rw [readBody]
  · exact fun _ mark _ => noMark mark
  · exact noMark
  · exact noSlash

theorem readBody_backslash {text behind : Text} {bytes : List UInt8}
    (read : readEscape text = some (bytes, behind)) :
    readBody ('\\' :: text) = (readBody behind).map (Prod.map (bytes ++ ·) id) := by
  rw [readBody]
  split
  · next nothing => rw [read] at nothing; cases nothing
  · next other later same =>
      obtain ⟨rfl, rfl⟩ := Prod.mk.inj (Option.some.inj (read.symm.trans same))
      rfl

theorem readBody_escape {c : Char} (noNull : c ≠ '\x00') (rest : Text) :
    readBody (Quoted.escape c ++ rest) =
      (readBody rest).map (Prod.map (String.utf8EncodeChar (readBack c) ++ ·) id) := by
  unfold Quoted.escape
  cases written : Quoted.letter? c with
  | some letter => exact readBody_backslash (readEscape_letter written noNull rest)
  | none =>
      have itself : readBack c = c := by
        apply readBack_eq_self_iff.2
        rintro rfl
        cases written
      rw [itself]
      dsimp only
      split
      · next special =>
          rcases special with rfl | rfl | rfl
          · exact readBody_backslash rfl
          · exact readBody_backslash rfl
          · exact readBody_backslash rfl
      · next ordinary =>
          simp only [not_or] at ordinary
          exact readBody_plain ordinary.1 ordinary.2.2 rest

theorem readBody_flatMap {value : Text} (noNull : '\x00' ∉ value)
    (single : rest.head? ≠ some '\'') :
    readBody (value.flatMap Quoted.escape ++ '\'' :: rest) =
      some ((value.map readBack).flatMap String.utf8EncodeChar, rest) := by
  induction value with
  | nil => exact readBody_mark single
  | cons c later ih =>
      rw [List.mem_cons, not_or] at noNull
      obtain ⟨here, behind⟩ := noNull
      rw [List.flatMap_cons, List.append_assoc, readBody_escape (Ne.symm here), ih behind]
      rfl

/-- The literal of a string denotes the string with letters for substitute characters. -/
theorem denoted?_string {value : Text} (noNull : '\x00' ∉ value) :
    denoted? (Engine.postgreSQL.string value) = some (value.map readBack) := by
  have alone : ([] : Text).head? ≠ some '\'' := by simp
  have body := readBody_flatMap noNull alone
  have decoded : ((value.map readBack).flatMap String.utf8EncodeChar).toByteArray.utf8Decode? =
      some (value.map readBack).toArray := List.utf8Decode?_utf8Encode
  change (match readBody (value.flatMap Quoted.escape ++ ['\'']) with
    | some (bytes, []) => bytes.toByteArray.utf8Decode?.map Array.toList
    | _ => none) = _
  rw [body]
  dsimp only
  rw [decoded]
  rfl

end PrefixedString

/--
The literal that is written for a string with a prefix is one prefixed string.
It denotes this string exactly when no substitute character is in it, and else
the string with the letter `Z` in the place of each.
-/
theorem Engine.string_denotes_iff {value : Text} (noNull : '\x00' ∉ value) :
    ∃ written, Engine.postgreSQL.literal (.string value) = .ok written ∧
      PrefixedString.denoted? written = some (value.map PrefixedString.readBack) ∧
      (PrefixedString.denoted? written = some value ↔ '\x1a' ∉ value) := by
  have read := PrefixedString.denoted?_string noNull
  refine ⟨_, rfl, read, ?_⟩
  rw [read, Option.some_inj, PrefixedString.map_readBack_eq_self_iff]

/-- Marks, backslashes and digits behind them are read back. -/
theorem Engine.string_denotes_marks :
    '\x00' ∉ "C:\\101'\x08\"".toList ∧
      Engine.postgreSQL.literal (.string "C:\\101'\x08\"".toList) =
        .ok "E'C:\\\\101\\'\\b\\\"'".toList ∧
      PrefixedString.denoted? "E'C:\\\\101\\'\\b\\\"'".toList =
        some "C:\\101'\x08\"".toList := by
  have noNull : '\x00' ∉ "C:\\101'\x08\"".toList := by decide
  obtain ⟨written, literal, -, denotes⟩ := string_denotes_iff noNull
  have same : "E'C:\\\\101\\'\\b\\\"'".toList = written := Except.ok.inj literal
  rw [← same] at denotes
  exact ⟨noNull, rfl, denotes.2 (by decide)⟩

/-- The substitute character is written with a letter that means nothing but itself here. -/
theorem Engine.substitute_lost :
    '\x00' ∉ ['\x1a'] ∧
      Engine.postgreSQL.literal (.string ['\x1a']) = .ok "E'\\Z'".toList ∧
      PrefixedString.denoted? "E'\\Z'".toList = some ['Z'] ∧
      PrefixedString.denoted? "E'\\Z'".toList ≠ some ['\x1a'] := by
  have noNull : '\x00' ∉ ['\x1a'] := by decide
  have read : PrefixedString.denoted? "E'\\Z'".toList = some ['Z'] :=
    PrefixedString.denoted?_string noNull
  refine ⟨noNull, rfl, read, ?_⟩
  rw [read]
  decide

end SqlTemplate
