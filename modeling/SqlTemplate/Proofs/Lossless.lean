import Mathlib.Data.List.Chain
import SqlTemplate.Proofs.Octets

/-!
# Reading loses nothing

The tokens of a text spell the text.  Literal text is neither empty nor cut in
two, names are names, and positions are counted without a gap.  Reading is the
same byte by byte, and so the parts of a text that tokens carry begin and end
between two characters of its encoding.
-/

namespace SqlTemplate

namespace Lexeme

variable {rule : StringRule} {state : QuoteState} {text : Text} {lexemes : List Lexeme}

theorem exists_reads_of_mem_list {lexeme : Lexeme} (member : lexeme ∈ list rule state text) :
    (∃ c, lexeme = .plain [c]) ∨ ∃ c behind rest, Reads c behind lexeme rest := by
  induction state, text using list.induct rule with
  | case1 state =>
      rw [list] at member
      cases member
  | case2 state c rest covers ih =>
      rw [list_covered covers] at member
      rcases List.mem_cons.1 member with here | later
      · exact .inl ⟨c, here⟩
      · exact ih later
  | case3 state c rest covers ih =>
      rw [list, if_neg covers] at member
      rcases List.mem_cons.1 member with rfl | later
      · exact .inr ⟨c, rest, (read c rest).2, reads_read c rest⟩
      · exact ih later

theorem plain_ne_nil_of_mem_list {piece : Text} (member : .plain piece ∈ list rule state text) :
    piece ≠ [] := by
  rcases exists_reads_of_mem_list member with ⟨c, same⟩ | ⟨c, behind, rest, reads⟩
  · obtain rfl := plain.inj same
    exact List.cons_ne_nil c []
  · cases reads with
    | colons => exact List.cons_ne_nil _ _
    | plain => exact List.cons_ne_nil _ _

theorem spelling_ne_nil_of_mem_list {lexeme : Lexeme} (member : lexeme ∈ list rule state text) :
    lexeme.spelling ≠ [] := by
  cases lexeme with
  | plain piece => exact plain_ne_nil_of_mem_list member
  | escaped | positional | named => exact spelling_ne_nil nofun

end Lexeme

namespace Token

/-- Tokens that are a text without loss, each literal as long as it can be. -/
structure Lossless (text : Text) (tokens : List Token) : Prop where
  spelled : spell tokens = text
  nonempty : ∀ piece, .literal piece ∈ tokens → piece ≠ []
  apart : tokens.IsChain fun first second => first.IsLiteral → ¬ second.IsLiteral
  named : ∀ role word, .marker ⟨role, .name word⟩ ∈ tokens → word.IsName
  counted : ∃ count, tokens.filterMap position? = List.range count

/-- The part of a text that a token carries, literal text or a name, with the place of its start. -/
def slice? (start : Nat) : Token → Option (Nat × Text)
  | .literal text => some (start, text)
  | .marker ⟨_, .name word⟩ => some (start + 1, word)
  | .marker ⟨_, .index _⟩ | .escaped _ => none

def slices (start : Nat) : List Token → List (Nat × Text)
  | [] => []
  | token :: rest => (token.slice? start).toList ++ slices (start + token.spelling.length) rest

variable {text piece : Text} {tokens : List Token}

theorem literal_ne_nil_of_mem_prepend (first : text ≠ [])
    (later : ∀ piece, .literal piece ∈ tokens → piece ≠ [])
    (member : .literal piece ∈ prepend text tokens) : piece ≠ [] := by
  unfold prepend at member
  split at member
  · next next rest =>
      rcases List.mem_cons.1 member with here | among
      · obtain rfl := literal.inj here
        exact List.append_ne_nil_of_left_ne_nil first next
      · exact later piece (List.mem_cons_of_mem _ among)
  · rcases List.mem_cons.1 member with here | among
    · obtain rfl := literal.inj here
      exact first
    · exact later piece among

theorem apart_prepend (text : Text)
    (apart : tokens.IsChain fun first second => first.IsLiteral → ¬ second.IsLiteral) :
    (prepend text tokens).IsChain fun first second => first.IsLiteral → ¬ second.IsLiteral := by
  cases tokens with
  | nil => exact List.isChain_singleton _
  | cons token rest =>
      cases token with
      | literal next =>
          obtain ⟨head, later⟩ := List.isChain_cons.1 apart
          exact List.isChain_cons.2 ⟨head, later⟩
      | escaped | marker => exact List.isChain_cons_cons.2 ⟨fun _ => id, apart⟩

end Token

namespace Lexeme

variable {lexemes : List Lexeme}

theorem literals_number (nonempty : ∀ text, .plain text ∈ lexemes → text ≠ []) (position : Nat) :
    (∀ piece, .literal piece ∈ number position lexemes → piece ≠ []) ∧
      (number position lexemes).IsChain fun first second =>
        first.IsLiteral → ¬ second.IsLiteral := by
  induction lexemes generalizing position with
  | nil => exact ⟨fun piece member => absurd member List.not_mem_nil, List.isChain_nil⟩
  | cons lexeme rest ih =>
      have later := ih fun text member => nonempty text (List.mem_cons_of_mem lexeme member)
      have sign {token : Token} (noLiteral : ¬ token.IsLiteral) (position : Nat) :
          (∀ piece, .literal piece ∈ token :: number position rest → piece ≠ []) ∧
            (token :: number position rest).IsChain fun first second =>
              first.IsLiteral → ¬ second.IsLiteral := by
        obtain ⟨filled, apart⟩ := later position
        constructor
        · intro piece member
          rcases List.mem_cons.1 member with here | among
          · exact absurd (here ▸ trivial) noLiteral
          · exact filled piece among
        · exact List.isChain_cons.2 ⟨fun _ _ literal => absurd literal noLiteral, apart⟩
      cases lexeme with
      | plain text =>
          obtain ⟨filled, apart⟩ := later position
          constructor
          · intro piece
            exact Token.literal_ne_nil_of_mem_prepend (nonempty text List.mem_cons_self) filled
          · exact Token.apart_prepend text apart
      | escaped | named => exact sign id position
      | positional role => exact sign id (position + 1)

end Lexeme

namespace Token

variable {rule : StringRule} {text slice : Text} {tokens : List Token} {token : Token} {start base : Nat}

theorem isName_of_mem_lex {role : Role} {word : Text}
    (member : .marker ⟨role, .name word⟩ ∈ lex rule text) : word.IsName := by
  obtain ⟨lexeme, among, place, same⟩ := Lexeme.exists_mem_of_mem_number id member
  cases lexeme with
  | plain | escaped | positional => cases same
  | named role word =>
      cases same
      rcases Lexeme.exists_reads_of_mem_list among with ⟨c, plain⟩ | ⟨c, behind, rest, reads⟩
      · cases plain
      · cases reads with
        | namedIdentifier name => exact name
        | namedValue name => exact name

theorem lossless_lex (rule : StringRule) (text : Text) : Lossless text (lex rule text) := by
  have filled : ∀ piece, .plain piece ∈ Lexeme.list rule .start text → piece ≠ [] :=
    fun _ => Lexeme.plain_ne_nil_of_mem_list
  obtain ⟨nonempty, apart⟩ := Lexeme.literals_number filled 0
  have counted := filterMap_position?_number 0 (Lexeme.list rule .start text)
  exact
    { spelled := spell_number_list 0 .start text
      nonempty := nonempty
      apart := apart
      named := fun _ _ => isName_of_mem_lex
      counted := ⟨_, counted.trans List.range_eq_range'.symm⟩ }

theorem spelling_octets (token : Token) : token.octets.spelling = token.spelling.octets := by
  cases token with
  | literal text => rfl
  | escaped sign => cases sign <;> rfl
  | marker place =>
      obtain ⟨role, key⟩ := place
      cases key with
      | index position => cases role <;> rfl
      | name word =>
          have colon : Text.octets [':'] = [':'] := rfl
          cases role with
          | value =>
              change ':' :: word.octets = Text.octets (':' :: word)
              rw [Text.octets_cons, colon, List.singleton_append]
          | identifier =>
              change ':' :: word.octets ++ [':'] = Text.octets (':' :: word ++ [':'])
              rw [Text.octets_append, Text.octets_cons, colon, List.singleton_append]

/-- The part that a token carries stands in its spelling, between two characters. -/
theorem exists_of_slice?_octets (carries : token.octets.slice? base = some (start, slice)) :
    ∃ front piece back, token.spelling = front ++ piece ++ back ∧ slice = piece.octets ∧
      start = base + front.octets.length := by
  cases token with
  | literal text =>
      obtain ⟨rfl, rfl⟩ := Prod.mk.inj (Option.some.inj carries)
      exact ⟨[], text, [], (List.append_nil text).symm, rfl, rfl⟩
  | escaped sign => cases carries
  | marker place =>
      obtain ⟨role, key⟩ := place
      cases key with
      | index position => cases carries
      | name word =>
          obtain ⟨rfl, rfl⟩ := Prod.mk.inj (Option.some.inj carries)
          cases role with
          | value => exact ⟨[':'], word, [], (List.append_nil _).symm, rfl, rfl⟩
          | identifier => exact ⟨[':'], word, [':'], rfl, rfl, rfl⟩

theorem exists_of_mem_slices_octets (member : (start, slice) ∈ slices base (tokens.map octets)) :
    ∃ front piece back, spell tokens = front ++ piece ++ back ∧ slice = piece.octets ∧
      start = base + front.octets.length := by
  induction tokens generalizing base with
  | nil => cases member
  | cons token rest ih =>
      rw [List.map_cons, slices] at member
      rw [spell_cons]
      rcases List.mem_append.1 member with here | later
      · obtain ⟨front, piece, back, whole, same, place⟩ :=
          exists_of_slice?_octets (Option.mem_toList.1 here)
        refine ⟨front, piece, back ++ spell rest, ?_, same, place⟩
        rw [whole, List.append_assoc]
      · obtain ⟨front, piece, back, whole, same, place⟩ := ih later
        refine ⟨token.spelling ++ front, piece, back, ?_, same, ?_⟩
        · rw [whole, List.append_assoc, List.append_assoc, List.append_assoc]
        · rw [place, spelling_octets, Text.octets_append, List.length_append, Nat.add_assoc]

end Token

/-- Between two parts of a text its encoding has the boundary of a character. -/
theorem Text.isValid_octets (front back : Text) :
    String.Pos.Raw.IsValid (String.ofList (front ++ back)) ⟨front.octets.length⟩ := by
  apply String.Pos.Raw.isValid_iff_exists_append.2
  refine ⟨String.ofList front, String.ofList back, String.ofList_append, ?_⟩
  rw [length_octets]
  rfl

/--
The tokens of a text are the text without loss.  The same tokens are found byte
by byte, and then their parts begin and end between two characters.
-/
theorem Token.lex_lossless (rule : StringRule) (text : Text) :
    Lossless text (lex rule text) ∧ lex rule text.octets = (lex rule text).map octets ∧
      ∀ start slice, (start, slice) ∈ slices 0 (lex rule text.octets) →
        String.Pos.Raw.IsValid (String.ofList text) ⟨start⟩ ∧
          String.Pos.Raw.IsValid (String.ofList text) ⟨start + slice.length⟩ := by
  refine ⟨lossless_lex rule text, lex_octets rule text, fun start slice member => ?_⟩
  rw [lex_octets] at member
  obtain ⟨front, piece, back, whole, rfl, rfl⟩ := exists_of_mem_slices_octets member
  obtain rfl : text = front ++ piece ++ back :=
    (lossless_lex rule text).spelled.symm.trans whole
  rw [Nat.zero_add]
  constructor
  · rw [List.append_assoc]
    exact Text.isValid_octets front (piece ++ back)
  · rw [← List.length_append, ← Text.octets_append]
    exact Text.isValid_octets (front ++ piece) back

/-- Characters of several bytes, three colons behind a name, and a quoted region that does not end. -/
theorem Token.lex_lossless_unclosed :
    (3, "a_1".toList) ∈ slices 0 (lex .backslash (Text.octets "é:a_1:::int ?? ≠ '…?".toList)) ∧
      Lossless "é:a_1:::int ?? ≠ '…?".toList
        [.literal "é".toList, .marker ⟨.identifier, .name "a_1".toList⟩, .literal "::int ".toList,
         .marker ⟨.identifier, .index 0⟩, .literal " ≠ '…?".toList] ∧
      String.Pos.Raw.IsValid (String.ofList "é:a_1:::int ?? ≠ '…?".toList) ⟨3⟩ ∧
      String.Pos.Raw.IsValid (String.ofList "é:a_1:::int ?? ≠ '…?".toList) ⟨6⟩ := by
  have member : (3, "a_1".toList) ∈
      slices 0 (lex .backslash (Text.octets "é:a_1:::int ?? ≠ '…?".toList)) := by decide +kernel
  have tokens : lex .backslash "é:a_1:::int ?? ≠ '…?".toList =
      [.literal "é".toList, .marker ⟨.identifier, .name "a_1".toList⟩, .literal "::int ".toList,
       .marker ⟨.identifier, .index 0⟩, .literal " ≠ '…?".toList] := by decide +kernel
  obtain ⟨lossless, -, cuts⟩ := lex_lossless .backslash "é:a_1:::int ?? ≠ '…?".toList
  rw [tokens] at lossless
  exact ⟨member, lossless, cuts 3 "a_1".toList member⟩

end SqlTemplate
