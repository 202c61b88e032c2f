import SqlTemplate.Proofs.Grammar

/-!
# Reading a template byte by byte

In UTF-8 a character of ASCII is one byte, and all bytes of any other character
lie outside ASCII.  Marks, signs and names are made of ASCII characters, so a
reader that takes every byte for a character finds the same tokens as a reader
of characters, and cuts no character into two.
-/

namespace SqlTemplate

namespace Text

/-- The bytes of a text in UTF-8, each as the character with its number. -/
def octets (text : Text) : Text :=
  (text.flatMap String.utf8EncodeChar).map Char.ofUInt8

variable {c d : Char} {text rest : Text}

@[simp] theorem octets_nil : octets [] = [] := rfl

theorem octets_append (first second : Text) :
    octets (first ++ second) = octets first ++ octets second := by
  rw [octets, List.flatMap_append, List.map_append]
  rfl

theorem octets_cons (c : Char) (rest : Text) : octets (c :: rest) = octets [c] ++ octets rest :=
  octets_append [c] rest

theorem length_octets (text : Text) : (octets text).length = (String.ofList text).utf8ByteSize := by
  rw [← String.size_toByteArray, String.toByteArray_ofList, List.utf8Encode, List.size_toByteArray,
    octets, List.length_map]

theorem octets_ne_nil (c : Char) : octets [c] ≠ [] := by
  intro empty
  have size := congrArg List.length empty
  rw [octets, List.flatMap_singleton, List.length_map, String.length_utf8EncodeChar] at size
  exact absurd size (Nat.ne_of_gt c.utf8Size_pos)

theorem octets_of_ascii (ascii : c.toNat < 128) : octets [c] = [c] := by
  have small : c.val ≤ 127 := UInt32.le_iff_toNat_le.2 (Nat.le_of_lt_succ ascii)
  have byte : Char.ofUInt8 c.val.toUInt8 = c := by
    apply Char.ext
    apply UInt32.toNat_inj.1
    change c.val.toUInt8.toUInt32.toNat = c.val.toNat
    rw [UInt8.toNat_toUInt32, UInt32.toNat_toUInt8]
    exact Nat.mod_eq_of_lt (Nat.lt_trans ascii (by decide))
  rw [octets, List.flatMap_singleton,
    String.utf8EncodeChar_eq_singleton (Char.utf8Size_eq_one_iff.2 small), List.map_singleton, byte]

theorem octets_eq_self (ascii : ∀ c ∈ text, c.toNat < 128) : octets text = text := by
  induction text with
  | nil => rfl
  | cons c rest ih =>
      obtain ⟨first, later⟩ := List.forall_mem_cons.1 ascii
      rw [octets_cons, octets_of_ascii first, ih later, List.singleton_append]

theorem le_toNat_of_mem_utf8EncodeChar {byte : UInt8} (foreign : 128 ≤ c.toNat)
    (member : byte ∈ String.utf8EncodeChar c) : 128 ≤ byte.toNat := by
  have high {n : Nat} (low : 128 ≤ n) (bound : n < 256) : 128 ≤ (UInt8.ofNat n).toNat := by
    rwa [UInt8.toNat_ofNat_of_lt' bound]
  have several : ¬ c.val.toNat ≤ 127 := Nat.not_le_of_lt foreign
  unfold String.utf8EncodeChar at member
  simp only [several, if_false] at member
  split at member
  · simp only [List.mem_cons, List.not_mem_nil, or_false] at member
    rcases member with rfl | rfl
    · exact high (by omega) (by omega)
    · exact high (by omega) (by omega)
  · split at member
    · simp only [List.mem_cons, List.not_mem_nil, or_false] at member
      rcases member with rfl | rfl | rfl
      · exact high (by omega) (by omega)
      · exact high (by omega) (by omega)
      · exact high (by omega) (by omega)
    · simp only [List.mem_cons, List.not_mem_nil, or_false] at member
      rcases member with rfl | rfl | rfl | rfl
      · exact high (by omega) (by omega)
      · exact high (by omega) (by omega)
      · exact high (by omega) (by omega)
      · exact high (by omega) (by omega)

theorem le_toNat_of_mem_octets (foreign : 128 ≤ c.toNat) (member : d ∈ octets [c]) :
    128 ≤ d.toNat := by
  rw [octets, List.flatMap_singleton] at member
  obtain ⟨byte, inBytes, rfl⟩ := List.mem_map.1 member
  have same : (Char.ofUInt8 byte).toNat = byte.toNat := UInt8.toNat_toUInt32 byte
  rw [same]
  exact le_toNat_of_mem_utf8EncodeChar foreign inBytes

theorem toNat_lt_of_isNameChar (name : isNameChar c = true) : c.toNat < 128 := by
  have below {last : Char} (bound : c.val ≤ last.val) (ascii : last.toNat < 128) : c.toNat < 128 :=
    Nat.lt_of_le_of_lt (UInt32.le_iff_toNat_le.1 bound) ascii
  rcases Bool.or_eq_true_iff.1 name with alphanum | underscore
  · rcases Bool.or_eq_true_iff.1 alphanum with alpha | digit
    · rcases Bool.or_eq_true_iff.1 alpha with upper | lower
      · exact below (of_decide_eq_true upper).2 (by decide : 'Z'.toNat < 128)
      · obtain ⟨-, bound⟩ := Bool.and_eq_true_iff.1 lower
        exact below (of_decide_eq_true bound) (by decide : 'z'.toNat < 128)
    · obtain ⟨-, bound⟩ := Bool.and_eq_true_iff.1 digit
      exact below (of_decide_eq_true bound) (by decide : '9'.toNat < 128)
  · obtain rfl := eq_of_beq underscore
    decide

theorem head?_octets (ascii : d.toNat < 128) :
    (octets text).head? = some d ↔ text.head? = some d := by
  cases text with
  | nil => exact Iff.rfl
  | cons c rest =>
      by_cases single : c.toNat < 128
      · rw [octets_cons, octets_of_ascii single]
        exact Iff.rfl
      · have foreign : 128 ≤ c.toNat := Nat.le_of_not_lt single
        obtain ⟨first, others, split⟩ := List.exists_cons_of_ne_nil (octets_ne_nil c)
        have outside : 128 ≤ first.toNat :=
          le_toNat_of_mem_octets foreign (split ▸ List.mem_cons_self)
        rw [octets_cons, split]
        constructor
        · intro same
          obtain rfl : first = d := Option.some.inj same
          exact absurd outside (Nat.not_le_of_lt ascii)
        · intro same
          obtain rfl : c = d := Option.some.inj same
          exact absurd ascii single

theorem noName_octets (noName : ∀ c ∈ text.head?, isNameChar c = false) :
    ∀ c ∈ (octets text).head?, isNameChar c = false := by
  intro c first
  by_contra name
  have isName : isNameChar c = true := by simpa using name
  exact name (noName c ((head?_octets (toNat_lt_of_isNameChar isName)).1 first))

theorem octets_colons (count : Nat) (rest : Text) :
    octets (List.replicate count ':' ++ rest) = List.replicate count ':' ++ rest.octets := by
  rw [octets_append, octets_eq_self]
  intro c member
  rw [List.eq_of_mem_replicate member]
  decide

theorem IsName.octets_eq {word : Text} (name : word.IsName) : word.octets = word :=
  octets_eq_self fun c member => toNat_lt_of_isNameChar (name.2 c member)

end Text

def Key.octets : Key → Key
  | .index position => .index position
  | .name word => .name word.octets

def Token.octets : Token → Token
  | .literal text => .literal text.octets
  | .escaped sign => .escaped sign
  | .marker place => .marker ⟨place.role, place.key.octets⟩

theorem Token.map_octets_prepend (text : Text) (tokens : List Token) :
    (prepend text tokens).map octets = prepend text.octets (tokens.map octets) := by
  cases tokens with
  | nil => rfl
  | cons token rest =>
      cases token with
      | literal next =>
          change [Token.literal (text ++ next).octets] ++ rest.map octets = _
          rw [Text.octets_append]
          rfl
      | escaped | marker => rfl

section Foreign

variable {rule : StringRule} {c : Char} {text : Text}

theorem QuoteMark.ofChar?_eq_none_of_foreign (foreign : 128 ≤ c.toNat) : ofChar? c = none := by
  cases found : ofChar? c with
  | none => rfl
  | some mark =>
      obtain rfl := ofChar?_eq_some_iff.1 found
      cases mark <;> exact absurd foreign (by decide)

theorem Text.ne_of_foreign {d : Char} (foreign : 128 ≤ c.toNat) (ascii : d.toNat < 128) : c ≠ d := by
  rintro rfl
  exact absurd ascii (Nat.not_lt_of_le foreign)

theorem Text.isNameChar_of_foreign (foreign : 128 ≤ c.toNat) : isNameChar c = false := by
  cases name : isNameChar c with
  | false => rfl
  | true => exact absurd (toNat_lt_of_isNameChar name) (Nat.not_lt_of_le foreign)

/-- Characters outside ASCII change nothing in a quoted region. -/
theorem QuoteState.reading_foreign {mark : QuoteMark} {hides : Bool}
    (foreign : ∀ c ∈ text, 128 ≤ c.toNat) :
    reading rule (.inside mark hides) text = (.inside mark hides, []) := by
  induction text with
  | nil => rfl
  | cons c rest ih =>
      obtain ⟨first, later⟩ := List.forall_mem_cons.1 foreign
      have noMark : c ≠ mark.char := Text.ne_of_foreign first (by cases mark <;> decide)
      have shown : hides = true → c ≠ '\\' := fun _ => Text.ne_of_foreign first (by decide)
      rw [reading_cons_of_covers rfl, next_inside_plain noMark shown, ih later]

/-- In a quoted region the octets of a character are read as the character. -/
theorem QuoteState.reading_octets {state : QuoteState} (foreign : 128 ≤ c.toNat)
    (covers : state.covers c = true) :
    reading rule state (Text.octets [c]) = (state.next rule c, []) := by
  have bytes : ∀ d ∈ Text.octets [c], 128 ≤ d.toNat := fun d => Text.le_toNat_of_mem_octets foreign
  cases state with
  | outside before =>
      rw [QuoteState.covers, QuoteMark.ofChar?_eq_none_of_foreign foreign] at covers
      cases covers
  | inside mark hides =>
      have alone : reading rule (.inside mark hides) [c] = (.inside mark hides, []) :=
        reading_foreign (List.forall_mem_singleton.2 foreign)
      have same : (inside mark hides).next rule c = .inside mark hides := (Prod.mk.inj alone).1
      rw [reading_foreign bytes, same]
  | hidden mark =>
      obtain ⟨first, others, split⟩ := List.exists_cons_of_ne_nil (Text.octets_ne_nil c)
      rw [split] at bytes ⊢
      rw [reading_cons_of_covers rfl]
      exact reading_foreign (List.forall_mem_cons.1 bytes).2

namespace Lexeme

/-- Characters outside ASCII are read one by one, and no word goes on behind them. -/
theorem list_foreign (before : Preceding) (foreign : ∀ c ∈ text, 128 ≤ c.toNat)
    (nonempty : text ≠ []) (tail : Text) :
    list rule (.outside before) (text ++ tail) =
      ofText text ++ list rule (.outside .boundary) tail := by
  induction text generalizing before with
  | nil => exact absurd rfl nonempty
  | cons c rest ih =>
      obtain ⟨first, later⟩ := List.forall_mem_cons.1 foreign
      have other (d : Char) (ascii : d.toNat < 128) : c ≠ d := Text.ne_of_foreign first ascii
      rw [List.cons_append, list_plain (QuoteMark.ofChar?_eq_none_of_foreign first)
        (other _ (by decide)) (other _ (by decide)) (other _ (by decide)),
        Preceding.step_eq_boundary (Text.isNameChar_of_foreign first)]
      cases rest with
      | nil => rfl
      | cons d others =>
          rw [ih .boundary later (List.cons_ne_nil d others)]
          rfl

end Lexeme

end Foreign

namespace Lexeme

variable {rule : StringRule}

def octets : Lexeme → Lexeme
  | .plain text => .plain text.octets
  | .escaped sign => .escaped sign
  | .positional role => .positional role
  | .named role name => .named role name.octets

theorem roleAfterName_octets (rest : Text) :
    roleAfterName rest.octets = ((roleAfterName rest).1, (roleAfterName rest).2.octets) := by
  obtain ⟨count, behind, rfl, whole⟩ := Text.exists_colons rest
  have wholeOctets : behind.octets.head? ≠ some ':' := fun colon =>
    whole ((Text.head?_octets (by decide)).1 colon)
  obtain ⟨role, left, found⟩ := exists_roleAfterName count
  rw [Text.octets_colons, found _ wholeOctets, found _ whole, Text.octets_colons]

theorem readName_octets (rest : Text) :
    readName rest.octets = ((readName rest).1.octets, (readName rest).2.octets) := by
  obtain ⟨word, behind, rfl, all, ends⟩ := Text.exists_span Text.isNameChar rest
  have endsOctets := Text.noName_octets ends
  rw [Text.octets_append]
  cases word with
  | nil =>
      change readName behind.octets = ((readName behind).1.octets, (readName behind).2.octets)
      rw [readName_of_noName ends, readName_of_noName endsOctets]
      rfl
  | cons c others =>
      have name : Text.IsName (c :: others) := ⟨List.cons_ne_nil c others, all⟩
      rw [name.octets_eq, readName_append name ends, readName_append name endsOctets,
        roleAfterName_octets]
      exact congrArg (fun word => (Lexeme.named _ word, _)) name.octets_eq.symm

theorem read_octets {c : Char} (ascii : c.toNat < 128) (rest : Text) :
    read c rest.octets = ((read c rest).1.octets, (read c rest).2.octets) := by
  have head (sign : Sign) : rest.octets.head? = some sign.char ↔ rest.head? = some sign.char :=
    Text.head?_octets (by cases sign <;> decide)
  by_cases slash : c = '\\'
  · subst slash
    by_cases escape : ∃ sign : Sign, rest.head? = some sign.char
    · obtain ⟨sign, first⟩ := escape
      obtain ⟨behind, rfl⟩ := List.head?_eq_some_iff.1 first
      rw [Text.octets_cons, Text.octets_of_ascii (by cases sign <;> decide)]
      cases sign <;> rfl
    · have noSign (sign : Sign) : rest.head? ≠ some sign.char := fun first => escape ⟨sign, first⟩
      rw [read_backslash (noSign .question) (noSign .colon),
        read_backslash (mt (head .question).1 (noSign .question))
          (mt (head .colon).1 (noSign .colon))]
      rfl
  by_cases question : c = '?'
  · subst question
    by_cases double : rest.head? = some '?'
    · obtain ⟨behind, rfl⟩ := List.head?_eq_some_iff.1 double
      rfl
    · rw [read_value double, read_value (mt (head .question).1 double)]
      rfl
  by_cases colon : c = ':'
  · subst colon
    obtain ⟨count, behind, rfl, whole⟩ := Text.exists_colons rest
    have wholeOctets : behind.octets.head? ≠ some ':' := mt (Text.head?_octets (by decide)).1 whole
    rw [Text.octets_colons]
    cases count with
    | zero =>
        change read ':' behind.octets = ((read ':' behind).1.octets, (read ':' behind).2.octets)
        rw [read_colon whole, read_colon wholeOctets, readName_octets]
    | succ count =>
        have same := Text.octets_colons (count + 2) []
        rw [Text.octets_nil, List.append_nil] at same
        rw [read_colons count whole, read_colons count wholeOctets, octets, same]
  · rw [read_plain slash question colon, read_plain slash question colon, octets,
      Text.octets_of_ascii ascii]

theorem number_octets (position : Nat) (state : QuoteState) (text : Text) :
    number position (list rule state text.octets) =
      (number position (list rule state text)).map Token.octets := by
  induction state, text using list.induct rule generalizing position with
  | case1 state => rw [Text.octets_nil, list]; rfl
  | case2 state c rest covers ih =>
      rw [list_covered covers, number, Token.map_octets_prepend, ← ih, Text.octets_cons]
      by_cases ascii : c.toNat < 128
      · rw [Text.octets_of_ascii ascii, List.singleton_append, list_covered covers, number]
      · have foreign : 128 ≤ c.toNat := Nat.le_of_not_lt ascii
        obtain ⟨run, nothing⟩ := Prod.mk.inj (QuoteState.reading_octets foreign covers)
        rw [list_of_unquoted_eq_nil nothing, run, number_ofText (Text.octets_ne_nil c)]
  | case3 state c rest covers ih =>
      obtain ⟨before, rfl, noMark⟩ :=
        QuoteState.covers_eq_false_iff.1 (Bool.eq_false_iff.2 covers)
      rw [QuoteState.next_outside noMark] at ih
      rw [list_outside noMark, Text.octets_cons]
      by_cases ascii : c.toNat < 128
      · rw [Text.octets_of_ascii ascii, List.singleton_append, list_outside noMark,
          read_octets ascii]
        cases (read c rest).1 with
        | plain piece => rw [octets, number, number, Token.map_octets_prepend, ih]
        | escaped sign => exact congrArg _ (ih position)
        | positional role => exact congrArg _ (ih (position + 1))
        | named role name => exact congrArg _ (ih position)
      · have foreign : 128 ≤ c.toNat := Nat.le_of_not_lt ascii
        have other (d : Char) (ascii : d.toNat < 128) : c ≠ d := Text.ne_of_foreign foreign ascii
        have read := read_plain (other _ (by decide)) (other _ (by decide)) (other _ (by decide)) rest
        rw [read, Preceding.step_eq_boundary (Text.isNameChar_of_foreign foreign)] at ih
        rw [read, number, Token.map_octets_prepend, Preceding.step_eq_boundary
          (Text.isNameChar_of_foreign foreign), ← ih, list_foreign before
          (fun d => Text.le_toNat_of_mem_octets foreign) (Text.octets_ne_nil c),
          number_ofText (Text.octets_ne_nil c)]

end Lexeme

/-- A reader that takes every byte for a character finds the same tokens. -/
theorem Token.lex_octets (rule : StringRule) (text : Text) :
    lex rule text.octets = (lex rule text).map octets :=
  Lexeme.number_octets 0 .start text

end SqlTemplate
