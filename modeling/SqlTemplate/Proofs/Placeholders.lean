import SqlTemplate.Placeholder
import SqlTemplate.Proofs.LiteralText

/-!
# What placeholders look like

A numbered placeholder is the sign of its style and a decimal numeral without
leading zeros, so it can be read back; a question mark stands for any parameter.
-/

namespace SqlTemplate

namespace Text

/-- A decimal numeral without leading zeros, and the number that it is read as. -/
structure Counts (numeral : Text) (number : Nat) : Prop where
  digits : ∀ c ∈ numeral, c.isDigit = true
  noZero : numeral.head? ≠ some '0'
  value : Nat.ofDigitChars 10 numeral 0 = number

theorem head?_natural {number : Nat} (positive : 0 < number) :
    (natural number).head? ≠ some '0' := by
  induction number using Nat.strongRecOn with
  | ind number ih =>
      rw [natural, Nat.toDigits_eq_if (by decide)]
      split
      · next below =>
          intro zero
          exact Nat.ne_of_gt positive (Nat.digitChar_eq_zero.1 (Option.some.inj zero))
      · next large =>
          rw [List.head?_append, List.head?_eq_some_head Nat.toDigits_ne_nil, Option.some_or,
            ← List.head?_eq_some_head]
          exact ih (number / 10) (Nat.div_lt_self positive (by decide))
            (Nat.div_pos (Nat.le_of_not_lt large) (by decide))

theorem digitChar_of_isDigit {c : Char} (digit : c.isDigit = true) :
    c.toNat - '0'.toNat < 10 ∧ (c.toNat - '0'.toNat).digitChar = c := by
  obtain ⟨low, high⟩ := Char.isDigit_iff_toNat.1 digit
  change 48 ≤ c.toNat at low
  change c.toNat ≤ 57 at high
  change c.toNat - 48 < 10 ∧ (c.toNat - 48).digitChar = c
  have below : c.toNat - 48 < 10 := by omega
  refine ⟨below, Char.toNat_inj.1 ?_⟩
  rw [Nat.toNat_digitChar_of_lt_ten below]
  omega

/-- Digits behind the numeral of a positive number make up the numeral that they are read as. -/
theorem natural_append {digits : Text} (all : ∀ c ∈ digits, c.isDigit = true) {front : Nat}
    (positive : 0 < front) :
    natural front ++ digits = natural (Nat.ofDigitChars 10 digits front) := by
  induction digits generalizing front with
  | nil => rw [List.append_nil, Nat.ofDigitChars_nil]
  | cons c rest ih =>
      obtain ⟨here, later⟩ := List.forall_mem_cons.1 all
      obtain ⟨below, char⟩ := digitChar_of_isDigit here
      have joined := Nat.toDigits_append_toDigits (by decide) positive below
      rw [Nat.toDigits_of_lt_base below, char] at joined
      calc natural front ++ c :: rest
          = natural front ++ [c] ++ rest := List.append_cons _ c rest
        _ = natural (10 * front + (c.toNat - '0'.toNat)) ++ rest := congrArg (· ++ rest) joined
        _ = _ := ih later (Nat.add_pos_left (Nat.mul_pos (by decide) positive) _)

/-- There is one such numeral for every positive number. -/
theorem counts_iff {numeral : Text} {number : Nat} (positive : 0 < number) :
    numeral.Counts number ↔ numeral = natural number := by
  constructor
  · rintro ⟨digits, noZero, rfl⟩
    cases numeral with
    | nil => exact absurd positive (Nat.lt_irrefl 0)
    | cons c rest =>
        obtain ⟨here, later⟩ := List.forall_mem_cons.1 digits
        obtain ⟨below, char⟩ := digitChar_of_isDigit here
        have leading : 0 < c.toNat - '0'.toNat := by
          refine Nat.pos_of_ne_zero fun zero => noZero ?_
          rw [zero] at char
          exact congrArg some char.symm
        have whole := natural_append later leading
        rw [natural, Nat.toDigits_of_lt_base below, char] at whole
        rw [Nat.ofDigitChars_cons, Nat.mul_zero, Nat.zero_add]
        exact whole
  · rintro rfl
    exact ⟨isDigit_natural number, head?_natural positive, Nat.ofDigitChars_ten_toDigits⟩

end Text

namespace PlaceholderStyle

/-- The placeholder of a parameter, counted from one: no number, or one behind the sign. -/
inductive Marks : PlaceholderStyle → Nat → Text → Prop where
  | question (number : Nat) : Marks .question number ['?']
  | dollar {number : Nat} {numeral : Text} (counts : numeral.Counts number) :
      Marks .dollar number ('$' :: numeral)
  | atSign {number : Nat} {numeral : Text} (counts : numeral.Counts number) :
      Marks .atSign number ('@' :: 'p' :: numeral)
  | colon {number : Nat} {numeral : Text} (counts : numeral.Counts number) :
      Marks .colon number (':' :: numeral)

variable {style : PlaceholderStyle} {position number other : Nat} {text : Text}

theorem marks_iff : style.Marks (position + 1) text ↔ text = style.write position := by
  have counts {numeral : Text} :
      numeral.Counts (position + 1) ↔ numeral = Text.natural (position + 1) :=
    Text.counts_iff position.succ_pos
  constructor
  · intro marks
    cases marks with
    | question => rfl
    | dollar numeral | atSign numeral | colon numeral => rw [counts.1 numeral]; rfl
  · rintro rfl
    cases style with
    | question => exact .question _
    | dollar => exact .dollar (counts.2 rfl)
    | atSign => exact .atSign (counts.2 rfl)
    | colon => exact .colon (counts.2 rfl)

/-- The number can be read from a placeholder. -/
theorem Marks.number_eq (numbered : style ≠ .question) (first : style.Marks number text)
    (second : style.Marks other text) : number = other := by
  cases first with
  | question => exact absurd rfl numbered
  | dollar counts | atSign counts | colon counts =>
      cases second with
      | _ same => exact counts.value.symm.trans same.value

/-- Only the question mark stands for several parameters. -/
theorem write_eq_write_iff {first second : Nat} :
    style.write first = style.write second ↔ style = .question ∨ first = second := by
  constructor
  · intro same
    by_cases numbered : style = .question
    · exact .inl numbered
    · have marks : style.Marks (first + 1) (style.write second) := marks_iff.2 same.symm
      exact .inr (Nat.succ.inj (marks.number_eq numbered (marks_iff.2 rfl)))
  · rintro (rfl | rfl) <;> rfl

end PlaceholderStyle

end SqlTemplate
