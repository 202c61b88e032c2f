import SqlTemplate.Text.Basic

/-!
# Blanks

The characters with the Unicode property `White_Space`, and the removal of
such characters from both ends of a text.
-/

namespace SqlTemplate.Text

/-- The ranges of code points that have the Unicode property `White_Space`. -/
def blankRanges : List (Nat × Nat) :=
  [(0x09, 0x0D), (0x20, 0x20), (0x85, 0x85), (0xA0, 0xA0), (0x1680, 0x1680),
   (0x2000, 0x200A), (0x2028, 0x2029), (0x202F, 0x202F), (0x205F, 0x205F),
   (0x3000, 0x3000)]

def isBlank (c : Char) : Bool :=
  blankRanges.any fun range => range.1 ≤ c.toNat && c.toNat ≤ range.2

example : (blankRanges.map fun range => range.2 + 1 - range.1).sum = 25 := by decide

def trim (text : Text) : Text :=
  ((text.dropWhile isBlank).reverse.dropWhile isBlank).reverse

private theorem length_dropWhile_le {α : Type} (p : α → Bool) (items : List α) :
    (items.dropWhile p).length ≤ items.length :=
  (List.dropWhile_suffix p).length_le

theorem length_trim_le (text : Text) : (trim text).length ≤ text.length := by
  have outer := length_dropWhile_le isBlank (text.dropWhile isBlank).reverse
  have inner := length_dropWhile_le isBlank text
  simp only [trim, List.length_reverse] at *
  omega

end SqlTemplate.Text
