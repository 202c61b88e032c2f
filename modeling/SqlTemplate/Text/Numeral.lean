import SqlTemplate.Text.Basic

/-!
# Numerals

Decimal numerals of natural numbers and integers, numerals of a fixed width,
and the two hexadecimal digits of a byte.
-/

namespace SqlTemplate.Text

def natural (n : Nat) : Text :=
  Nat.toDigits 10 n

def integer : Int → Text
  | .ofNat n => natural n
  | .negSucc n => '-' :: natural (n + 1)

/-- A decimal numeral filled up with zeros on the left to at least `width` digits. -/
def padded (width n : Nat) : Text :=
  List.replicate (width - (natural n).length) '0' ++ natural n

def hexDigit (n : Nat) : Char :=
  if n < 10 then Char.ofNat (48 + n) else Char.ofNat (55 + n)

/-- The two hexadecimal digits of a byte, high half first. -/
def hexByte (byte : UInt8) : Text :=
  [hexDigit (byte.toNat / 16), hexDigit (byte.toNat % 16)]

def hex (bytes : List UInt8) : Text :=
  bytes.flatMap hexByte

@[simp] theorem hex_nil : hex [] = [] := rfl

@[simp] theorem hex_cons (byte : UInt8) (bytes : List UInt8) :
    hex (byte :: bytes) = hexByte byte ++ hex bytes := by
  simp [hex]

theorem length_hex (bytes : List UInt8) : (hex bytes).length = 2 * bytes.length := by
  induction bytes with
  | nil => rfl
  | cons byte rest ih =>
      simp only [hex_cons, hexByte, List.length_append, List.length_cons, List.length_nil, ih]
      omega

end SqlTemplate.Text
