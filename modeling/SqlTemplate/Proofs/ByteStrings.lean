import SqlTemplate.Proofs.Harmless

/-!
# Literals of bytes

An engine that has literals for bytes writes two hexadecimal digits for every
byte, between two texts that are the same for all bytes.  A reader of the digits
gets back the bytes, each in its place, and none is lost.
-/

namespace SqlTemplate

namespace Text

def hexDigits : Text := "0123456789ABCDEF".toList

def hexValue? (c : Char) : Option Nat := hexDigits.idxOf? c

/-- The bytes that hexadecimal digits stand for, two digits a byte, high half first. -/
def unhex? : Text → Option (List UInt8)
  | [] => some []
  | [_] => none
  | high :: low :: rest => do
      let upper ← hexValue? high
      let lower ← hexValue? low
      let later ← unhex? rest
      return UInt8.ofNat (16 * upper + lower) :: later

theorem hexValue?_hexDigit {n : Nat} (small : n < 16) : hexValue? (hexDigit n) = some n := by
  have all : ∀ n < 16, hexValue? (hexDigit n) = some n := by decide
  exact all n small

theorem hexDigit_mem_hexDigits {n : Nat} (small : n < 16) : hexDigit n ∈ hexDigits := by
  have all : ∀ n < 16, hexDigit n ∈ hexDigits := by decide
  exact all n small

theorem hex_subset_hexDigits (bytes : List UInt8) : hex bytes ⊆ hexDigits := by
  intro c member
  obtain ⟨byte, -, inByte⟩ := List.mem_flatMap.1 member
  have size := byte.toNat_lt
  rcases List.mem_pair.1 inByte with rfl | rfl
  · exact hexDigit_mem_hexDigits (by omega)
  · exact hexDigit_mem_hexDigits (by omega)

theorem unhex?_hexByte (byte : UInt8) (rest : Text) :
    unhex? (hexByte byte ++ rest) = (unhex? rest).map (byte :: ·) := by
  have size := byte.toNat_lt
  have whole : UInt8.ofNat (16 * (byte.toNat / 16) + byte.toNat % 16) = byte := by
    rw [Nat.div_add_mod, UInt8.ofNat_toNat]
  simp only [hexByte, List.cons_append, List.nil_append, unhex?,
    hexValue?_hexDigit (show byte.toNat / 16 < 16 by omega),
    hexValue?_hexDigit (show byte.toNat % 16 < 16 by omega), Option.bind_eq_bind,
    Option.bind_some, whole]
  cases unhex? rest <;> rfl

theorem unhex?_hex (bytes : List UInt8) : unhex? (hex bytes) = some bytes := by
  induction bytes with
  | nil => rfl
  | cons byte rest ih => rw [hex_cons, unhex?_hexByte, ih, Option.map_some]

end Text

namespace Engine

/-- Some digits between two texts are the literal of bytes, and nothing of the bytes is lost. -/
structure ByteLiteral (engine : Engine) (frame : String × String) (value : List UInt8)
    (digits : Text) : Prop where
  written : engine.literal (.bytes value) = .ok (frame.1.toList ++ digits ++ frame.2.toList)
  size : digits.length = 2 * value.length
  uppercase : ∀ c ∈ digits, c ∈ Text.hexDigits
  decoded : Text.unhex? digits = some value
  closed : (QuoteState.run engine.stringRule .start
    (frame.1.toList ++ digits ++ frame.2.toList)).isOutside = true
  signless : (QuoteState.unquoted engine.stringRule .start
    (frame.1.toList ++ digits ++ frame.2.toList)).Signless

variable {engine : Engine} {frame : String × String}

theorem bytes?_of_frame (found : engine.bytesFrame? = some frame) (value : List UInt8) :
    engine.bytes? value = some (frame.1.toList ++ Text.hex value ++ frame.2.toList) := by
  rw [bytes?, found, Option.map_some]

theorem byteLiteral_of_frame (found : engine.bytesFrame? = some frame) (value : List UInt8) :
    engine.ByteLiteral frame value (Text.hex value) := by
  have whole := bytes?_of_frame found value
  have harmless := harmless_bytes whole
  exact {
    written := by rw [literal, whole]
    size := Text.length_hex value
    uppercase := Text.hex_subset_hexDigits value
    decoded := Text.unhex?_hex value
    closed := harmless.outside .boundary
    signless := harmless.signless .boundary }

theorem bytesFrame?_eq_none_iff :
    engine.bytesFrame? = none ↔ engine = .informix ∨ engine = .doris := by
  cases engine <;> decide

theorem literal_bytes_eq_error_iff (value : List UInt8) :
    engine.literal (.bytes value) = .error (.noLiteral engine .bytes) ↔
      engine = .informix ∨ engine = .doris := by
  rw [← bytesFrame?_eq_none_iff]
  cases found : engine.bytesFrame? with
  | none => simp [literal, bytes?, found]
  | some frame => simp [(byteLiteral_of_frame found value).written]

/--
Two engines have no literals for bytes, and fail on all bytes with that error.
Any other engine writes each byte as two digits, in order, between two texts of
its own; the literal closes its quotes, and outside of them it shows neither
question marks nor backslashes.
-/
theorem literal_bytes_lossless (engine : Engine) :
    (∀ value, engine.literal (.bytes value) = .error (.noLiteral engine .bytes) ↔
      engine = .informix ∨ engine = .doris) ∧
      (¬ (engine = .informix ∨ engine = .doris) →
        ∃ frame, engine.bytesFrame? = some frame ∧
          ∀ value, ∃ digits, engine.ByteLiteral frame value digits) := by
  refine ⟨literal_bytes_eq_error_iff, fun other => ?_⟩
  obtain ⟨frame, found⟩ := Option.ne_none_iff_exists'.1 (mt bytesFrame?_eq_none_iff.1 other)
  exact ⟨frame, found, fun value => ⟨_, byteLiteral_of_frame found value⟩⟩

/-- A leading zero stays, behind the doubled backslash of an escape string. -/
theorem literal_bytes_lossless_postgreSQL :
    ¬ (Engine.postgreSQL = .informix ∨ Engine.postgreSQL = .doris) ∧
      (∀ value, ∃ digits, postgreSQL.ByteLiteral ("E'\\\\x", "'::bytea") value digits) ∧
      postgreSQL.literal (.bytes [0, 10, 255]) = .ok "E'\\\\x000AFF'::bytea".toList := by
  have other : ¬ (Engine.postgreSQL = .informix ∨ Engine.postgreSQL = .doris) := by decide
  obtain ⟨frame, found, literals⟩ := (literal_bytes_lossless .postgreSQL).2 other
  obtain rfl := Option.some.inj found
  exact ⟨other, literals, by decide⟩

end Engine

end SqlTemplate
