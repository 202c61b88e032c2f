/-!
# Binary floating-point numbers

A number is the 64-bit word of its IEEE 754 encoding.  Its magnitude is a
whole significand times a power of two, which keeps all later arithmetic exact.
-/

namespace SqlTemplate

/-- A floating-point number of 64 bits, given by its encoding. -/
structure Binary64 where
  bits : UInt64

namespace Binary64

def exponentField (x : Binary64) : Nat :=
  (x.bits >>> 52 &&& 0x7FF).toNat

def fractionField (x : Binary64) : Nat :=
  (x.bits &&& 0xFFFFFFFFFFFFF).toNat

/-- The sign bit; negative zero has it too. -/
def isNegative (x : Binary64) : Bool :=
  x.bits >>> 63 == 1

def isFinite (x : Binary64) : Bool :=
  x.exponentField ≠ 2047

def isNaN (x : Binary64) : Bool :=
  x.exponentField = 2047 && x.fractionField ≠ 0

def isZero (x : Binary64) : Bool :=
  x.exponentField = 0 && x.fractionField = 0

/-- The whole number `m` of the magnitude `m * 2 ^ scale`. -/
def significand (x : Binary64) : Nat :=
  if x.exponentField = 0 then x.fractionField else (1 <<< 52) + x.fractionField

/-- The exponent of the magnitude `significand * 2 ^ scale`. -/
def scale (x : Binary64) : Int :=
  (max x.exponentField 1 : Nat) - 1075

/-- Numeric equality: a NaN differs from everything, the two zeros are equal. -/
def equal (x y : Binary64) : Bool :=
  !x.isNaN && !y.isNaN && (x.bits == y.bits || (x.isZero && y.isZero))

instance : BEq Binary64 := ⟨equal⟩

def ofFields (negative : Bool) (exponent fraction : Nat) : Binary64 :=
  let sign : UInt64 := if negative then 0x8000000000000000 else 0
  ⟨sign ||| (UInt64.ofNat exponent <<< 52) ||| UInt64.ofNat fraction⟩

/--
The number encoded by a word of 32 bits.  Every such number has an encoding of
64 bits: exponents move by the difference of the two biases, and numbers too
small for a leading one in 32 bits get one in 64 bits.
-/
def ofSingle (word : UInt32) : Binary64 :=
  let negative := word >>> 31 == 1
  let exponent := (word >>> 23 &&& 0xFF).toNat
  let fraction := (word &&& 0x7FFFFF).toNat
  if exponent = 255 then ofFields negative 2047 (fraction <<< 29)
  else if exponent ≠ 0 then ofFields negative (exponent + 896) (fraction <<< 29)
  else if fraction = 0 then ofFields negative 0 0
  else
    let leading := fraction.log2
    ofFields negative (leading + 874) ((fraction - (1 <<< leading)) <<< (52 - leading))

end Binary64

end SqlTemplate
