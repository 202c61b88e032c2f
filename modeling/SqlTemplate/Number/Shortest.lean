import SqlTemplate.Number.Binary64

/-!
# Shortest decimals

The shortest decimal of a floating-point number is taken from the coarsest
power-of-ten grid that meets the range of reals which round to the number.
On that grid the point nearest to the number wins, and of two equally near
points the larger one.  All comparisons are made between natural numbers.
-/

namespace SqlTemplate

/-- The number `digits * 10 ^ exponent`. -/
structure Decimal where
  digits : Nat
  exponent : Int
  deriving DecidableEq

/-- The reals that round to one floating-point number, in units of `2 ^ unit`. -/
structure RoundingRange where
  low : Nat
  centre : Nat
  high : Nat
  unit : Int
  /-- Whether the two ends round to the number as well. -/
  closed : Bool

namespace RoundingRange

/--
The range around a finite number reaches half way to its neighbours.  Just
above a power of two the lower neighbour is twice as near as the upper one.
The ends round to the number when its significand is even.
-/
def of (x : Binary64) : RoundingRange :=
  let m := x.significand
  let reach := if x.fractionField = 0 ∧ 1 < x.exponentField then 1 else 2
  { low := 4 * m - reach
    centre := 4 * m
    high := 4 * m + 2
    unit := x.scale - 2
    closed := m % 2 = 0 }

/-- The grid step `10 ^ exponent` as a whole number, on the scale of `weight`. -/
def step (range : RoundingRange) (exponent : Int) : Nat :=
  (Nat.pow 10 exponent.toNat) <<< (-range.unit).toNat

/-- The unit of the range as a whole number, on the scale of `step`. -/
def weight (range : RoundingRange) (exponent : Int) : Nat :=
  (Nat.pow 10 (-exponent).toNat) <<< range.unit.toNat

def contains (range : RoundingRange) (exponent : Int) (digits : Nat) : Bool :=
  let point := digits * range.step exponent
  let low := range.low * range.weight exponent
  let high := range.high * range.weight exponent
  if range.closed then low ≤ point && point ≤ high else low < point && point < high

/-- The point of one grid that lies in the range and is nearest to its centre. -/
def nearest? (range : RoundingRange) (exponent : Int) : Option Nat :=
  let centre := range.centre * range.weight exponent
  let step := range.step exponent
  let below := centre / step
  match range.contains exponent below, range.contains exponent (below + 1) with
  | true, true => some (if 2 * centre < (2 * below + 1) * step then below else below + 1)
  | true, false => some below
  | false, true => some (below + 1)
  | false, false => none

/-- The first hit on the grids from `10 ^ exponent` downwards, with a bound on their number. -/
def search (range : RoundingRange) (exponent : Int) : Nat → Decimal
  | 0 => ⟨0, exponent⟩
  | grids + 1 =>
      match range.nearest? exponent with
      | some digits => ⟨digits, exponent⟩
      | none => search range (exponent - 1) grids

end RoundingRange

/--
The shortest decimal that reads back as the magnitude of a finite number.
Numbers of 64 bits lie below `10 ^ 309`, and the grid of `10 ^ (-324)` meets
every range, so the search from one to the other always ends in a hit.
-/
def Binary64.shortest (x : Binary64) : Decimal :=
  if x.isZero then ⟨0, 0⟩ else (RoundingRange.of x).search 308 633

end SqlTemplate
