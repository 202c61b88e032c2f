import SqlTemplate.Number.Shortest
import SqlTemplate.Text.Numeral

/-!
# Plain decimal notation

Numbers are written without an exponent, whatever their size: with as many
zeros as their magnitude takes, and with a decimal point only where a fraction
follows it.
-/

namespace SqlTemplate

def Decimal.plain (d : Decimal) : Text :=
  let digits := Text.natural d.digits
  match d.exponent with
  | .ofNat zeros => digits ++ List.replicate zeros '0'
  | .negSucc n =>
      let places := n + 1
      let whole := digits.length - places
      if 0 < whole then digits.take whole ++ '.' :: digits.drop whole
      else '0' :: '.' :: List.replicate (places - digits.length) '0' ++ digits

/-- The shortest plain notation of a finite number; negative zero keeps its sign. -/
def Binary64.plain (x : Binary64) : Text :=
  if x.isNegative then '-' :: x.shortest.plain else x.shortest.plain

end SqlTemplate
