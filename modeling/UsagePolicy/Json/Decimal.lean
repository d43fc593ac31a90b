import UsagePolicy.Text.Digits
/-!
# Numbers by their digits

A number of a JSON document as a sign, digits and a power of ten, without rounding.
-/

namespace UsagePolicy.Json

/-- The digits, from the first that is not zero, stand for a whole number, which is multiplied by a
power of ten. -/
structure Decimal where
  isNegative : Bool
  digits : List Char
  exponent : Int

namespace Decimal

def isMark (c : Char) : Bool :=
  c == 'e' || c == 'E'

def isZero (c : Char) : Bool :=
  c == '0'

/-- The number that a text without a sign in front writes. -/
def ofUnsigned (isNegative : Bool) (cs : List Char) : Decimal :=
  let mantissa := cs.takeWhile (!isMark ·)
  let power := cs.drop (mantissa.length + 1)
  let whole := mantissa.takeWhile (· != '.')
  let fraction := mantissa.drop (whole.length + 1)
  ⟨isNegative, (whole ++ fraction).dropWhile isZero, Text.decimalInteger power - fraction.length⟩

/-- The number that a text writes. -/
def ofText (text : String) : Decimal :=
  match text.toList with
  | '-' :: cs => ofUnsigned true cs
  | cs => ofUnsigned false cs

/-- The number of places before the point; negative where zeros follow it. -/
def places (d : Decimal) : Int :=
  d.exponent + d.digits.length

end Decimal

end UsagePolicy.Json
