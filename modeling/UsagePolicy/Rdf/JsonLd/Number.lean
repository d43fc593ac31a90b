import UsagePolicy.Json.Decimal
import UsagePolicy.Rdf.Term
/-!
# Numbers of JSON documents as literals

A number is written from its decimal digits: a whole number below 10²¹ as an integer without point
and exponent, any other with one digit before the point and an exponent.
-/

namespace UsagePolicy.Rdf.JsonLd

open UsagePolicy.Json (Decimal)

/-- The digits up to the last that is not zero. -/
def significantDigits (d : Decimal) : List Char :=
  (d.digits.reverse.dropWhile Decimal.isZero).reverse

/-- A whole number below 10²¹. -/
def isInteger (d : Decimal) : Bool :=
  d.digits.isEmpty ||
    (decide ((significantDigits d).length ≤ d.places) && decide (d.places < 22))

def integerText (d : Decimal) : List Char :=
  match significantDigits d with
  | [] => ['0']
  | digits => digits ++ List.replicate (d.places.toNat - digits.length) '0'

def doubleText (d : Decimal) : List Char :=
  let exponent := 'E' :: (toString (d.places - 1)).toList
  match significantDigits d with
  | [] => "0.0E0".toList
  | [digit] => digit :: '.' :: '0' :: exponent
  | digit :: rest => digit :: '.' :: rest ++ exponent

/-- The text of a number and the datatype it has by itself. -/
def numberLiteral (d : Decimal) : String × String :=
  let sign := if d.isNegative then ['-'] else []
  if isInteger d then (String.ofList (sign ++ integerText d), Datatype.integer)
  else (String.ofList (sign ++ doubleText d), Datatype.double)

example : numberLiteral (.ofText "-0.00250") = ("-2.5E-3", Datatype.double) := by
  decide +kernel

example : numberLiteral (.ofText "12E20") = ("1.2E21", Datatype.double) := by
  decide +kernel

end UsagePolicy.Rdf.JsonLd
