import UsagePolicy.Json.Decimal
import UsagePolicy.Json.Value
/-!
# Magnitude of numbers

A number whose nearest double is infinite is out of range.
-/

namespace UsagePolicy.Json

/-- Below the least number that is rounded to infinity, halfway above the greatest double. Only
numbers of 309 places have to be compared with it. -/
def Decimal.isFinite (d : Decimal) : Bool :=
  if d.digits.isEmpty || d.places < 309 then true
  else if 309 < d.places then false
  else
    let number := Text.decimalNumber d.digits
    let bound := Nat.pow 2 1024 - Nat.pow 2 970
    if 0 ≤ d.exponent then decide (number * Nat.pow 10 d.exponent.toNat < bound)
    else decide (number < bound * Nat.pow 10 (-d.exponent).toNat)

mutual

/-- Every number in the value is in range. -/
def inRange : Json → Bool
  | number n => (Decimal.ofText n).isFinite
  | array vs => inRangeItems vs
  | object ms => inRangeMembers ms
  | _ => true

def inRangeItems : List Json → Bool
  | [] => true
  | v :: vs => inRange v && inRangeItems vs

def inRangeMembers : List (String × Json) → Bool
  | [] => true
  | (_, v) :: ms => inRange v && inRangeMembers ms

end

end UsagePolicy.Json
