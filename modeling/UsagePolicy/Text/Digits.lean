/-!
# Digits

Numbers that are written in decimal or in hexadecimal digits.
-/

namespace UsagePolicy.Text

/-- The number that a row of decimal digits writes. -/
def decimalNumber (cs : List Char) : Nat :=
  cs.foldl (fun n c => 10 * n + (c.toNat - '0'.toNat)) 0

/-- The integer that an optional sign and a row of decimal digits write. -/
def decimalInteger : List Char → Int
  | '-' :: rest => -(decimalNumber rest : Int)
  | '+' :: rest => decimalNumber rest
  | cs => decimalNumber cs

example : decimalInteger "-0120".toList = -120 := by decide

/-- The value of a hexadecimal digit of either case. -/
def hexValue? (c : Char) : Option Nat :=
  if '0' ≤ c ∧ c ≤ '9' then some (c.toNat - '0'.toNat)
  else if 'a' ≤ c ∧ c ≤ 'f' then some (c.toNat - 'a'.toNat + 10)
  else if 'A' ≤ c ∧ c ≤ 'F' then some (c.toNat - 'A'.toNat + 10)
  else none

/-- The number that a row of hexadecimal digits writes. -/
def hexNumber? (cs : List Char) : Option Nat :=
  cs.foldlM (fun n c => (hexValue? c).map (16 * n + ·)) 0

/-- The character with a code, if there is one. -/
def charOfCode? (n : Nat) : Option Char :=
  if n.isValidChar then some (Char.ofNat n) else none

/-- The digit of a value below sixteen, in upper case. -/
def upperHexDigit (n : Nat) : Char :=
  "0123456789ABCDEF".toList.getD n '0'

/-- The digit of a value below sixteen, in lower case. -/
def lowerHexDigit (n : Nat) : Char :=
  "0123456789abcdef".toList.getD n '0'

end UsagePolicy.Text
