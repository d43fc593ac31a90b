import UsagePolicy.Timestamp
import UsagePolicy.Toml.Value
/-!
# TOML scalars

Numbers, booleans, dates and times are runs of characters without white space, told apart by their
form; one space may stand between a date and a time.
-/

namespace UsagePolicy.Toml

/-- A character that can stand in a scalar. -/
def isScalarChar (c : Char) : Bool :=
  c.isAlphanum || c == '+' || c == '-' || c == '_' || c == '.' || c == ':'

/-- One or more digits; an underscore stands only between two of them. -/
def isDigits (digit : Char → Bool) : List Char → Bool
  | [] => false
  | [c] => digit c
  | c :: '_' :: rest => digit c && isDigits digit rest
  | c :: rest => digit c && isDigits digit rest

def unsigned : List Char → List Char
  | '+' :: rest | '-' :: rest => rest
  | cs => cs

/-- Digits without a leading zero. -/
def isDecimal (cs : List Char) : Bool :=
  isDigits Char.isDigit cs && (cs == ['0'] || cs.head? != some '0')

def isInteger (cs : List Char) : Bool :=
  match cs with
  | '0' :: 'x' :: rest =>
    isDigits (fun c => c.isDigit || ('a' ≤ c && c ≤ 'f') || ('A' ≤ c && c ≤ 'F')) rest
  | '0' :: 'o' :: rest => isDigits (fun c => '0' ≤ c && c ≤ '7') rest
  | '0' :: 'b' :: rest => isDigits (fun c => c == '0' || c == '1') rest
  | _ => isDecimal (unsigned cs)

/-- A decimal integer with a fraction, an exponent or both; or an infinity, or not a number. -/
def isFloat (cs : List Char) : Bool :=
  let body := unsigned cs
  let isMark (c : Char) : Bool := c == 'e' || c == 'E'
  let mantissa := body.takeWhile (!isMark ·)
  let whole := mantissa.takeWhile (· != '.')
  let fractionOk := match mantissa.dropWhile (· != '.') with
    | [] => true
    | _ :: fraction => isDigits Char.isDigit fraction
  let powerOk := match body.dropWhile (!isMark ·) with
    | [] => true
    | _ :: power => isDigits Char.isDigit (unsigned power)
  body == "inf".toList || body == "nan".toList ||
    (mantissa.length < body.length || whole.length < mantissa.length) && isDecimal whole &&
      fractionOk && powerOk

def readDate (cs : List Char) : Option (List Char) := do
  let (year, cs) ← Timestamp.readDigits 4 cs
  let cs ← Timestamp.readChar (· == '-') cs
  let (month, cs) ← Timestamp.readDigits 2 cs
  let cs ← Timestamp.readChar (· == '-') cs
  let (day, cs) ← Timestamp.readDigits 2 cs
  if 1 ≤ month ∧ month ≤ 12 ∧ 1 ≤ day ∧ day ≤ daysInMonth year month then some cs else none

/-- Reads hours and minutes, and seconds if there are any. -/
def readTime (cs : List Char) : Option (List Char) := do
  let (hour, cs) ← Timestamp.readDigits 2 cs
  let cs ← Timestamp.readChar (· == ':') cs
  let (minute, cs) ← Timestamp.readDigits 2 cs
  if 24 ≤ hour ∨ 60 ≤ minute then none
  else
    match cs with
    | ':' :: cs => do
      let (second, cs) ← Timestamp.readDigits 2 cs
      if 60 < second then none else (Timestamp.readFraction cs).map (·.2)
    | cs => some cs

def isTime (cs : List Char) : Bool :=
  readTime cs == some []

/-- A date, a time, or both with or without an offset. -/
def isDatetime (cs : List Char) : Bool :=
  isTime cs ||
    match readDate cs with
    | none => false
    | some [] => true
    | some (c :: rest) =>
      (c == 'T' || c == 't' || c == ' ') &&
        match readTime rest with
        | none => false
        | some [] => true
        | some rest => (Timestamp.readOffset rest).any (·.2.isEmpty)

/-- The run of scalar characters at the start, with a time that follows a date after a space. -/
def scalarText (cs : List Char) : List Char × List Char :=
  let word := cs.takeWhile isScalarChar
  match cs.dropWhile isScalarChar with
  | ' ' :: rest =>
    let next := rest.takeWhile isScalarChar
    if readDate word == some [] && (next.head?.any Char.isDigit) then
      (word ++ ' ' :: next, rest.dropWhile isScalarChar)
    else (word, ' ' :: rest)
  | rest => (word, rest)

def scalar? (cs : List Char) : Option Toml :=
  let text := String.ofList cs
  if text = "true" then some (boolean true)
  else if text = "false" then some (boolean false)
  else if isInteger cs then some (integer text)
  else if isFloat cs then some (float text)
  else if isDatetime cs then some (datetime text)
  else none

end UsagePolicy.Toml
