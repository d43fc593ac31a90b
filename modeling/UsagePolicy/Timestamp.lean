import UsagePolicy.Text.Digits
/-!
# Timestamps

Instants of the years 0 to 9999 with the offset of the place where the clock was read, and their
form after RFC 3339. A fraction of a second has up to nine digits and is written without trailing
zeros; an offset of zero is written `Z`.
-/

namespace UsagePolicy

def isLeapYear (year : Nat) : Bool :=
  year % 4 == 0 && (year % 100 != 0 || year % 400 == 0)

/-- The number of days of a month, counted from 1. -/
def daysInMonth (year month : Nat) : Nat :=
  if month = 2 then (if isLeapYear year then 29 else 28)
  else if month ∈ [4, 6, 9, 11] then 30
  else 31

/-- A local date and time; the offset is in minutes east of UTC. -/
structure Timestamp where
  year : Nat
  month : Nat
  day : Nat
  hour : Nat
  minute : Nat
  second : Nat
  nanosecond : Nat
  offset : Int
  valid : year ≤ 9999 ∧ (1 ≤ month ∧ month ≤ 12) ∧ (1 ≤ day ∧ day ≤ daysInMonth year month) ∧
    hour < 24 ∧ minute < 60 ∧ second < 60 ∧ nanosecond < 1000000000 ∧ offset.natAbs < 1440
  deriving DecidableEq

namespace Timestamp

/-- The timestamp with these parts, if there is one. -/
def ofParts? (year month day hour minute second nanosecond : Nat) (offset : Int) :
    Option Timestamp :=
  if h : _ then some ⟨year, month, day, hour, minute, second, nanosecond, offset, h⟩ else none

def epoch : Timestamp :=
  ⟨1970, 1, 1, 0, 0, 0, 0, 0, by decide⟩

/-- The last `width` decimal digits of a number. -/
def digits : Nat → Nat → List Char
  | 0, _ => []
  | width + 1, n => digits width (n / 10) ++ [Char.ofNat ('0'.toNat + n % 10)]

/-- Digits without the zeros at their end. -/
def dropTrailingZeros (cs : List Char) : List Char :=
  (cs.reverse.dropWhile (· == '0')).reverse

def fractionText (nanosecond : Nat) : List Char :=
  match dropTrailingZeros (digits 9 nanosecond) with
  | [] => []
  | ds => '.' :: ds

def offsetText (offset : Int) : List Char :=
  if offset = 0 then ['Z']
  else
    (if offset < 0 then '-' else '+') ::
      (digits 2 (offset.natAbs / 60) ++ ':' :: digits 2 (offset.natAbs % 60))

def toChars (t : Timestamp) : List Char :=
  digits 4 t.year ++ '-' :: digits 2 t.month ++ '-' :: digits 2 t.day ++
    'T' :: digits 2 t.hour ++ ':' :: digits 2 t.minute ++ ':' :: digits 2 t.second ++
    fractionText t.nanosecond ++ offsetText t.offset

def render (t : Timestamp) : String :=
  String.ofList t.toChars

/-- Reads exactly `width` decimal digits. -/
def readDigits (width : Nat) (cs : List Char) : Option (Nat × List Char) :=
  let ds := cs.take width
  if ds.length = width ∧ ds.all Char.isDigit then
    some (Text.decimalNumber ds, cs.drop width)
  else none

def readChar (expected : Char → Bool) : List Char → Option (List Char)
  | c :: cs => if expected c then some cs else none
  | [] => none

/-- Reads a point and digits, of which the first nine count, or nothing. -/
def readFraction : List Char → Option (Nat × List Char)
  | '.' :: cs =>
    let ds := cs.takeWhile Char.isDigit
    if ds.isEmpty then none
    else
      let nine := (ds ++ List.replicate 9 '0').take 9
      some (Text.decimalNumber nine, cs.dropWhile Char.isDigit)
  | cs => some (0, cs)

/-- Reads `Z`, or a sign, hours and minutes. -/
def readOffset : List Char → Option (Int × List Char)
  | [] => none
  | sign :: cs =>
    if sign = 'Z' ∨ sign = 'z' then some (0, cs)
    else if sign = '+' ∨ sign = '-' then do
      let (hours, cs) ← readDigits 2 cs
      let cs ← readChar (· == ':') cs
      let (minutes, cs) ← readDigits 2 cs
      if hours < 24 ∧ minutes < 60 then
        let total : Int := hours * 60 + minutes
        return (if sign = '-' then -total else total, cs)
      else none
    else none

/-- Whether the minute is the last of a month in UTC, where a leap second can be put in. -/
def endsMonthInUtc (t : Timestamp) : Bool :=
  let utc : Int := t.hour * 60 + t.minute - t.offset
  (utc == 1439 && t.day == daysInMonth t.year t.month) || (utc == -1 && t.day == 1)

/-- The seconds and nanoseconds that stand for a reading; a leap second is counted as the last
nanosecond before it. -/
def ofReading? (year month day hour minute second nanosecond : Nat) (offset : Int) :
    Option Timestamp :=
  if second = 60 then
    (ofParts? year month day hour minute 59 999999999 offset).filter endsMonthInUtc
  else ofParts? year month day hour minute second nanosecond offset

def ofChars? (cs : List Char) : Option Timestamp := do
  let (year, cs) ← readDigits 4 cs
  let cs ← readChar (· == '-') cs
  let (month, cs) ← readDigits 2 cs
  let cs ← readChar (· == '-') cs
  let (day, cs) ← readDigits 2 cs
  let cs ← readChar (fun c => c == 'T' || c == 't') cs
  let (hour, cs) ← readDigits 2 cs
  let cs ← readChar (· == ':') cs
  let (minute, cs) ← readDigits 2 cs
  let cs ← readChar (· == ':') cs
  let (second, cs) ← readDigits 2 cs
  let (nanosecond, cs) ← readFraction cs
  let (offset, cs) ← readOffset cs
  if cs.isEmpty then ofReading? year month day hour minute second nanosecond offset else none

def parse? (text : String) : Option Timestamp :=
  ofChars? text.toList

example : (parse? "2026-01-02T03:04:05.1200-00:30").map render =
    some "2026-01-02T03:04:05.12-00:30" := by
  decide

end Timestamp

end UsagePolicy
