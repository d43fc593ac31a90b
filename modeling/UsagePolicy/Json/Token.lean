import UsagePolicy.Json.Value
import UsagePolicy.Text.Digits
/-!
# JSON tokens

A document is a sequence of tokens with white space between them.
-/

namespace UsagePolicy.Json

inductive Token
  | openArray
  | closeArray
  | openObject
  | closeObject
  | comma
  | colon
  | null
  | bool (value : Bool)
  | number (text : String)
  | string (text : String)

namespace Token

/-- White space between tokens. -/
def isSpace (c : Char) : Bool :=
  c == ' ' || c == '\n' || c == '\t' || c == '\r'

/-- The character that a one-letter escape stands for. -/
def escaped? : Char → Option Char
  | '"' => some '"'
  | '\\' => some '\\'
  | '/' => some '/'
  | 'b' => some '\x08'
  | 'f' => some '\x0c'
  | 'n' => some '\n'
  | 'r' => some '\r'
  | 't' => some '\t'
  | _ => none

/-- The character that two surrogates stand for. -/
def joinSurrogates? (high low : Nat) : Option Char :=
  if 0xD800 ≤ high ∧ high < 0xDC00 ∧ 0xDC00 ≤ low ∧ low < 0xE000 then
    Text.charOfCode? (0x10000 + (high - 0xD800) * 0x400 + (low - 0xDC00))
  else none

/-- Reads the rest of a string after its opening quote. Control characters have to be escaped, and
a surrogate stands only before or after its other half. -/
def scanString : List Char → Option (List Char × List Char)
  | '"' :: rest => some ([], rest)
  | '\\' :: 'u' :: a :: b :: c :: d :: rest =>
    match Text.hexNumber? [a, b, c, d] with
    | none => none
    | some n =>
      match Text.charOfCode? n with
      | some ch => (scanString rest).map fun r => (ch :: r.1, r.2)
      | none =>
        match rest with
        | '\\' :: 'u' :: e :: f :: g :: h :: rest =>
          match (Text.hexNumber? [e, f, g, h]).bind (joinSurrogates? n) with
          | some ch => (scanString rest).map fun r => (ch :: r.1, r.2)
          | none => none
        | _ => none
  | '\\' :: c :: rest =>
    match escaped? c with
    | some ch => (scanString rest).map fun r => (ch :: r.1, r.2)
    | none => none
  | c :: rest =>
    if c.toNat < 0x20 ∨ c = '\\' then none
    else (scanString rest).map fun r => (c :: r.1, r.2)
  | [] => none

theorem length_of_scanString {cs s rest : List Char} (h : scanString cs = some (s, rest)) :
    rest.length < cs.length := by
  fun_induction scanString cs generalizing s rest with
  | case1 tail => simp_all
  | case3 a b c d tail n _ ch _ ih =>
    obtain ⟨⟨s', rest'⟩, hs, hr⟩ := Option.map_eq_some_iff.1 h
    have := ih hs
    simp_all only [Prod.mk.injEq, List.length_cons]
    omega
  | case4 a b c d n _ _ e f g h' tail ch _ ih =>
    obtain ⟨⟨s', rest'⟩, hs, hr⟩ := Option.map_eq_some_iff.1 h
    have := ih hs
    simp_all only [Prod.mk.injEq, List.length_cons]
    omega
  | case7 c tail _ ch _ ih =>
    obtain ⟨⟨s', rest'⟩, hs, hr⟩ := Option.map_eq_some_iff.1 h
    have := ih hs
    simp_all only [Prod.mk.injEq, List.length_cons]
    omega
  | case10 c tail _ _ _ _ ih =>
    obtain ⟨⟨s', rest'⟩, hs, hr⟩ := Option.map_eq_some_iff.1 h
    have := ih hs
    simp_all only [Prod.mk.injEq, List.length_cons]
    omega
  | case2 | case5 | case6 | case8 | case9 | case11 => simp_all

/-- A character that can stand in a number. -/
def isNumberChar (c : Char) : Bool :=
  c.isDigit || c == '-' || c == '+' || c == '.' || c == 'e' || c == 'E'

/-- Nothing, or `e` and an integer with at least one digit. -/
def isExponent : List Char → Bool
  | [] => true
  | c :: rest =>
    (c == 'e' || c == 'E') &&
      match rest with
      | '+' :: ds | '-' :: ds => !ds.isEmpty && ds.all Char.isDigit
      | ds => !ds.isEmpty && ds.all Char.isDigit

/-- Nothing, or a point and at least one digit, and then an exponent. -/
def isFraction : List Char → Bool
  | '.' :: rest =>
    let digits := rest.takeWhile Char.isDigit
    !digits.isEmpty && isExponent (rest.dropWhile Char.isDigit)
  | rest => isExponent rest

/-- The grammar of numbers: no leading zeros, and digits on both sides of a point. -/
def isNumber (cs : List Char) : Bool :=
  let unsigned := match cs with
    | '-' :: rest => rest
    | _ => cs
  match unsigned with
  | '0' :: rest => isFraction rest
  | c :: rest => c.isDigit && isFraction (rest.dropWhile Char.isDigit)
  | [] => false

/-- The tokens of a document. -/
def scan (cs : List Char) : Option (List Token) :=
  match cs with
  | [] => some []
  | '[' :: rest => (scan rest).map (openArray :: ·)
  | ']' :: rest => (scan rest).map (closeArray :: ·)
  | '{' :: rest => (scan rest).map (openObject :: ·)
  | '}' :: rest => (scan rest).map (closeObject :: ·)
  | ',' :: rest => (scan rest).map (comma :: ·)
  | ':' :: rest => (scan rest).map (colon :: ·)
  | 'n' :: 'u' :: 'l' :: 'l' :: rest => (scan rest).map (null :: ·)
  | 't' :: 'r' :: 'u' :: 'e' :: rest => (scan rest).map (bool true :: ·)
  | 'f' :: 'a' :: 'l' :: 's' :: 'e' :: rest => (scan rest).map (bool false :: ·)
  | '"' :: rest =>
    match h : scanString rest with
    | some (s, tail) =>
      have := length_of_scanString h
      (scan tail).map (string (String.ofList s) :: ·)
    | none => none
  | c :: rest =>
    if isSpace c then scan rest
    else
      let digits := c :: rest.takeWhile isNumberChar
      if isNumberChar c && isNumber digits then
        have : (rest.dropWhile isNumberChar).length ≤ rest.length :=
          (List.dropWhile_sublist _).length_le
        (scan (rest.dropWhile isNumberChar)).map (number (String.ofList digits) :: ·)
      else none
termination_by cs.length

end Token

end UsagePolicy.Json
