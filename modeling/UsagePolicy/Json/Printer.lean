import UsagePolicy.Json.Value
import UsagePolicy.Text.Digits
/-!
# Writing JSON

Values are laid out over lines, two spaces for each level. A quote, a backslash and control
characters are escaped, and nothing else.
-/

namespace UsagePolicy.Json

def escape (c : Char) : List Char :=
  match c with
  | '"' => ['\\', '"']
  | '\\' => ['\\', '\\']
  | '\x08' => ['\\', 'b']
  | '\x0c' => ['\\', 'f']
  | '\n' => ['\\', 'n']
  | '\r' => ['\\', 'r']
  | '\t' => ['\\', 't']
  | c =>
    if c.toNat < 0x20 then
      ['\\', 'u', '0', '0', Text.lowerHexDigit (c.toNat / 16), Text.lowerHexDigit (c.toNat % 16)]
    else [c]

def quote (s : String) : List Char :=
  '"' :: s.toList.flatMap escape ++ ['"']

def indent (depth : Nat) : List Char :=
  '\n' :: List.replicate (2 * depth) ' '

mutual

/-- The characters of a value that begins at a depth. -/
def layout (depth : Nat) : Json → List Char
  | null => "null".toList
  | bool b => if b then "true".toList else "false".toList
  | number n => n.toList
  | string s => quote s
  | array [] => "[]".toList
  | array (v :: vs) =>
    '[' :: indent (depth + 1) ++ layout (depth + 1) v ++ layoutItems (depth + 1) vs ++
      indent depth ++ [']']
  | object [] => "\x7b\x7d".toList
  | object ((n, v) :: ms) =>
    '{' :: indent (depth + 1) ++ quote n ++ ": ".toList ++ layout (depth + 1) v ++
      layoutMembers (depth + 1) ms ++ indent depth ++ ['}']

/-- The items that follow another. -/
def layoutItems (depth : Nat) : List Json → List Char
  | [] => []
  | v :: vs => ',' :: indent depth ++ layout depth v ++ layoutItems depth vs

/-- The members that follow another. -/
def layoutMembers (depth : Nat) : List (String × Json) → List Char
  | [] => []
  | (n, v) :: ms =>
    ',' :: indent depth ++ quote n ++ ": ".toList ++ layout depth v ++ layoutMembers depth ms

end

def pretty (v : Json) : String :=
  String.ofList (layout 0 v)

end UsagePolicy.Json
