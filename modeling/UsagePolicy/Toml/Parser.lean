import UsagePolicy.Toml.Quoted
import UsagePolicy.Toml.Scalar
import UsagePolicy.Toml.Tree
/-!
# Reading TOML

Statements of a document, one on a line: headers, and keys with their values. Arrays and inline
tables may go on over several lines and end in a comma.
-/

namespace UsagePolicy.Toml

def skipSpaces (cs : List Char) : List Char :=
  cs.dropWhile isSpace

/-- Drops a comment up to the end of its line. -/
def skipComment : List Char → List Char
  | '#' :: rest => rest.dropWhile isPlain
  | cs => cs

/-- Reads a line break, or the end of the text. -/
def readLineEnd (cs : List Char) : Option (List Char) :=
  match skipComment (skipSpaces cs) with
  | [] => some []
  | '\n' :: rest => some rest
  | '\r' :: '\n' :: rest => some rest
  | _ => none

/-- Drops white space, comments and line breaks; `fuel` bounds the number of lines. -/
def skipLines : Nat → List Char → List Char
  | 0, cs => cs
  | fuel + 1, cs =>
    match skipComment (skipSpaces cs) with
    | '\n' :: rest => skipLines fuel rest
    | '\r' :: '\n' :: rest => skipLines fuel rest
    | rest => rest

def isBareKeyChar (c : Char) : Bool :=
  c.isAlphanum || c == '_' || c == '-'

def readSimpleKey (cs : List Char) : Option (String × List Char) :=
  match cs with
  | '"' :: rest => (readBasic rest).map fun r => (String.ofList r.1, r.2)
  | '\'' :: rest => (readLiteral rest).map fun r => (String.ofList r.1, r.2)
  | _ =>
    match cs.takeWhile isBareKeyChar with
    | [] => none
    | key => some (String.ofList key, cs.dropWhile isBareKeyChar)

/-- Reads keys with dots between them; `fuel` bounds their number. -/
def readKey : Nat → List Char → Option (List String × List Char)
  | 0, _ => none
  | fuel + 1, cs =>
    match readSimpleKey (skipSpaces cs) with
    | none => none
    | some (key, rest) =>
      match skipSpaces rest with
      | '.' :: rest => (readKey fuel rest).map fun r => (key :: r.1, r.2)
      | rest => some ([key], rest)

/-- An inline table is complete where it ends. -/
def inlineTable? (assignments : List (List String × Toml)) : Option Toml :=
  (assignments.foldlM (fun es a => Entries.assign es a.2 a.1) ([] : Entries)).map fun es =>
    .table (entriesToToml es)

mutual

/-- Reads a value; `fuel` bounds the depth of values and the number of items in one of them. -/
def readValue : Nat → List Char → Option (Toml × List Char)
  | 0, _ => none
  | fuel + 1, cs =>
    match cs with
    | '[' :: rest => (readItems fuel rest).map fun r => (.array r.1, r.2)
    | '{' :: rest => do
      let (assignments, rest) ← readAssignments fuel rest
      return (← inlineTable? assignments, rest)
    | '"' :: _ | '\'' :: _ =>
      (readString cs).map fun r => (.string (String.ofList r.1), r.2)
    | _ =>
      let (text, rest) := scalarText cs
      (scalar? text).map (·, rest)

/-- Reads the items of an array up to its bracket. -/
def readItems : Nat → List Char → Option (List Toml × List Char)
  | 0, _ => none
  | fuel + 1, cs =>
    match skipLines fuel cs with
    | ']' :: rest => some ([], rest)
    | cs => do
      let (v, rest) ← readValue fuel cs
      match skipLines fuel rest with
      | ',' :: rest => (readItems fuel rest).map fun r => (v :: r.1, r.2)
      | ']' :: rest => some ([v], rest)
      | _ => none

/-- Reads the assignments of an inline table up to its brace. -/
def readAssignments : Nat → List Char → Option (List (List String × Toml) × List Char)
  | 0, _ => none
  | fuel + 1, cs =>
    match skipLines fuel cs with
    | '}' :: rest => some ([], rest)
    | cs => do
      let (path, rest) ← readKey fuel cs
      let rest ← Timestamp.readChar (· == '=') rest
      let (v, rest) ← readValue fuel (skipSpaces rest)
      match skipLines fuel rest with
      | ',' :: rest => (readAssignments fuel rest).map fun r => ((path, v) :: r.1, r.2)
      | '}' :: rest => some ([(path, v)], rest)
      | _ => none

end

/-- Reads a header or an assignment. -/
def readStatement (fuel : Nat) (cs : List Char) : Option (Statement × List Char) :=
  match cs with
  | '[' :: '[' :: rest => do
    let (path, rest) ← readKey fuel rest
    match rest with
    | ']' :: ']' :: rest => some (.element path, rest)
    | _ => none
  | '[' :: rest => do
    let (path, rest) ← readKey fuel rest
    let rest ← Timestamp.readChar (· == ']') rest
    return (.header path, rest)
  | _ => do
    let (path, rest) ← readKey fuel cs
    let rest ← Timestamp.readChar (· == '=') rest
    let (v, rest) ← readValue fuel (skipSpaces rest)
    return (.assign path v, rest)

/-- Reads statements to the end of the text; `fuel` bounds their number. -/
def readStatements : Nat → List Char → Option (List Statement)
  | 0, _ => none
  | fuel + 1, cs =>
    match skipLines fuel cs with
    | [] => some []
    | cs => do
      let (statement, rest) ← readStatement fuel cs
      let rest ← readLineEnd rest
      return statement :: (← readStatements fuel rest)

/-- The table of a document. A byte-order mark at its start does not count. -/
def parse? (text : String) : Option Toml :=
  let cs := match text.toList with
    | '\ufeff' :: rest => rest
    | cs => cs
  (readStatements (cs.length + 2) cs).bind Document.ofStatements?

end UsagePolicy.Toml
