import UsagePolicy.Text.Digits
/-!
# TOML strings

Basic strings have escapes, literal strings have none; both have a form over several lines, between
three quotes. Each function reads what follows the opening quotes.
-/

namespace UsagePolicy.Toml

/-- A character that may stand in a comment or, but for quotes and backslashes, in a string. -/
def isPlain (c : Char) : Bool :=
  c == '\t' || (0x20 ≤ c.toNat && c.toNat != 0x7F)

def isSpace (c : Char) : Bool :=
  c == ' ' || c == '\t'

/-- Puts a character before the result of a reading. -/
def consRead (c : Char) (r : List Char × List Char) : List Char × List Char :=
  (c :: r.1, r.2)

def escaped? : Char → Option Char
  | 'b' => some '\x08'
  | 't' => some '\t'
  | 'n' => some '\n'
  | 'f' => some '\x0c'
  | 'r' => some '\r'
  | 'e' => some '\x1b'
  | '"' => some '"'
  | '\\' => some '\\'
  | _ => none

/-- The number of hexadecimal digits after an escape's letter. -/
def escapeWidth? : Char → Option Nat
  | 'x' => some 2
  | 'u' => some 4
  | 'U' => some 8
  | _ => none

/-- Reads an escape after its backslash. -/
def readEscape : List Char → Option (Char × List Char)
  | [] => none
  | c :: rest =>
    match escaped? c, escapeWidth? c with
    | some ch, _ => some (ch, rest)
    | none, some width =>
      let ds := rest.take width
      if ds.length = width then
        ((Text.hexNumber? ds).bind Text.charOfCode?).map (·, rest.drop width)
      else none
    | none, none => none

theorem length_of_readEscape {cs rest : List Char} {c : Char}
    (h : readEscape cs = some (c, rest)) : rest.length < cs.length := by
  cases cs with
  | nil => simp [readEscape] at h
  | cons d ds =>
    simp only [readEscape] at h
    split at h
    · simp_all
    · split at h
      · obtain ⟨_, _, hr⟩ := Option.map_eq_some_iff.1 h
        have := congrArg (fun p => p.2.length) hr
        simp only [List.length_drop] at this
        simp only [List.length_cons]
        omega
      · simp at h
    · simp at h

def readBasic : List Char → Option (List Char × List Char)
  | [] => none
  | '"' :: rest => some ([], rest)
  | '\\' :: rest =>
    match h : readEscape rest with
    | some (c, tail) =>
      have := length_of_readEscape h
      (readBasic tail).map (consRead c)
    | none => none
  | c :: rest => if isPlain c then (readBasic rest).map (consRead c) else none
termination_by cs => cs.length

def readLiteral : List Char → Option (List Char × List Char)
  | [] => none
  | '\'' :: rest => some ([], rest)
  | c :: rest => if isPlain c then (readLiteral rest).map (consRead c) else none

/-- Drops a line break at the start. -/
def dropLineBreak : List Char → List Char
  | '\n' :: rest => rest
  | '\r' :: '\n' :: rest => rest
  | cs => cs

/-- Drops all white space and line breaks after a backslash at the end of a line. -/
def dropBlankLines : List Char → List Char
  | '\r' :: '\n' :: rest => dropBlankLines rest
  | c :: rest => if isSpace c || c == '\n' then dropBlankLines rest else c :: rest
  | [] => []

theorem length_dropBlankLines (cs : List Char) : (dropBlankLines cs).length ≤ cs.length := by
  fun_induction dropBlankLines cs with
  | case1 rest ih => simp only [List.length_cons]; omega
  | case2 c rest _ _ ih => simp only [List.length_cons]; omega
  | case3 | case4 => simp

/-- What follows a backslash, if nothing but white space stands before the end of the line. -/
def lineContinuation? (cs : List Char) : Option (List Char) :=
  match cs.dropWhile isSpace with
  | '\n' :: rest => some (dropBlankLines rest)
  | '\r' :: '\n' :: rest => some (dropBlankLines rest)
  | _ => none

theorem length_of_lineContinuation {cs rest : List Char} (h : lineContinuation? cs = some rest) :
    rest.length < cs.length := by
  have hd : (cs.dropWhile isSpace).length ≤ cs.length := (List.dropWhile_sublist _).length_le
  unfold lineContinuation? at h
  split at h
  · next tail heq =>
    have := length_dropBlankLines tail
    rw [heq] at hd
    simp_all only [Option.some.injEq, List.length_cons]
    omega
  · next tail heq =>
    have := length_dropBlankLines tail
    rw [heq] at hd
    simp_all only [Option.some.injEq, List.length_cons]
    omega
  · simp at h

/-- Reads to three quotes; up to two more before them belong to the text. -/
def readBasicLines : List Char → Option (List Char × List Char)
  | '"' :: '"' :: '"' :: '"' :: '"' :: rest => some (['"', '"'], rest)
  | '"' :: '"' :: '"' :: '"' :: rest => some (['"'], rest)
  | '"' :: '"' :: '"' :: rest => some ([], rest)
  | '\\' :: rest =>
    match hc : lineContinuation? rest, he : readEscape rest with
    | some tail, _ =>
      have := length_of_lineContinuation hc
      readBasicLines tail
    | none, some (c, tail) =>
      have := length_of_readEscape he
      (readBasicLines tail).map (consRead c)
    | none, none => none
  | '\r' :: '\n' :: rest => (readBasicLines rest).map fun r => consRead '\r' (consRead '\n' r)
  | c :: rest =>
    if isPlain c || c == '\n' then (readBasicLines rest).map (consRead c) else none
  | [] => none
termination_by cs => cs.length

/-- Reads to three quotes; up to two more before them belong to the text. -/
def readLiteralLines : List Char → Option (List Char × List Char)
  | '\'' :: '\'' :: '\'' :: '\'' :: '\'' :: rest => some (['\'', '\''], rest)
  | '\'' :: '\'' :: '\'' :: '\'' :: rest => some (['\''], rest)
  | '\'' :: '\'' :: '\'' :: rest => some ([], rest)
  | '\r' :: '\n' :: rest => (readLiteralLines rest).map fun r => consRead '\r' (consRead '\n' r)
  | c :: rest =>
    if isPlain c || c == '\n' then (readLiteralLines rest).map (consRead c) else none
  | [] => none

/-- Reads a string of any form from its opening quotes. -/
def readString : List Char → Option (List Char × List Char)
  | '"' :: '"' :: '"' :: rest => readBasicLines (dropLineBreak rest)
  | '"' :: rest => readBasic rest
  | '\'' :: '\'' :: '\'' :: rest => readLiteralLines (dropLineBreak rest)
  | '\'' :: rest => readLiteral rest
  | _ => none

end UsagePolicy.Toml
