import UsagePolicy.Rdf.Turtle.Number
/-!
# Turtle tokens

A document is a sequence of tokens with white space and comments between them.
-/

namespace UsagePolicy.Rdf.Turtle

inductive Token
  | iri (text : String)
  | name (space localPart : String)
  | blank (label : String)
  | text (text : String)
  | tag (text : String)
  | number (text datatype : String)
  | word (text : String)
  | datatypeMark
  | point
  | comma
  | semicolon
  | openBracket
  | closeBracket
  | openParen
  | closeParen
  deriving DecidableEq

/-- Reads a name or a word. -/
def readName (cs : List Char) : Option (Token × List Char) :=
  match cutWord cs with
  | (space, ':' :: rest) =>
    if space.getLast? = some '.' then none
    else (readLocal rest).map fun r => (.name (String.ofList space) (String.ofList r.1), r.2)
  | cut =>
    match givePointsBack cut with
    | ([], _) => none
    | (word, rest) => some (.word (String.ofList word), rest)

/-- Reads a quoted text, in one or in three quotes, after its first quote. -/
def readText (quote : Char) (cs : List Char) : Option (Token × List Char) :=
  let long := cs.head? = some quote ∧ cs.tail.head? = some quote
  let text := if long then readLongQuoted quote (cs.drop 2) else readQuoted quote cs
  text.map fun r => (.text (String.ofList r.1), r.2)

/-- Reads the token that begins with a character that is neither white space nor a comment. -/
def readToken (c : Char) (rest : List Char) : Option (Token × List Char) :=
  match c, rest with
  | ',', rest => some (.comma, rest)
  | ';', rest => some (.semicolon, rest)
  | '[', rest => some (.openBracket, rest)
  | ']', rest => some (.closeBracket, rest)
  | '(', rest => some (.openParen, rest)
  | ')', rest => some (.closeParen, rest)
  | '^', '^' :: rest => some (.datatypeMark, rest)
  | '<', rest => (readIri rest).map fun r => (.iri (String.ofList r.1), r.2)
  | '"', rest => readText '"' rest
  | '\'', rest => readText '\'' rest
  | '_', ':' :: rest => (readLabel rest).map fun r => (.blank (String.ofList r.1), r.2)
  | '@', rest => some (.tag (String.ofList (rest.takeWhile isTagChar)), rest.dropWhile isTagChar)
  | c, rest =>
    if c == '.' && !(rest.head?.any Char.isDigit) then some (.point, rest)
    else if c.isDigit || c == '.' || c == '+' || c == '-' then
      (readNumber (c :: rest)).map fun r => (.number r.1.1 r.1.2, r.2)
    else if isNameStart c || c == ':' then readName (c :: rest)
    else none

theorem length_of_readName {cs rest : List Char} {t : Token}
    (h : readName cs = some (t, rest)) : rest.length < cs.length := by
  have hc := length_cutWord cs
  unfold readName at h
  split at h
  · next space tail heq =>
    rw [heq] at hc
    split at h
    · simp at h
    · obtain ⟨r, hr, he⟩ := Option.map_eq_some_iff.1 h
      cases he
      have := length_of_readLocal hr
      simp only [List.length_cons] at hc
      omega
  · have hp := length_givePointsBack (cutWord cs)
    split at h
    · simp at h
    · next word tail hne heq =>
      rw [heq] at hp
      have : word.length ≠ 0 := fun h0 => by
        exact hne (List.length_eq_zero_iff.1 h0)
      cases h
      simp only at hp
      omega

theorem length_of_readText {quote : Char} {cs rest : List Char} {t : Token}
    (h : readText quote cs = some (t, rest)) : rest.length < cs.length := by
  unfold readText at h
  obtain ⟨r, hr, he⟩ := Option.map_eq_some_iff.1 h
  cases he
  split at hr
  · have := length_of_readLongQuoted hr
    rw [List.length_drop] at this
    omega
  · exact length_of_readQuoted hr

theorem length_of_readToken {c : Char} {cs rest : List Char} {t : Token}
    (h : readToken c cs = some (t, rest)) : rest.length ≤ cs.length := by
  unfold readToken at h
  split at h
  case h_8 =>
    obtain ⟨r, hr, he⟩ := Option.map_eq_some_iff.1 h
    cases he
    exact Nat.le_of_lt (length_of_readIri hr)
  case h_9 => exact Nat.le_of_lt (length_of_readText h)
  case h_10 => exact Nat.le_of_lt (length_of_readText h)
  case h_11 =>
    obtain ⟨r, hr, he⟩ := Option.map_eq_some_iff.1 h
    cases he
    exact Nat.le_succ_of_le (Nat.le_of_lt (length_of_readLabel hr))
  case h_12 => cases h; exact (List.dropWhile_sublist _).length_le
  case h_13 =>
    split at h
    · cases h; exact Nat.le_refl _
    · split at h
      · obtain ⟨r, hr, he⟩ := Option.map_eq_some_iff.1 h
        cases he
        exact Nat.le_of_lt_succ (length_of_readNumber hr)
      · split at h
        · exact Nat.le_of_lt_succ (length_of_readName h)
        · simp at h
  all_goals
    cases h
    simp

def isSpace (c : Char) : Bool :=
  c == ' ' || c == '\t' || c == '\n' || c == '\r'

def isLineBreak (c : Char) : Bool :=
  c == '\n' || c == '\r'

/-- The tokens of a document. -/
def tokens? (cs : List Char) : Option (List Token) :=
  match cs with
  | [] => some []
  | c :: rest =>
    if isSpace c then tokens? rest
    else if c = '#' then
      have : (rest.dropWhile (!isLineBreak ·)).length ≤ rest.length :=
        (List.dropWhile_sublist _).length_le
      tokens? (rest.dropWhile (!isLineBreak ·))
    else
      match h : readToken c rest with
      | some (t, tail) =>
        have := length_of_readToken h
        (tokens? tail).map (t :: ·)
      | none => none
termination_by cs.length

end UsagePolicy.Rdf.Turtle
