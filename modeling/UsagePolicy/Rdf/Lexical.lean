import UsagePolicy.Text.Digits
/-!
# Lexical forms

Names, escapes and quoted texts as the line formats and Turtle share them. Each reader begins after
the mark that announces the form.
-/

namespace UsagePolicy.Rdf

/-- A character with which a name can begin. -/
def isNameStart (c : Char) : Bool :=
  let n := c.toNat
  c.isAlpha || (0xC0 ≤ n && n ≤ 0xD6) || (0xD8 ≤ n && n ≤ 0xF6) || (0xF8 ≤ n && n ≤ 0x2FF) ||
    (0x370 ≤ n && n ≤ 0x37D) || (0x37F ≤ n && n ≤ 0x1FFF) || (0x200C ≤ n && n ≤ 0x200D) ||
    (0x2070 ≤ n && n ≤ 0x218F) || (0x2C00 ≤ n && n ≤ 0x2FEF) || (0x3001 ≤ n && n ≤ 0xD7FF) ||
    (0xF900 ≤ n && n ≤ 0xFDCF) || (0xFDF0 ≤ n && n ≤ 0xFFFD) || (0x10000 ≤ n && n ≤ 0xEFFFF)

/-- A character with which a blank label or a local name can begin. -/
def isLabelStart (c : Char) : Bool :=
  isNameStart c || c == '_' || c.isDigit

/-- A character within a name or a label. -/
def isNamePart (c : Char) : Bool :=
  let n := c.toNat
  isLabelStart c || c == '-' || n == 0xB7 || (0x300 ≤ n && n ≤ 0x36F) ||
    (0x203F ≤ n && n ≤ 0x2040)

/-- Puts a character before the result of a reading. -/
def consRead (c : Char) (r : List Char × List Char) : List Char × List Char :=
  (c :: r.1, r.2)

/-- Reads the character of a numeric escape after its backslash. -/
def readCode : List Char → Option (Char × List Char)
  | 'u' :: a :: b :: c :: d :: rest =>
    ((Text.hexNumber? [a, b, c, d]).bind Text.charOfCode?).map (·, rest)
  | 'U' :: a :: b :: c :: d :: e :: f :: g :: h :: rest =>
    ((Text.hexNumber? [a, b, c, d, e, f, g, h]).bind Text.charOfCode?).map (·, rest)
  | _ => none

/-- Reads the character of any escape after its backslash. -/
def readEscape : List Char → Option (Char × List Char)
  | 't' :: rest => some ('\t', rest)
  | 'b' :: rest => some ('\x08', rest)
  | 'n' :: rest => some ('\n', rest)
  | 'r' :: rest => some ('\r', rest)
  | 'f' :: rest => some ('\x0c', rest)
  | '"' :: rest => some ('"', rest)
  | '\'' :: rest => some ('\'', rest)
  | '\\' :: rest => some ('\\', rest)
  | cs => readCode cs

theorem length_of_readCode {cs rest : List Char} {c : Char} (h : readCode cs = some (c, rest)) :
    rest.length < cs.length := by
  unfold readCode at h
  split at h
  all_goals
    first
    | cases h
    | obtain ⟨_, _, hr⟩ := Option.map_eq_some_iff.1 h
      cases hr
      simp only [List.length_cons]
      omega

theorem length_of_readEscape {cs rest : List Char} {c : Char}
    (h : readEscape cs = some (c, rest)) : rest.length < cs.length := by
  unfold readEscape at h
  split at h
  all_goals
    first
    | exact length_of_readCode h
    | cases h
      exact Nat.lt_succ_self _

/-- Reads an identifier up to its closing angle bracket. -/
def readIri : List Char → Option (List Char × List Char)
  | [] => none
  | '>' :: rest => some ([], rest)
  | '\\' :: rest =>
    match h : readCode rest with
    | some (c, tail) =>
      have := length_of_readCode h
      (readIri tail).map (consRead c)
    | none => none
  | c :: rest => (readIri rest).map (consRead c)
termination_by cs => cs.length

/-- Reads a text up to its closing quote; it has no line breaks but escaped ones. -/
def readQuoted (quote : Char) (cs : List Char) : Option (List Char × List Char) :=
  match cs with
  | [] => none
  | c :: rest =>
    if c = quote then some ([], rest)
    else if c = '\\' then
      match h : readEscape rest with
      | some (c, tail) =>
        have := length_of_readEscape h
        (readQuoted quote tail).map (consRead c)
      | none => none
    else if c = '\n' ∨ c = '\r' then none
    else (readQuoted quote rest).map (consRead c)
termination_by cs.length

/-- Reads a text up to three quotes. -/
def readLongQuoted (quote : Char) (cs : List Char) : Option (List Char × List Char) :=
  match cs with
  | [] => none
  | c :: rest =>
    if c = quote ∧ rest.head? = some quote ∧ rest.tail.head? = some quote then
      some ([], rest.drop 2)
    else if c = '\\' then
      match h : readEscape rest with
      | some (c, tail) =>
        have := length_of_readEscape h
        (readLongQuoted quote tail).map (consRead c)
      | none => none
    else (readLongQuoted quote rest).map (consRead c)
termination_by cs.length

theorem length_of_consRead {c : Char} {r : Option (List Char × List Char)} {s rest : List Char}
    {n : Nat} (h : r.map (consRead c) = some (s, rest))
    (hr : ∀ s, r = some (s, rest) → rest.length < n) : rest.length < n := by
  obtain ⟨⟨s', rest'⟩, hs, he⟩ := Option.map_eq_some_iff.1 h
  cases he
  exact hr s' hs

theorem length_of_readIri {cs s rest : List Char} (h : readIri cs = some (s, rest)) :
    rest.length < cs.length := by
  fun_induction readIri cs generalizing s rest with
  | case1 => simp at h
  | case2 tail => cases h; exact Nat.lt_succ_self _
  | case3 tail c tail' hc hl ih =>
    refine length_of_consRead h fun s hs => ?_
    have := ih hs
    simp only [List.length_cons]
    omega
  | case4 => simp at h
  | case5 c tail _ _ ih =>
    refine length_of_consRead h fun s hs => ?_
    have := ih hs
    simp only [List.length_cons]
    omega

theorem length_of_readQuoted {quote : Char} {cs s rest : List Char}
    (h : readQuoted quote cs = some (s, rest)) : rest.length < cs.length := by
  fun_induction readQuoted quote cs generalizing s rest with
  | case1 => simp at h
  | case2 tail => cases h; exact Nat.lt_succ_self _
  | case3 tail _ c tail' hc hl ih =>
    refine length_of_consRead h fun s hs => ?_
    have := ih hs
    simp only [List.length_cons]
    omega
  | case4 => simp at h
  | case5 => simp at h
  | case6 c tail _ _ _ ih =>
    refine length_of_consRead h fun s hs => ?_
    have := ih hs
    simp only [List.length_cons]
    omega

theorem length_of_readLongQuoted {quote : Char} {cs s rest : List Char}
    (h : readLongQuoted quote cs = some (s, rest)) : rest.length < cs.length := by
  fun_induction readLongQuoted quote cs generalizing s rest with
  | case1 => simp at h
  | case2 c tail =>
    cases h
    simp only [List.length_drop, List.length_cons]
    omega
  | case3 tail _ c tail' hc hl ih =>
    refine length_of_consRead h fun s hs => ?_
    have := ih hs
    simp only [List.length_cons]
    omega
  | case4 => simp at h
  | case5 c tail _ _ ih =>
    refine length_of_consRead h fun s hs => ?_
    have := ih hs
    simp only [List.length_cons]
    omega

/-- What belongs to a label after its first character: a point only before a name character. -/
def readLabelRest : List Char → List Char × List Char
  | [] => ([], [])
  | c :: rest =>
    if isNamePart c || (c == '.' && rest.head?.any isNamePart) then consRead c (readLabelRest rest)
    else ([], c :: rest)

/-- Reads the label of a blank node. -/
def readLabel : List Char → Option (List Char × List Char)
  | c :: rest => if isLabelStart c then some (consRead c (readLabelRest rest)) else none
  | [] => none

theorem length_readLabelRest (cs : List Char) : (readLabelRest cs).2.length ≤ cs.length := by
  fun_induction readLabelRest cs with
  | case1 => simp
  | case2 c rest _ ih => simp only [consRead, List.length_cons]; omega
  | case3 => simp

theorem length_of_readLabel {cs s rest : List Char} (h : readLabel cs = some (s, rest)) :
    rest.length < cs.length := by
  cases cs with
  | nil => simp [readLabel] at h
  | cons c tail =>
    have := length_readLabelRest tail
    simp only [readLabel] at h
    split at h
    · cases h
      simp only [List.length_cons]
      omega
    · simp at h

/-- The characters of a language tag. -/
def isTagChar (c : Char) : Bool :=
  c.isAlphanum || c == '-'

end UsagePolicy.Rdf
