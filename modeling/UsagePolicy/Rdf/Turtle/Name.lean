import UsagePolicy.Rdf.Lexical
/-!
# Names in Turtle

A name has a colon between the name of its space and its local part, and ends before the points
that close it. A word is a name without a colon.
-/

namespace UsagePolicy.Rdf.Turtle

/-- A character that a backslash makes part of a local name. -/
def isEscapable (c : Char) : Bool :=
  "_~.-!$&'()*+,;=/?#@%".toList.contains c

/-- Reads what belongs to a local name; points only before something else that does. -/
def readLocalRest : List Char → Option (List Char × List Char)
  | [] => some ([], [])
  | '.' :: rest =>
    match readLocalRest rest with
    | none => none
    | some ([], _) => some ([], '.' :: rest)
    | some (c :: part, tail) => some ('.' :: c :: part, tail)
  | '%' :: a :: b :: rest =>
    if (Text.hexNumber? [a, b]).isSome then
      (readLocalRest rest).map fun r => consRead '%' (consRead a (consRead b r))
    else none
  | '\\' :: c :: rest =>
    if isEscapable c then (readLocalRest rest).map (consRead c) else none
  | c :: rest =>
    if isNamePart c || c == ':' then (readLocalRest rest).map (consRead c)
    else if c == '%' || c == '\\' then none
    else some ([], c :: rest)

/-- Reads a local name, which may be empty. -/
def readLocal : List Char → Option (List Char × List Char)
  | [] => some ([], [])
  | c :: rest =>
    if isLabelStart c || c == ':' || c == '%' || c == '\\' then readLocalRest (c :: rest)
    else some ([], c :: rest)

/-- Splits what looks like a word, with the points in it and behind it, from the rest. -/
def cutWord (cs : List Char) : List Char × List Char :=
  (cs.takeWhile fun c => isNamePart c || c == '.', cs.dropWhile fun c => isNamePart c || c == '.')

/-- Takes the points at the end of a word back to the rest. -/
def givePointsBack (cut : List Char × List Char) : List Char × List Char :=
  ((cut.1.reverse.dropWhile (· == '.')).reverse, cut.1.reverse.takeWhile (· == '.') ++ cut.2)

theorem length_takeWhile_add (p : Char → Bool) (cs : List Char) :
    (cs.takeWhile p).length + (cs.dropWhile p).length = cs.length := by
  rw [← List.length_append, List.takeWhile_append_dropWhile]

theorem length_cutWord (cs : List Char) :
    (cutWord cs).1.length + (cutWord cs).2.length = cs.length :=
  length_takeWhile_add _ cs

theorem length_givePointsBack (cut : List Char × List Char) :
    (givePointsBack cut).1.length + (givePointsBack cut).2.length =
      cut.1.length + cut.2.length := by
  have := length_takeWhile_add (· == '.') cut.1.reverse
  simp only [givePointsBack, List.length_reverse, List.length_append] at this ⊢
  omega

theorem length_of_readLocalRest {cs s rest : List Char} (h : readLocalRest cs = some (s, rest)) :
    rest.length ≤ cs.length := by
  fun_induction readLocalRest cs generalizing s rest with
  | case1 => cases h; exact Nat.le_refl _
  | case2 => simp at h
  | case3 => cases h; exact Nat.le_refl _
  | case4 tail c part tail' hr ih =>
    cases h
    exact Nat.le_succ_of_le (ih hr)
  | case5 a b tail _ ih =>
    obtain ⟨⟨s', rest'⟩, hs, he⟩ := Option.map_eq_some_iff.1 h
    cases he
    have := ih hs
    simp only [consRead, List.length_cons]
    omega
  | case6 => simp at h
  | case7 c tail _ ih =>
    obtain ⟨⟨s', rest'⟩, hs, he⟩ := Option.map_eq_some_iff.1 h
    cases he
    have := ih hs
    simp only [List.length_cons]
    omega
  | case8 => simp at h
  | case9 c tail _ _ _ _ ih =>
    obtain ⟨⟨s', rest'⟩, hs, he⟩ := Option.map_eq_some_iff.1 h
    cases he
    exact Nat.le_succ_of_le (ih hs)
  | case10 => simp at h
  | case11 => cases h; exact Nat.le_refl _

theorem length_of_readLocal {cs s rest : List Char} (h : readLocal cs = some (s, rest)) :
    rest.length ≤ cs.length := by
  unfold readLocal at h
  split at h
  · cases h; exact Nat.le_refl _
  · split at h
    · exact length_of_readLocalRest h
    · cases h; exact Nat.le_refl _

end UsagePolicy.Rdf.Turtle
