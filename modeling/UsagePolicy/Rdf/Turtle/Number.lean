import UsagePolicy.Rdf.Term
import UsagePolicy.Rdf.Turtle.Name
/-!
# Numbers in Turtle

The spelling of a number tells its datatype, and is kept.
-/

namespace UsagePolicy.Rdf.Turtle

/-- Splits digits from what follows them. -/
def cutDigits (cs : List Char) : List Char × List Char :=
  (cs.takeWhile Char.isDigit, cs.dropWhile Char.isDigit)

/-- Splits a sign from what it stands before. -/
def cutSign : List Char → List Char × List Char
  | '+' :: rest => (['+'], rest)
  | '-' :: rest => (['-'], rest)
  | cs => ([], cs)

/-- Splits a point and the digits behind it from the rest. -/
def cutFraction : List Char → List Char × List Char
  | '.' :: rest => ('.' :: (cutDigits rest).1, (cutDigits rest).2)
  | cs => ([], cs)

/-- Splits an exponent from the rest, if there is its mark; it has to have digits. -/
def cutExponent : List Char → Option (List Char × List Char)
  | c :: rest =>
    if c == 'e' || c == 'E' then
      let (sign, digits) := cutSign rest
      if (cutDigits digits).1.isEmpty then none
      else some (c :: sign ++ (cutDigits digits).1, (cutDigits digits).2)
    else some ([], c :: rest)
  | [] => some ([], [])

/-- Reads a number and its datatype. A point without digits behind it belongs to the number only
before an exponent. -/
def readNumber (cs : List Char) : Option ((String × String) × List Char) :=
  let sign := cutSign cs
  let whole := cutDigits sign.2
  let fraction := cutFraction whole.2
  match cutExponent fraction.2 with
  | none => none
  | some (exponent, behind) =>
    if whole.1.isEmpty && fraction.1.length ≤ 1 then none
    else if !exponent.isEmpty then
      some ((String.ofList (sign.1 ++ whole.1 ++ fraction.1 ++ exponent), Datatype.double), behind)
    else if 2 ≤ fraction.1.length then
      some ((String.ofList (sign.1 ++ whole.1 ++ fraction.1), Datatype.decimal), behind)
    else some ((String.ofList (sign.1 ++ whole.1), Datatype.integer), whole.2)

theorem length_cutDigits (cs : List Char) :
    (cutDigits cs).1.length + (cutDigits cs).2.length = cs.length :=
  length_takeWhile_add _ cs

theorem length_cutSign (cs : List Char) :
    (cutSign cs).1.length + (cutSign cs).2.length = cs.length := by
  unfold cutSign
  split <;> simp [Nat.add_comm]

theorem length_cutFraction (cs : List Char) :
    (cutFraction cs).1.length + (cutFraction cs).2.length = cs.length := by
  unfold cutFraction
  split
  · next rest =>
    have := length_cutDigits rest
    simp only [List.length_cons]
    omega
  · simp

theorem length_of_cutExponent {cs s rest : List Char} (h : cutExponent cs = some (s, rest)) :
    rest.length ≤ cs.length := by
  unfold cutExponent at h
  split at h
  · next c tail =>
    have hs := length_cutSign tail
    have hd := length_cutDigits (cutSign tail).2
    split at h
    · simp only at h
      split at h
      · simp at h
      · cases h
        simp only [List.length_cons]
        omega
    · cases h; exact Nat.le_refl _
  · cases h; exact Nat.le_refl _

theorem length_of_readNumber {cs rest : List Char} {n : String × String}
    (h : readNumber cs = some (n, rest)) : rest.length < cs.length := by
  have hs := length_cutSign cs
  have hd := length_cutDigits (cutSign cs).2
  have hf := length_cutFraction (cutDigits (cutSign cs).2).2
  simp only [readNumber] at h
  split at h
  · simp at h
  · next exponent behind he =>
    have hb := length_of_cutExponent he
    split at h
    · simp at h
    · next hw =>
      rw [Bool.and_eq_true, decide_eq_true_eq, List.isEmpty_iff_length_eq_zero] at hw
      split at h
      · cases h; omega
      · split at h
        · cases h; omega
        · cases h; omega

end UsagePolicy.Rdf.Turtle
