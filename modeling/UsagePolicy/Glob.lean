/-!
# Globs

Patterns for whole names, matched on the bytes of their UTF-8 form. A slash is a byte like any
other, except for the two stars that stand between slashes.
-/

namespace UsagePolicy

/-- A part of a glob. -/
inductive Glob.Piece
  | literal (c : Char)
  | any
  | star
  | leading
  | trailing
  | between
  | set (negated : Bool) (ranges : List (UInt8 × UInt8))
  | alternatives (branches : List (List Glob.Piece))

/-- A pattern that was read. -/
structure Glob where
  pieces : List Glob.Piece

namespace Glob

/-- A character of a pattern, plain or after a backslash, or a whole set in brackets. -/
inductive Sign
  | plain (c : Char)
  | escaped (c : Char)
  | set (negated : Bool) (ranges : List (Char × Char))

/-- The character with which a sign begins. -/
def Sign.lead : Sign → Char
  | plain c => c
  | escaped _ => '\\'
  | set _ _ => '['

/-- Reads the rest of a set: its ranges, latest first, and whether a range waits for its end. -/
def readSet (ranges : List (Char × Char)) (inRange : Bool) :
    List Char → Option (List (Char × Char) × List Char)
  | [] => none
  | c :: rest =>
    match ranges with
    | [] => readSet [(c, c)] false rest
    | (low, high) :: done =>
      if c = ']' then
        some (if inRange then ('-', '-') :: (low, high) :: done else (low, high) :: done, rest)
      else if inRange then
        if c < low then none else readSet ((low, c) :: done) false rest
      else if c = '-' then readSet ((low, high) :: done) true rest
      else readSet ((c, c) :: (low, high) :: done) false rest

theorem length_of_readSet {ranges out : List (Char × Char)} {inRange : Bool} {cs rest : List Char}
    (h : readSet ranges inRange cs = some (out, rest)) : rest.length < cs.length := by
  induction cs generalizing ranges inRange with
  | nil => simp [readSet] at h
  | cons c cs ih =>
    unfold readSet at h
    split at h
    · exact Nat.lt_succ_of_lt (ih h)
    · split at h
      · simp_all
      · split at h
        · split at h
          · simp at h
          · exact Nat.lt_succ_of_lt (ih h)
        · split at h
          · exact Nat.lt_succ_of_lt (ih h)
          · exact Nat.lt_succ_of_lt (ih h)

/-- The signs of a pattern. A set has to be closed, and a backslash cannot be the last character. -/
def signs? (cs : List Char) : Option (List Sign) :=
  match cs with
  | [] => some []
  | '\\' :: c :: rest => (signs? rest).map (.escaped c :: ·)
  | ['\\'] => none
  | '[' :: rest =>
    let negated := rest.head? == some '!' || rest.head? == some '^'
    match h : readSet [] false (if negated then rest.tail else rest) with
    | some (ranges, tail) =>
      have hl := length_of_readSet h
      have : tail.length < rest.length + 1 := by
        split at hl
        · rw [List.length_tail] at hl; omega
        · omega
      (signs? tail).map (.set negated ranges.reverse :: ·)
    | none => none
  | c :: rest => (signs? rest).map (.plain c :: ·)
termination_by cs.length

def utf8 (c : Char) : List UInt8 :=
  (String.singleton c).toUTF8.toList

/-- The bytes between two characters: those of the first, the range from its last byte to the
first byte of the second, and the other bytes of the second. -/
def byteRanges (range : Char × Char) : List (UInt8 × UInt8) :=
  let low := utf8 range.1
  let high := utf8 range.2
  if range.1 = range.2 then low.map fun b => (b, b)
  else
    (low.dropLast.map fun b => (b, b)) ++ [(low.getLastD 0, high.headD 0)] ++
      high.tail.map fun b => (b, b)

/-- The branch that is being read, latest piece first, and the groups around it: their finished
branches, and what came before them. -/
structure Draft where
  branch : List Piece
  groups : List (List (List Piece) × List Piece)

namespace Draft

def push (d : Draft) (p : Piece) : Draft :=
  { d with branch := p :: d.branch }

/-- Puts a piece in place of the slash before it, unless stars stand there already. -/
def replaceSlash (d : Draft) (p : Piece) : Draft :=
  match d.branch with
  | .leading :: _ | .trailing :: _ => d
  | _ :: before => { d with branch := p :: before }
  | [] => d.push p

/-- Adds two stars after one character and before another, and tells whether the slash after them
belongs to them. -/
def pushStars (d : Draft) (previous next : Option Char) : Draft × Bool :=
  let plain := (d.push .star).push .star
  if d.branch.isEmpty then
    if next.all (· == '/') then (d.push .leading, true) else (plain, false)
  else if previous ≠ some '/' ∧
      (d.groups.isEmpty ∨ (previous ≠ some ',' ∧ previous ≠ some '{')) then (plain, false)
  else if next.isNone ∨ (!d.groups.isEmpty ∧ (next = some ',' ∨ next = some '}')) then
    (d.replaceSlash .trailing, false)
  else if next = some '/' then (d.replaceSlash .between, true)
  else (plain, false)

/-- Reads signs after a character; `none` if a brace closes nothing. -/
def read? (d : Draft) (previous : Option Char) : List Sign → Option Draft
  | [] => some d
  | .set negated ranges :: rest =>
    read? (d.push (.set negated (ranges.flatMap byteRanges))) (some ']') rest
  | .escaped c :: rest => read? (d.push (.literal c)) (some c) rest
  | .plain '?' :: rest => read? (d.push .any) (some '?') rest
  | .plain '*' :: .plain '*' :: rest =>
    let (d', takesSlash) := d.pushStars previous (rest.head?.map Sign.lead)
    match takesSlash, rest with
    | true, _ :: rest => read? d' (some '/') rest
    | _, rest => read? d' (some '*') rest
  | .plain '*' :: rest => read? (d.push .star) (some '*') rest
  | .plain '{' :: rest => read? ⟨[], ([], d.branch) :: d.groups⟩ (some '{') rest
  | .plain ',' :: rest =>
    match d.groups with
    | [] => read? (d.push (.literal ',')) (some ',') rest
    | (done, before) :: groups =>
      read? ⟨[], (d.branch.reverse :: done, before) :: groups⟩ (some ',') rest
  | .plain '}' :: rest =>
    match d.groups with
    | [] => none
    | (done, before) :: groups =>
      let group := Piece.alternatives (d.branch.reverse :: done).reverse
      read? ⟨group :: before, groups⟩ (some '}') rest
  | .plain c :: rest => read? (d.push (.literal c)) (some c) rest
termination_by ss => ss.length

end Draft

/-- Reads a pattern; `none` if a bracket or brace is not closed or opened, or a range runs
backwards. -/
def parse? (pattern : String) : Option Glob :=
  match (signs? pattern.toList).bind (Draft.read? ⟨[], []⟩ none) with
  | some ⟨branch, []⟩ => some ⟨branch.reverse⟩
  | _ => none

/-- A list and all that is left of it after some of its first elements. -/
def suffixes : List UInt8 → List (List UInt8)
  | [] => [[]]
  | b :: bs => (b :: bs) :: suffixes bs

/-- What can be left after a slash. -/
def afterSlashes : List UInt8 → List (List UInt8)
  | [] => []
  | b :: bs => if b = '/'.toNat.toUInt8 then bs :: afterSlashes bs else afterSlashes bs

/-- What is left after bytes that were expected. -/
def afterBytes? : List UInt8 → List UInt8 → Option (List UInt8)
  | [], bs => some bs
  | e :: es, b :: bs => if e = b then afterBytes? es bs else none
  | _ :: _, [] => none

mutual

/-- Nothing but groups of nothing. -/
def isVoid : List Piece → Bool
  | [] => true
  | .alternatives branches :: rest => areVoid branches && isVoid rest
  | _ :: _ => false

def areVoid : List (List Piece) → Bool
  | [] => true
  | b :: bs => isVoid b && areVoid bs

end

mutual

/-- What can be left of a text after a piece. Of several branches, void ones do not count. -/
def Piece.rests (bs : List UInt8) : Piece → List (List UInt8)
  | .literal c => (afterBytes? (utf8 c) bs).toList
  | .any => if bs.isEmpty then [] else [bs.tail]
  | .star => suffixes bs
  | .leading => bs :: afterSlashes bs
  | .trailing =>
    if bs.head? = some '/'.toNat.toUInt8 then suffixes bs.tail else []
  | .between =>
    if bs.head? = some '/'.toNat.toUInt8 then bs.tail :: afterSlashes bs.tail else []
  | .set negated ranges =>
    match bs with
    | [] => []
    | b :: bs => if ranges.any (fun r => r.1 ≤ b && b ≤ r.2) != negated then [bs] else []
  | .alternatives branches => if areVoid branches then [bs] else branchRests bs branches

/-- What can be left of a text after pieces in a row. -/
def rests (bs : List UInt8) : List Piece → List (List UInt8)
  | [] => [bs]
  | p :: ps => ((p.rests bs).flatMap fun bs' => rests bs' ps).eraseDups

def branchRests (bs : List UInt8) : List (List Piece) → List (List UInt8)
  | [] => []
  | b :: rest => (if isVoid b then [] else rests bs b) ++ branchRests bs rest

end

/-- Whether the whole name matches. Two stars alone match every name. -/
def matchesName (g : Glob) (name : String) : Bool :=
  match g.pieces with
  | [.leading] => true
  | pieces => (rests name.toUTF8.toList pieces).contains []

end Glob

end UsagePolicy
