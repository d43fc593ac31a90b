import UsagePolicy.Text.Fold
/-!
# Language tags

Well-formed tags after BCP 47: a registered old tag, private use alone, or a language with its
optional subtags in order. Tags are compared without regard to ASCII case.
-/

namespace UsagePolicy.Rdf.LanguageTag

/-- Tags that were registered before the present grammar and do not follow it in all. -/
def grandfathered : List String :=
  ["art-lojban", "cel-gaulish", "en-gb-oed", "i-ami", "i-bnn", "i-default", "i-enochian", "i-hak",
    "i-klingon", "i-lux", "i-mingo", "i-navajo", "i-pwn", "i-tao", "i-tay", "i-tsu", "no-bok",
    "no-nyn", "sgn-be-fr", "sgn-be-nl", "sgn-ch-de", "zh-guoyu", "zh-hakka", "zh-min",
    "zh-min-nan", "zh-xiang"]

/-- Which subtags may still follow. -/
inductive Position
  | start
  | language (extended : Nat)
  | extended
  | script
  | region
  | extensionStart
  | extensionPart
  | privateStart
  | privatePart
  deriving DecidableEq

namespace Position

/-- Subtags may end here: an extension or private use needs at least one of its own. -/
def isFinal : Position → Bool
  | start | extensionStart | privateStart => false
  | _ => true

/-- At most three extended languages, and only after a language of two or three letters. -/
def takesExtended : Position → Bool
  | language n => decide (n < 3)
  | _ => false

def takesScript : Position → Bool
  | language _ | extended => true
  | _ => false

def takesRegion (p : Position) : Bool :=
  p.takesScript || p == script

def takesVariant (p : Position) : Bool :=
  p.takesRegion || p == region

def afterExtended : Position → Position
  | language n => language (n + 1)
  | p => p

/-- Five characters, or four that begin with a digit. -/
def isVariant (subtag : List Char) : Bool :=
  match subtag with
  | [] => false
  | c :: _ => if c.isDigit then 4 ≤ subtag.length else 5 ≤ subtag.length

/-- Two letters or three digits. -/
def isRegion (subtag : List Char) : Bool :=
  (subtag.length == 2 && subtag.all Char.isAlpha) || (subtag.length == 3 && subtag.all Char.isDigit)

/-- The position behind a subtag. -/
def next (p : Position) (subtag : List Char) : Option Position :=
  if subtag.isEmpty || 8 < subtag.length || !subtag.all Char.isAlphanum then none
  else
    let letters := subtag.all Char.isAlpha
    if p = start then
      if subtag.length < 2 || !letters then none
      else if subtag.length < 4 then some (language 0)
      else some extended
    else if p = privateStart ∨ p = privatePart then some privatePart
    else if subtag.length = 1 then
      if p = extensionStart then none
      else if subtag = ['x'] ∨ subtag = ['X'] then some privateStart
      else some extensionStart
    else if p = extensionStart ∨ p = extensionPart then some extensionPart
    else if p.takesExtended && subtag.length == 3 && letters then some p.afterExtended
    else if p.takesScript && subtag.length == 4 && letters then some script
    else if p.takesRegion && isRegion subtag then some region
    else if p.takesVariant && isVariant subtag then some region
    else none

end Position

/-- Private use alone; its length is not limited. -/
def isPrivateUse (cs : List Char) : Bool :=
  match cs with
  | 'x' :: '-' :: rest | 'X' :: '-' :: rest =>
    !rest.isEmpty && rest.all fun c => c.isAlphanum || c == '-'
  | _ => false

def isWellFormed (text : String) : Bool :=
  grandfathered.contains (Text.fold text) || isPrivateUse text.toList ||
    (((text.toList.splitOn '-').foldlM Position.next Position.start).any Position.isFinal)

/-- The lower-case form of a well-formed tag. -/
def normalize? (text : String) : Option String :=
  if isWellFormed text then some (Text.fold text) else none

example : normalize? "de-Latn-DE-1996" = some "de-latn-de-1996" := by decide +kernel

end UsagePolicy.Rdf.LanguageTag
