import UsagePolicy.Text.Digits
import UsagePolicy.Text.Lines
/-!
# Internationalised resource identifiers

References are taken apart into scheme, authority, path, query and fragment, checked part by part
against RFC 3987, and resolved against a base after RFC 3986.
-/

namespace UsagePolicy.Rdf

/-- What stands before and after the first occurrence of a character. -/
def cutAt (c : Char) (cs : List Char) : List Char × Option (List Char) :=
  (cs.takeWhile (· != c), (cs.dropWhile (· != c)).tail?)

/-- A character of the standard's class `ucschar`. -/
def isUniversal (c : Char) : Bool :=
  let n := c.toNat
  (0xA0 ≤ n && n ≤ 0xD7FF) || (0xF900 ≤ n && n ≤ 0xFDCF) || (0xFDF0 ≤ n && n ≤ 0xFFEF) ||
    (0x10000 ≤ n && n ≤ 0xDFFFD && n % 0x10000 ≤ 0xFFFD) || (0xE1000 ≤ n && n ≤ 0xEFFFD)

/-- A character of the standard's class `iprivate`. -/
def isPrivate (c : Char) : Bool :=
  let n := c.toNat
  (0xE000 ≤ n && n ≤ 0xF8FF) || (0xF0000 ≤ n && n ≤ 0x10FFFD && n % 0x10000 ≤ 0xFFFD)

def isSubDelimiter (c : Char) : Bool :=
  "!$&'()*+,;=".toList.contains c

/-- A character that stands for itself in every part. -/
def isUnreserved (c : Char) : Bool :=
  c.isAlphanum || "-._~".toList.contains c || isUniversal c

def isNameChar (c : Char) : Bool :=
  isUnreserved c || isSubDelimiter c

def isPathChar (c : Char) : Bool :=
  isNameChar c || c == ':' || c == '@' || c == '/'

def isQueryChar (c : Char) : Bool :=
  isPathChar c || c == '?' || isPrivate c

def isFragmentChar (c : Char) : Bool :=
  isPathChar c || c == '?'

/-- Allowed characters, and percent signs that two hexadecimal digits follow. -/
def isEncoded (allowed : Char → Bool) : List Char → Bool
  | [] => true
  | '%' :: a :: b :: rest => (Text.hexNumber? [a, b]).isSome && isEncoded allowed rest
  | c :: rest => allowed c && isEncoded allowed rest

/-- A decimal number up to 255 without leading zeros. -/
def isOctet (cs : List Char) : Bool :=
  cs.length ≤ 3 && cs.all Char.isDigit &&
    match cs with
    | [] => false
    | ['0'] => true
    | '0' :: _ => false
    | _ => decide (Text.decimalNumber cs ≤ 255)

def isIpv4 (cs : List Char) : Bool :=
  let octets := cs.splitOn '.'
  octets.length == 4 && octets.all isOctet

/-- The number of 16-bit groups that colons separate; the last two may be written as an address of
four octets. -/
def countGroups? (octetsAllowed : Bool) : List (List Char) → Option Nat
  | [] => some 0
  | group :: groups =>
    if 1 ≤ group.length && group.length ≤ 4 && (Text.hexNumber? group).isSome then
      (countGroups? octetsAllowed groups).map (1 + ·)
    else if octetsAllowed && groups.isEmpty && isIpv4 group then some 2
    else none

/-- The number of groups of a part of an address, which may be empty beside two colons. -/
def countPart? (octetsAllowed : Bool) (cs : List Char) : Option Nat :=
  if cs.isEmpty then some 0 else countGroups? octetsAllowed (cs.splitOn ':')

/-- Eight groups, or fewer with two colons in place of at least one. -/
def isIpv6 (cs : List Char) : Bool :=
  match Text.splitOnce? [':', ':'] cs with
  | none => countGroups? true (cs.splitOn ':') == some 8
  | some (before, after) =>
    match countPart? false before, countPart? true after with
    | some m, some n => decide (m + n ≤ 7)
    | _, _ => false

/-- An address of a later version: `v`, hexadecimal digits, a point and what the version defines. -/
def isFutureAddress : List Char → Bool
  | c :: rest =>
    let (version, address) := cutAt '.' rest
    (c == 'v' || c == 'V') && !version.isEmpty && (Text.hexNumber? version).isSome &&
      address.any fun a =>
        !a.isEmpty && a.all fun c => (isNameChar c && !isUniversal c) || c == ':'
  | [] => false

def isPort (cs : List Char) : Bool :=
  cs.all Char.isDigit

/-- A name or an address in brackets, and a port after a colon. -/
def isHost : List Char → Bool
  | '[' :: rest =>
    let (address, after) := cutAt ']' rest
    (isIpv6 address || isFutureAddress address) &&
      match after with
      | some [] => true
      | some (':' :: port) => isPort port
      | _ => false
  | cs =>
    let (name, port) := cutAt ':' cs
    isEncoded isNameChar name && port.all isPort

/-- A host, before which a user and an at sign may stand. -/
def isAuthority (cs : List Char) : Bool :=
  match cutAt '@' cs with
  | (user, some host) => isEncoded (fun c => isNameChar c || c == ':') user && isHost host
  | (host, none) => isHost host

def isScheme : List Char → Bool
  | [] => false
  | c :: rest => c.isAlpha && rest.all fun c => c.isAlphanum || "+-.".toList.contains c

/-- A reference by its parts; the marks between them are not part of them. -/
structure Reference where
  scheme : Option (List Char)
  authority : Option (List Char)
  path : List Char
  query : Option (List Char)
  fragment : Option (List Char)
  deriving DecidableEq

namespace Reference

/-- Splits an authority from the path after it. -/
def cutAuthority : List Char → Option (List Char) × List Char
  | '/' :: '/' :: rest => (some (rest.takeWhile (· != '/')), rest.dropWhile (· != '/'))
  | cs => (none, cs)

/-- Splits a scheme from what comes after its colon. -/
def cutScheme (cs : List Char) : Option (List Char) × List Char :=
  match cutAt ':' cs with
  | (scheme, some rest) => if isScheme scheme then (some scheme, rest) else (none, cs)
  | (_, none) => (none, cs)

def ofChars (cs : List Char) : Reference :=
  let (beforeFragment, fragment) := cutAt '#' cs
  let (beforeQuery, query) := cutAt '?' beforeFragment
  let (scheme, hierarchy) := cutScheme beforeQuery
  let (authority, path) := cutAuthority hierarchy
  ⟨scheme, authority, path, query, fragment⟩

def toChars (r : Reference) : List Char :=
  r.scheme.elim [] (· ++ [':']) ++ r.authority.elim [] ('/' :: '/' :: ·) ++ r.path ++
    r.query.elim [] ('?' :: ·) ++ r.fragment.elim [] ('#' :: ·)

/-- Every part is well-formed, and a path that begins with a colon has a scheme before it. -/
def isValid (r : Reference) : Bool :=
  r.authority.all isAuthority && isEncoded isPathChar r.path &&
    r.query.all (isEncoded isQueryChar) && r.fragment.all (isEncoded isFragmentChar) &&
    (r.scheme.isSome || r.path.head? != some ':')

/-- The segments of a path, each with the slash before it. -/
def segments (cs : List Char) : List (List Char) :=
  match cs.splitOn '/' with
  | [] => []
  | first :: rest => (if first.isEmpty then [] else [first]) ++ rest.map ('/' :: ·)

/-- The segments without `.` segments and without `..` segments and what they take back. -/
def resolveSegments (done : List (List Char)) : List (List Char) → List (List Char)
  | [] => done.reverse
  | [['/', '.']] => (['/'] :: done).reverse
  | [['/', '.', '.']] => (['/'] :: done.tail).reverse
  | ['/', '.'] :: rest => resolveSegments done rest
  | ['/', '.', '.'] :: rest => resolveSegments done.tail rest
  | segment :: rest => resolveSegments (segment :: done) rest

/-- A path without its dot segments; those at the start of a path without a slash go first. -/
def removeDotSegments : List Char → List Char
  | '.' :: '/' :: rest | '.' :: '.' :: '/' :: rest => removeDotSegments rest
  | ['.'] | ['.', '.'] => []
  | cs => (resolveSegments [] (segments cs)).flatten

/-- A relative path in place of what comes after the last slash of the base's path. -/
def mergePath (base : Reference) (path : List Char) : List Char :=
  if base.authority.isSome && base.path.isEmpty then '/' :: path
  else (base.path.reverse.dropWhile (· != '/')).reverse ++ path

/-- What a reference stands for under a base. A reference with a scheme stands for itself. -/
def resolve (base r : Reference) : Reference :=
  if r.scheme.isSome then r
  else if r.authority.isSome then
    { r with scheme := base.scheme, path := removeDotSegments r.path }
  else if r.path.isEmpty then
    { base with query := r.query <|> base.query, fragment := r.fragment }
  else
    let path := if r.path.head? = some '/' then r.path else mergePath base r.path
    ⟨base.scheme, base.authority, removeDotSegments path, r.query, r.fragment⟩

end Reference

/-- A valid identifier with a scheme. -/
def isIri (text : String) : Bool :=
  let r := Reference.ofChars text.toList
  r.scheme.isSome && r.isValid

/-- What a text stands for, under a base if there is one: itself or a valid identifier. -/
def resolveIri? (base : Option String) (text : String) : Option String :=
  match base with
  | none => if isIri text then some text else none
  | some base =>
    let r := Reference.ofChars text.toList
    let resolved := String.ofList ((Reference.ofChars base.toList).resolve r).toChars
    if r.isValid && isIri resolved then some resolved else none

theorem takeWhile_append_cutAt (c : Char) (cs : List Char) :
    (cutAt c cs).1 ++ (cutAt c cs).2.elim [] (c :: ·) = cs := by
  induction cs with
  | nil => rfl
  | cons d ds ih =>
    by_cases h : d = c
    · subst h
      simp [cutAt]
    · simp only [cutAt] at ih
      simpa [cutAt, List.takeWhile_cons, List.dropWhile_cons, h] using ih

namespace Reference

theorem toChars_cutAuthority (cs : List Char) :
    (cutAuthority cs).1.elim [] ('/' :: '/' :: ·) ++ (cutAuthority cs).2 = cs := by
  unfold cutAuthority
  split
  · simp
  · rfl

theorem toChars_cutScheme (cs : List Char) :
    (cutScheme cs).1.elim [] (· ++ [':']) ++ (cutScheme cs).2 = cs := by
  have h := takeWhile_append_cutAt ':' cs
  unfold cutScheme
  split
  · next scheme rest heq =>
    rw [heq] at h
    split
    · simpa using h
    · rfl
  · rfl

/-- Nothing is lost when a reference is taken apart. -/
theorem toChars_ofChars (cs : List Char) : (ofChars cs).toChars = cs := by
  simp only [ofChars, toChars]
  rw [List.append_assoc (Option.elim _ _ _), List.append_assoc, List.append_assoc,
    List.append_assoc]
  rw [← List.append_assoc _ (cutAuthority _).2, toChars_cutAuthority, ← List.append_assoc,
    toChars_cutScheme, ← List.append_assoc, takeWhile_append_cutAt, takeWhile_append_cutAt]

end Reference

example : resolveIri? (some "http://a/b/c/d;p?q") "../g?x" = some "http://a/b/g?x" := by
  decide +kernel

example : resolveIri? (some "urn:x/y/z") "../../g" = some "urn:/g" := by
  decide +kernel

end UsagePolicy.Rdf
