import UsagePolicy.Rdf.Iri
import UsagePolicy.Rdf.LanguageTag
import UsagePolicy.Rdf.Lexical
import UsagePolicy.Rdf.Term
/-!
# Line formats

N-Triples and N-Quads have one statement on a line, or none; comments and white space may stand
around it. N-Quads may name a graph behind the object, which is read and not kept.
-/

namespace UsagePolicy.Rdf.LineFormat

def isBreak (c : Char) : Bool :=
  c == '\n' || c == '\r'

def skipSpaces (cs : List Char) : List Char :=
  cs.dropWhile fun c => c == ' ' || c == '\t'

/-- The rest of a line may hold a comment and nothing else. -/
def isSilent (cs : List Char) : Bool :=
  match skipSpaces cs with
  | [] => true
  | c :: _ => c == '#'

/-- Reads an identifier with its brackets. -/
def readIdentifier : List Char → Option (String × List Char)
  | '<' :: rest => do
    let (text, rest) ← readIri rest
    let iri ← resolveIri? none (String.ofList text)
    return (iri, rest)
  | _ => none

/-- Reads an identifier or a blank node. -/
def readResource : List Char → Option (Resource × List Char)
  | '_' :: ':' :: rest =>
    (readLabel rest).map fun r => (.blank (.labelled (String.ofList r.1)), r.2)
  | cs => (readIdentifier cs).map fun r => (.iri r.1, r.2)

/-- Reads what follows the closing quote of a literal: its language, its datatype, or nothing. -/
def readQualifier (text : String) (cs : List Char) : Option (Literal × List Char) :=
  match skipSpaces cs with
  | '@' :: rest => do
    let tag ← LanguageTag.normalize? (String.ofList (rest.takeWhile isTagChar))
    return (⟨text, .language tag⟩, rest.dropWhile isTagChar)
  | '^' :: '^' :: rest => do
    let (datatype, rest) ← readIdentifier (skipSpaces rest)
    return (← Literal.typed? text datatype, rest)
  | _ => some (.plain text, cs)

def readTerm : List Char → Option (Term × List Char)
  | '"' :: rest => do
    let (text, rest) ← readQuoted '"' rest
    let (literal, rest) ← readQualifier (String.ofList text) rest
    return (.literal literal, rest)
  | cs => (readResource cs).map fun r => (.resource r.1, r.2)

/-- Drops the name of a graph if there is one. -/
def skipGraphName (cs : List Char) : Option (List Char) :=
  match skipSpaces cs with
  | '<' :: _ | '_' :: _ => (readResource (skipSpaces cs)).map (·.2)
  | _ => some cs

def readPoint (cs : List Char) : Option (List Char) :=
  match skipSpaces cs with
  | '.' :: rest => some rest
  | _ => none

/-- Reads a statement; `named` tells whether it may name a graph. -/
def readStatement (named : Bool) (cs : List Char) : Option (Statement × List Char) := do
  let (subject, cs) ← readResource (skipSpaces cs)
  let (predicate, cs) ← readIdentifier (skipSpaces cs)
  let (object, cs) ← readTerm (skipSpaces cs)
  let cs ← if named then skipGraphName cs else some cs
  let cs ← readPoint cs
  return (⟨subject, predicate, object⟩, cs)

/-- The statements of a line: one or none. -/
def parseLine? (named : Bool) (line : List Char) : Option (List Statement) :=
  if isSilent line then some []
  else
    match readStatement named line with
    | some (s, rest) => if isSilent rest then some [s] else none
    | none => none

/-- The statements of a text, in order. -/
def parse? (named : Bool) (text : String) : Option (List Statement) :=
  ((text.toList.splitOnP isBreak).mapM (parseLine? named)).map List.flatten

end UsagePolicy.Rdf.LineFormat
