import UsagePolicy.Graph
import UsagePolicy.Text.Digits
/-!
# Terms and statements

What the statements of a policy document are made of, and the texts by which a graph knows them.
-/

namespace UsagePolicy.Rdf

/-- A node without an identifier, with the label a document gives it or with a number. -/
inductive Blank
  | labelled (label : String)
  | anonymous (number : Nat)
  deriving DecidableEq

inductive Resource
  | iri (text : String)
  | blank (node : Blank)
  deriving DecidableEq

inductive Qualifier
  | none
  | language (tag : String)
  | datatype (iri : String)
  deriving DecidableEq

structure Literal where
  text : String
  qualifier : Qualifier
  deriving DecidableEq

inductive Term
  | resource (resource : Resource)
  | literal (literal : Literal)
  deriving DecidableEq

structure Statement where
  subject : Resource
  predicate : String
  object : Term
  deriving DecidableEq

namespace Datatype

def langString : String := "http://www.w3.org/1999/02/22-rdf-syntax-ns#langString"
def string : String := "http://www.w3.org/2001/XMLSchema#string"
def boolean : String := "http://www.w3.org/2001/XMLSchema#boolean"
def integer : String := "http://www.w3.org/2001/XMLSchema#integer"
def decimal : String := "http://www.w3.org/2001/XMLSchema#decimal"
def double : String := "http://www.w3.org/2001/XMLSchema#double"

end Datatype

namespace Literal

def plain (text : String) : Literal := ⟨text, .none⟩

/-- A literal of a datatype, which is not written out for plain texts. -/
def typed (text datatype : String) : Literal :=
  if datatype = Datatype.string then plain text else ⟨text, .datatype datatype⟩

/-- A literal whose datatype a document writes out. Texts in a language have a tag instead. -/
def typed? (text datatype : String) : Option Literal :=
  if datatype = Datatype.langString then none else some (typed text datatype)

/-- How a character is written between quotes. -/
def escape (c : Char) : List Char :=
  match c with
  | '\t' => ['\\', 't']
  | '\x08' => ['\\', 'b']
  | '\n' => ['\\', 'n']
  | '\r' => ['\\', 'r']
  | '\x0c' => ['\\', 'f']
  | '"' => ['\\', '"']
  | '\\' => ['\\', '\\']
  | c =>
    if c.toNat < 0x20 ∨ c.toNat = 0x7F then
      ['\\', 'u', '0', '0', Text.upperHexDigit (c.toNat / 16), Text.upperHexDigit (c.toNat % 16)]
    else [c]

def quote (text : String) : String :=
  String.ofList ('"' :: text.toList.flatMap escape ++ ['"'])

/-- The text by which a graph knows a literal. -/
def nodeText (l : Literal) : String :=
  match l.qualifier with
  | .none => quote l.text
  | .language tag => s!"{quote l.text}@{tag}"
  | .datatype iri => s!"{quote l.text}^^<{iri}>"

end Literal

namespace Resource

def nodeText (name : Blank → String) : Resource → String
  | iri text => text
  | blank node => name node

/-- The blank nodes in a resource. -/
def blanks : Resource → List Blank
  | iri _ => []
  | blank node => [node]

end Resource

namespace Term

def iri (text : String) : Term := resource (.iri text)

def blank (node : Blank) : Term := resource (.blank node)

def nodeText (name : Blank → String) : Term → String
  | resource r => r.nodeText name
  | literal l => l.nodeText

def blanks : Term → List Blank
  | resource r => r.blanks
  | literal _ => []

end Term

namespace Statement

def toTriple (name : Blank → String) (s : Statement) : Triple :=
  ⟨s.subject.nodeText name, s.predicate, s.object.nodeText name⟩

/-- The blank nodes of a statement in the order in which they appear. -/
def blanks (s : Statement) : List Blank :=
  s.subject.blanks ++ s.object.blanks

end Statement

/-- Blank nodes under the labels of their document. -/
def Blank.ownName : Blank → String
  | labelled label => s!"_:{label}"
  | anonymous number => s!"_:{number}"

/-- Blank nodes numbered in the order in which they appear. -/
def Blank.numbered (appeared : List Blank) (node : Blank) : String :=
  s!"_:b{appeared.idxOf node}"

/-- The graph of statements, with blank nodes under their own labels. -/
def labelledGraph (statements : List Statement) : Graph :=
  Graph.ofList (statements.map (Statement.toTriple Blank.ownName))

/-- The graph of statements, with blank nodes numbered in the order in which they appear. -/
def numberedGraph (statements : List Statement) : Graph :=
  let appeared := (statements.flatMap Statement.blanks).eraseDups
  Graph.ofList (statements.map (Statement.toTriple (Blank.numbered appeared)))

end UsagePolicy.Rdf
