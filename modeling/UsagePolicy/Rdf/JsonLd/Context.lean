import Std.Data.TreeMap
import UsagePolicy.Json.Value
import UsagePolicy.Rdf.Iri
import UsagePolicy.Text.Fold
/-!
# Contexts

What the keys and identifiers of a document stand for: terms with their definitions, a base for
relative references, a vocabulary for other names, and the language of plain texts.
-/

namespace UsagePolicy.Rdf.JsonLd

/-- The names that a document cannot define. -/
def keywords : List String :=
  ["@base", "@container", "@context", "@direction", "@graph", "@id", "@import", "@included",
    "@index", "@json", "@language", "@list", "@nest", "@none", "@prefix", "@propagate",
    "@protected", "@reverse", "@set", "@type", "@value", "@version", "@vocab"]

def isKeyword (text : String) : Bool := keywords.contains text

/-- An at sign and letters. What looks like a keyword is set aside if it is none. -/
def resemblesKeyword (text : String) : Bool :=
  match text.toList with
  | '@' :: rest => !rest.isEmpty && rest.all Char.isAlpha
  | _ => false

/-- What a term stands for: nothing, a keyword or an identifier, and how its values are read. -/
structure Term where
  iri : Option String
  isSpace : Bool := false
  isReverse : Bool := false
  isList : Bool := false
  coercion : Option String := none
  language : Option (Option String) := none

structure Context where
  base : Option String := none
  vocabulary : Option String := none
  language : Option String := none
  terms : Std.TreeMap String Term := ∅

/-- What a name may be short for, besides a term of its space: names of the vocabulary, and
references under the base. -/
structure Scope where
  vocabulary : Bool
  base : Bool

/-- Splits a name at its first colon, unless the name begins with it. -/
def cutName (text : String) : Option (String × String) :=
  match cutAt ':' text.toList with
  | ([], _) | (_, none) => none
  | (space, some localPart) => some (String.ofList space, String.ofList localPart)

/-- A text with a scheme, or the label of a blank node. -/
def isFull (text : String) : Bool :=
  match cutName text with
  | some (scheme, _) => scheme == "_" || isScheme scheme.toList
  | none => false

namespace Context

/-- A name that no term explains, as a name of the vocabulary or a reference. -/
def complete (c : Context) (scope : Scope) (text : String) : String :=
  match scope.vocabulary, c.vocabulary, scope.base, c.base with
  | true, some vocabulary, _, _ => vocabulary ++ text
  | _, _, true, some base =>
    String.ofList ((Reference.ofChars base.toList).resolve (Reference.ofChars text.toList)).toChars
  | _, _, _, _ => text

/-- What a name stands for by its space. -/
def bySpace? (c : Context) (text : String) : Option String :=
  match cutName text with
  | none => none
  | some (space, localPart) =>
    if space = "_" ∨ ['/', '/'].isPrefixOf localPart.toList then some text
    else
      match c.terms[space]? with
      | some { iri := some iri, isSpace := true, .. } => some (iri ++ localPart)
      | _ => if isFull text then some text else none

/-- What a name stands for by its own definition, if that settles it. -/
def byTerm? (c : Context) (scope : Scope) (text : String) : Option (Option String) :=
  match c.terms[text]? with
  | some term =>
    if scope.vocabulary || term.iri.any isKeyword then some term.iri else none
  | none => none

/-- What a name stands for; `none` if it is set aside. -/
def expand (c : Context) (scope : Scope) (text : String) : Option String :=
  if isKeyword text then some text
  else if resemblesKeyword text then none
  else
    match c.byTerm? scope text with
    | some iri => iri
    | none => some ((c.bySpace? text).getD (c.complete scope text))

/-- What a key stands for. -/
def expandKey (c : Context) (key : String) : Option String :=
  c.expand ⟨true, false⟩ key

end Context

end UsagePolicy.Rdf.JsonLd
