import UsagePolicy.Rdf.JsonLd.Definition
import UsagePolicy.Rdf.JsonLd.Number
import UsagePolicy.Rdf.LanguageTag
import UsagePolicy.Rdf.Lexical
import UsagePolicy.Rdf.Term
/-!
# Values of JSON documents as terms

Texts, numbers and truth values are literals, or references where the definition of their key says
so. An object is a value, a list, a set or a node, which its keys tell.
-/

namespace UsagePolicy.Rdf.JsonLd

/-- The resource that an identifier names; one that stays relative names none. -/
def resource? (text : String) : Option Resource :=
  match text.toList with
  | '_' :: ':' :: label =>
    match readLabel label with
    | some (label, []) => some (.blank (.labelled (String.ofList label)))
    | _ => none
  | _ => if isIri text then some (.iri text) else none

/-- A datatype as it is written beside a value, or none; a value in the datatype of language-tagged
texts is refused. -/
def literalOf? (text own : String) (datatype : Option String) : Option Rdf.Term :=
  (Literal.typed? text (datatype.getD own)).map .literal

/-- A text, a number or a truth value as a literal, with a datatype if one is given. -/
def scalarLiteral? (datatype : Option String) : Json → Option Rdf.Term
  | .string text => literalOf? text Datatype.string datatype
  | .bool value => literalOf? (if value then "true" else "false") Datatype.boolean datatype
  | .number text =>
    let (text, own) := numberLiteral (.ofText text)
    literalOf? text own datatype
  | _ => none

/-- A text in a language; in one that is no language there is none. -/
def taggedLiteral? (text tag : String) : Option Rdf.Term :=
  (LanguageTag.normalize? tag).map fun tag => .literal ⟨text, .language tag⟩

namespace Context

/-- A scalar under a key as a reference, if the definition of the key says so. -/
def reference? (c : Context) (term : Option Term) : Json → Option (Option Resource)
  | .string text =>
    match term.bind (·.coercion) with
    | some "@id" => some ((c.expand ⟨false, true⟩ text).bind resource?)
    | some "@vocab" => some ((c.expand ⟨true, true⟩ text).bind resource?)
    | _ => none
  | _ => none

/-- The language of texts under a key. -/
def languageOf (c : Context) (term : Option Term) : Option String :=
  match term.bind (·.language) with
  | some language => language
  | none => c.language

/-- What a scalar under a key stands for: at the outside `none` if it is refused, and inside `none`
if it has no well-formed term. -/
def scalarTerm? (c : Context) (term : Option Term) (v : Json) : Option (Option Rdf.Term) :=
  match c.reference? term v with
  | some resource => some (resource.map .resource)
  | none =>
    match (term.bind (·.coercion)).filter (!isKeyword ·), v with
    | some datatype, v =>
      if isIri datatype then (scalarLiteral? (some datatype) v).map some else some none
    | none, .string text =>
      match c.languageOf term with
      | some tag => some (taggedLiteral? text tag)
      | none => some (some (.literal (.plain text)))
    | none, v => (scalarLiteral? none v).map some

/-- A literal that an object writes out: at the outside `none` if it is refused, and inside `none`
if there is no value or no well-formed term. -/
def objectLiteral? (c : Context) (value type language : Option Json) : Option (Option Rdf.Term) :=
  match value.getD .null, type, language with
  | .array _, _, _ | .object _, _, _ => none
  | _, some _, some _ => none
  | .null, none, none => some none
  | .null, none, some (.string _) => some none
  | .string text, none, some (.string tag) => some (taggedLiteral? text tag)
  | v, some (.string type), none => do
    let datatype ← (c.expand ⟨true, true⟩ type).filter isIri
    match v with
    | .null => some none
    | v => (scalarLiteral? (some datatype) v).map some
  | v, none, none => (scalarLiteral? none v).map some
  | _, _, _ => none

end Context

/-- What an object stands for. -/
inductive Shape
  | literal (term : Option Rdf.Term)
  | list
  | set
  | node (subject : Option (Option Resource)) (types : List Resource)

/-- The values of the keys that stand for a keyword, in order. -/
def valuesOf (keyword : String) (members : List (Option String × Json)) : List Json :=
  members.filterMap fun m => if m.1 = some keyword then some m.2 else none

/-- The value of a keyword that may stand at most once. -/
def valueOf? (keyword : String) (members : List (Option String × Json)) : Option (Option Json) :=
  match valuesOf keyword members with
  | [] => some none
  | [v] => some (some v)
  | _ => none

/-- Whether all keys are among some keywords, but for those that stand for nothing. -/
def hasOnly (allowed : List String) (members : List (Option String × Json)) : Bool :=
  members.all fun m => m.1.all fun key => allowed.contains key || !(isKeyword key || isFull key)

def hasKey (keyword : String) (members : List (Option String × Json)) : Bool :=
  members.any (·.1 == some keyword)

/-- The texts of a type: one, or several in an array. -/
def typeTexts? : Json → Option (List String)
  | .string text => some [text]
  | .array items => items.mapM Json.string?
  | _ => none

namespace Context

/-- The members of an object with what their keys stand for. -/
def expandKeys (c : Context) (members : List (String × Json)) : List (Option String × Json) :=
  members.map fun m => (c.expandKey m.1, m.2)

/-- The subject of a node, if it has an identifier. -/
def subject? (c : Context) (members : List (Option String × Json)) :
    Option (Option (Option Resource)) :=
  match valueOf? "@id" members with
  | some none => some none
  | some (some (.string text)) => some (some ((c.expand ⟨false, true⟩ text).bind resource?))
  | _ => none

/-- The types of a node that are well-formed. -/
def types? (c : Context) (members : List (Option String × Json)) : Option (List Resource) := do
  let texts ← (valuesOf "@type" members).mapM typeTexts?
  return texts.flatten.filterMap fun text => (c.expand ⟨true, true⟩ text).bind resource?

/-- What an object stands for by its keys; `none` if they do not go together. -/
def shape? (c : Context) (members : List (String × Json)) : Option Shape := do
  let members := c.expandKeys members
  if (valuesOf "@index" members).any fun v => v.string?.isNone then none
  else if hasKey "@value" members then
    if hasOnly ["@context", "@direction", "@index", "@language", "@type", "@value"] members then
      return .literal (← c.objectLiteral? (← valueOf? "@value" members)
        (← valueOf? "@type" members) (← valueOf? "@language" members))
    else none
  else if hasKey "@list" members then
    if hasOnly ["@context", "@index", "@list"] members then return .list else none
  else if hasKey "@set" members then
    if hasOnly ["@context", "@index", "@set"] members then return .set else none
  else return .node (← c.subject? members) (← c.types? members)

/-- Adds the contexts that an object brings along. -/
def extend? (c : Context) (members : List (String × Json)) : Option Context :=
  (members.filter (·.1 == "@context")).foldlM (fun c m => c.addAll? m.2) c

end Context

end UsagePolicy.Rdf.JsonLd
