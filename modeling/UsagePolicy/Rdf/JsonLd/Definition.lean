import UsagePolicy.Rdf.JsonLd.Context
/-!
# Definitions of contexts

A document adds contexts to the one it begins with. The definitions of one context may refer to each
other in any order, but not in a circle.
-/

namespace UsagePolicy.Rdf.JsonLd

/-- A definition as it is written. -/
structure Entry where
  id : Option (Option String) := none
  reverse : Option String := none
  coercion : Option String := none
  language : Option (Option String) := none
  isList : Bool := false
  isSpace : Option Bool := none
  isSimple : Bool := false

namespace Entry

/-- Reads a text or null. -/
def nullable? : Json → Option (Option String)
  | .null => some none
  | .string text => some (some text)
  | _ => none

/-- Reads a member that may be left out but is not null. -/
def member? {α : Type} (read : Json → Option α) (v : Option Json) : Option (Option α) :=
  match v with
  | none => some none
  | some v => (read v).map some

/-- Whether values are put in a list. Other containers are read and have no effect. -/
def isList? (v : Json) : Option Bool := do
  let names ← match v with
    | .string name => some [name]
    | .array items => items.mapM Json.string?
    | _ => none
  if names = ["@list"] then some true
  else if !names.isEmpty && names.all
      ["@graph", "@id", "@index", "@language", "@set", "@type"].contains then some false
  else none

def memberNames : List String :=
  ["@container", "@context", "@direction", "@id", "@index", "@language", "@nest", "@prefix",
    "@protected", "@reverse", "@type"]

def ofJson? : Json → Option Entry
  | .null => some { id := some none }
  | .string text => some { id := some (some text), isSimple := true }
  | .object members => do
    if members.any fun m => !memberNames.contains m.1 then none
    else
      return {
        id := ← member? nullable? (Json.lookup? "@id" members)
        reverse := ← member? Json.string? (Json.lookup? "@reverse" members)
        coercion := ← member? Json.string? (Json.lookup? "@type" members)
        language := ← member? nullable? (Json.lookup? "@language" members)
        isList := (← member? isList? (Json.lookup? "@container" members)).getD false
        isSpace := ← member? Json.bool? (Json.lookup? "@prefix" members) }
  | _ => none

end Entry

/-- A context under construction: what it defines so far, and the names that are settled. -/
structure Draft where
  context : Context
  settled : List String

namespace Draft

/-- Marks a name as settled, with a definition or without one. -/
def settle (d : Draft) (name : String) (term : Option Term) : Draft :=
  match term with
  | some term =>
    { context := { d.context with terms := d.context.terms.insert name term }
      settled := name :: d.settled }
  | none => { d with settled := name :: d.settled }

/-- Defines the names of the context `entries` on which the meaning of a text depends. -/
def prepare (entries : List (String × Json)) (define : Draft → String → Option Draft)
    (d : Draft) (text : String) : Option Draft := do
  let d ← if (Json.lookup? text entries).isSome then define d text else some d
  if (d.context.terms[text]?).isSome then return d
  else
    match cutName text with
    | some (space, _) => if (Json.lookup? space entries).isSome then define d space else some d
    | none => some d

/-- What a text in a definition stands for. -/
def expand (d : Draft) (text : String) : Option String :=
  d.context.expandKey text

/-- A term that is written with a colon inside or with a slash, and so has a meaning already. -/
def isCompound (name : String) : Bool :=
  (cutName name).any (·.2 != "") || name.toList.contains '/'

def hasMark (name : String) : Bool :=
  name.toList.contains ':' || name.toList.contains '/'

/-- An identifier to which something can be appended. -/
def endsOpen (iri : String) : Bool :=
  ['_', ':'].isPrefixOf iri.toList || iri.toList.getLast?.any ":/?#[]@".toList.contains

/-- The datatype or keyword by which values are read. -/
def coercion? (d : Draft) (text : String) : Option String :=
  match d.expand text with
  | some type =>
    if ["@id", "@vocab", "@json", "@none"].contains type || (isFull type && !isKeyword type) then
      some type
    else none
  | none => none

/-- The identifier of a name that is not given one. -/
def impliedIri? (d : Draft) (name : String) : Option String :=
  match cutName name with
  | some (space, localPart) =>
    match d.context.terms[space]? with
    | some term => term.iri.map (· ++ localPart)
    | none => some name
  | none =>
    if name.toList.contains '/' then (d.expand name).filter isFull
    else d.context.vocabulary.map (· ++ name)

/-- Whether a term can be the space of other names: where the definition says so, or else where it
is no more than an identifier to which something can be appended. -/
def isSpace? (entry : Entry) (name : String) (iri : Option String) : Option Bool :=
  match entry.isSpace with
  | some isSpace => if hasMark name || (isSpace && iri.any isKeyword) then none else some isSpace
  | none => some (entry.isSimple && !hasMark name && iri.any endsOpen)

/-- The definition of a term by the parts that its entry gives. -/
def complete (d : Draft) (name : String) (entry : Entry) (coercion : Option String)
    (iri : Option String) : Option Draft := do
  let isSpace ← isSpace? entry name iri
  return d.settle name (some {
    iri := iri
    isSpace := isSpace
    isList := entry.isList
    coercion := coercion
    language := if coercion.isSome then none else entry.language })

/-- Defines a name by the identifier or keyword that its entry gives. A name that has a meaning by
its colon or slash keeps it. -/
def defineAs (prepare : Draft → String → Option Draft) (d : Draft) (name : String) (entry : Entry)
    (coercion : Option String) (text : String) : Option Draft :=
  if resemblesKeyword text && !isKeyword text then some (d.settle name none)
  else do
    let d ← prepare d text
    let iri ← (d.expand text).filter fun iri => isKeyword iri || isFull iri
    let d ← (cutName name).elim (some d) fun cut => prepare d cut.1
    if iri = "@context" ∨ (isCompound name ∧ d.expand name ≠ some iri) then none
    else d.complete name entry coercion (some iri)

/-- Defines a name whose entry gives no identifier. -/
def defineImplied (prepare : Draft → String → Option Draft) (d : Draft) (name : String)
    (entry : Entry) (coercion : Option String) : Option Draft := do
  let d ← (cutName name).elim (some d) fun cut => prepare d cut.1
  d.complete name entry coercion (← d.impliedIri? name)

/-- Defines a name by the identifier of the relation that it reads backwards. -/
def defineReverse (prepare : Draft → String → Option Draft) (d : Draft) (name : String)
    (entry : Entry) (coercion : Option String) (text : String) : Option Draft :=
  if resemblesKeyword text then some (d.settle name none)
  else do
    let d ← prepare d text
    let iri ← (d.expand text).filter isFull
    if entry.isList ∨ entry.id.isSome then none
    else return d.settle name (some { iri := iri, isReverse := true, coercion := coercion })

/-- Defines a name by its entry. -/
def defineBy (prepare : Draft → String → Option Draft) (d : Draft) (name : String)
    (entry : Entry) : Option Draft := do
  let d := { d with context := { d.context with terms := d.context.terms.erase name } }
  let d ← entry.coercion.elim (some d) (prepare d)
  let coercion ← match entry.coercion with
    | none => some none
    | some text => (d.coercion? text).map some
  match entry.reverse, entry.id with
  | some text, _ => d.defineReverse prepare name entry coercion text
  | none, some none => d.complete name entry coercion none
  | none, some (some text) =>
    if text = name then d.defineImplied prepare name entry coercion
    else d.defineAs prepare name entry coercion text
  | none, none => d.defineImplied prepare name entry coercion

/-- All that a context may say about the keyword `@type`: that its values are a set. -/
def isTypeEntry : Json → Bool
  | .object members =>
    !members.isEmpty && members.all fun
      | ("@container", .string "@set") | ("@protected", .bool _) => true
      | _ => false
  | _ => false

/-- Defines a name of the context `entries`. A name depends on others; `depth` bounds how many of
them lie in a row, and more of them than there are names form a circle. -/
def define (entries : List (String × Json)) : Nat → Draft → String → Option Draft
  | 0, _, _ => none
  | depth + 1, d, name =>
    if d.settled.contains name then some d
    else if name = "@type" then
      if (Json.lookup? name entries).any isTypeEntry then some (d.settle name none) else none
    else if name = "" ∨ isKeyword name then none
    else if resemblesKeyword name then some (d.settle name none)
    else do
      let entry ← (Json.lookup? name entries).bind Entry.ofJson?
      d.defineBy (prepare entries (define entries depth)) name entry

end Draft

/-- The keys of a context that set something other than a term. -/
def settings : List String :=
  ["@base", "@direction", "@import", "@language", "@propagate", "@protected", "@version", "@vocab"]

namespace Context

/-- The base after a setting: none, or an identifier that may be relative to the base before. -/
def withBase? (c : Context) : Option Json → Option Context
  | none => some c
  | some .null => some { c with base := none }
  | some (.string text) => (resolveIri? c.base text).map fun iri => { c with base := some iri }
  | some _ => none

def withVocabulary? (c : Context) : Option Json → Option Context
  | none => some c
  | some .null => some { c with vocabulary := none }
  | some (.string text) => some { c with vocabulary := c.expand ⟨true, true⟩ text }
  | some _ => none

def withLanguage? (c : Context) : Option Json → Option Context
  | none => some c
  | some .null => some { c with language := none }
  | some (.string text) => some { c with language := some (Text.fold text) }
  | some _ => none

/-- There is one version that a context can ask for. -/
def hasKnownVersion (entries : List (String × Json)) : Bool :=
  match Json.lookup? "@version" entries with
  | none | some (.number "1.1") => true
  | some _ => false

/-- Adds the settings and the terms of a context. A context elsewhere cannot be imported. -/
def withEntries? (c : Context) (entries : List (String × Json)) : Option Context := do
  if (Json.lookup? "@import" entries).isSome || !hasKnownVersion entries then none
  else
    let c ← c.withBase? (Json.lookup? "@base" entries)
    let c ← c.withVocabulary? (Json.lookup? "@vocab" entries)
    let c ← c.withLanguage? (Json.lookup? "@language" entries)
    let names := (entries.map (·.1)).filter (!settings.contains ·)
    let d ← names.foldlM (Draft.define entries (entries.length + 1)) ⟨c, []⟩
    return d.context

/-- Adds one context: null takes everything back, and a context elsewhere is not fetched. -/
def add? (c : Context) : Json → Option Context
  | .null => some {}
  | .object entries => c.withEntries? entries
  | _ => none

/-- Adds a context, or several in a row. -/
def addAll? (c : Context) : Json → Option Context
  | .array items => items.foldlM add? c
  | v => c.add? v

end Context

end UsagePolicy.Rdf.JsonLd
