import UsagePolicy.Json.Parser
import UsagePolicy.Rdf.JsonLd.Value
import UsagePolicy.Vocabulary
/-!
# Reading JSON-LD

Nodes are stated from the outside in: first the link to a node, then its types, its properties in
the order of the document, and last the nodes of its graph.
-/

namespace UsagePolicy.Rdf.JsonLd

/-- What a value is linked to: nothing, a subject by a predicate, or an object the other way. -/
inductive Link
  | free
  | forward (subject : Resource) (predicate : String)
  | backward (object : Resource) (predicate : String)

/-- Statements under construction; the state counts the nodes without identifier. A document that
cannot be read has none. -/
abbrev Writing (α : Type) := StateT Nat Option α

namespace Writing

def freshBlank : Writing Blank :=
  fun n => some (.anonymous n, n + 1)

def ofOption {α : Type} (a : Option α) : Writing α :=
  fun n => a.map (·, n)

end Writing

/-- The statement of a link to a term. A literal has no properties, so nothing leads back to it. -/
def Link.to? : Link → Rdf.Term → Option (List Statement)
  | free, _ => some []
  | forward subject predicate, term => some [⟨subject, predicate, term⟩]
  | backward object predicate, .resource subject => some [⟨subject, predicate, .resource object⟩]
  | backward _ _, .literal _ => none

/-- The statement of a link to a term that may not be well-formed. -/
def Link.toAny? (link : Link) : Option Rdf.Term → Option (List Statement)
  | some term => link.to? term
  | none => some []

/-- The link to the first item behind a cell. -/
def Link.inCell (cell : Blank) : Link := .forward (.blank cell) Vocabulary.first

/-- The link to the next cell of a list: from the cell before it, or else that of the list. -/
def Link.toNext (link : Link) : Option Blank → Link
  | some cell => .forward (.blank cell) Vocabulary.rest
  | none => link

/-- A new cell behind the last cell of a list. -/
def newCell (link : Link) (last : Option Blank) : Writing (List Statement × Blank) := do
  let cell ← Writing.freshBlank
  return (← .ofOption ((link.toNext last).to? (.blank cell)), cell)

/-- A list that is complete, from its statements and its last cell. -/
def endList (link : Link) (items : List Statement × Option Blank) : Writing (List Statement) := do
  return items.1 ++ (← .ofOption ((link.toNext items.2).to? (.iri Vocabulary.nil)))

/-- Statements about a node that may not be well-formed, from those about any. -/
def stateAbout (subject : Option Resource) (statements : Resource → Writing (List Statement)) :
    Writing (List Statement) :=
  match subject with
  | some subject => statements subject
  | none => do
    let _ ← statements (.iri "")
    return []

/-- Whether a value under a key with lists is left as it is: a list already, or nothing. -/
def Context.isListOrNothing? (c : Context) : Json → Option Bool
  | .null => some true
  | .object members => do
    match ← (← c.extend? members).shape? members with
    | .list | .literal none => return true
    | _ => return false
  | _ => some false

mutual

/-- The statements of a value behind a link; `term` defines how it is read. -/
def value (c : Context) (term : Option Term) (link : Link) (v : Json) : Writing (List Statement) :=
  match v with
  | .null => return []
  | .array vs => values c term link vs
  | .object members => object c term link members
  | scalar =>
    match link with
    | .free => return []
    | link => do .ofOption (link.toAny? (← .ofOption (c.scalarTerm? term scalar)))
termination_by (sizeOf v, 0)

def values (c : Context) (term : Option Term) (link : Link) (vs : List Json) :
    Writing (List Statement) :=
  match vs with
  | [] => return []
  | v :: vs => return (← value c term link v) ++ (← values c term link vs)
termination_by (sizeOf vs, 0)

/-- The statements of an object by its shape. -/
def object (c : Context) (term : Option Term) (link : Link) (members : List (String × Json)) :
    Writing (List Statement) := do
  let c ← .ofOption (c.extend? members)
  match ← .ofOption (c.shape? members), link with
  | .literal t, link => .ofOption (link.toAny? t)
  | .list, .forward _ _ => endList link (← listItems c term link none members)
  | .list, .free => return []
  | .list, .backward _ _ => failure
  | .set, link => setItems c term link members
  | .node subject types, link =>
    let subject ← match subject with
      | some subject => pure subject
      | none => (some ∘ Resource.blank) <$> Writing.freshBlank
    stateAbout subject fun subject => do
      let linking ← .ofOption (link.to? (.resource subject))
      let typing := types.map fun type => ⟨subject, Vocabulary.type, .resource type⟩
      let properties ← properties c subject members
      return linking ++ typing ++ properties ++ (← graphs c members)
termination_by (sizeOf members, 2)

/-- The statements of what stands in a set. -/
def setItems (c : Context) (term : Option Term) (link : Link) (members : List (String × Json)) :
    Writing (List Statement) :=
  match members with
  | [] => return []
  | (key, v) :: rest => do
    let here ← if c.expandKey key = some "@set" then value c term link v else pure []
    return here ++ (← setItems c term link rest)
termination_by (sizeOf members, 1)

/-- The statements of the items of a list behind its last cell, and then its last cell. -/
def listItems (c : Context) (term : Option Term) (link : Link) (last : Option Blank)
    (members : List (String × Json)) : Writing (List Statement × Option Blank) :=
  match members with
  | [] => return ([], last)
  | (key, v) :: rest => do
    let here ← if c.expandKey key = some "@list" ∨ c.expandKey key = some "@set" then
        match v with
        | .array vs => items c term link last vs
        | v => item c term link last v
      else pure ([], last)
    let more ← listItems c term link here.2 rest
    return (here.1 ++ more.1, more.2)
termination_by (sizeOf members, 1)

def items (c : Context) (term : Option Term) (link : Link) (last : Option Blank)
    (vs : List Json) : Writing (List Statement × Option Blank) :=
  match vs with
  | [] => return ([], last)
  | v :: vs => do
    let here ← item c term link last v
    let more ← items c term link here.2 vs
    return (here.1 ++ more.1, more.2)
termination_by (sizeOf vs, 0)

/-- The statements of one item of a list. An array in it is a list where the key has lists, and
otherwise stands for its items, as a set does. -/
def item (c : Context) (term : Option Term) (link : Link) (last : Option Blank) (v : Json) :
    Writing (List Statement × Option Blank) :=
  match v with
  | .null => return ([], last)
  | .array vs =>
    if term.any (·.isList) then do
      let (linking, cell) ← newCell link last
      let inner ← endList (.inCell cell) (← items c term (.inCell cell) none vs)
      return (linking ++ inner, some cell)
    else items c term link last vs
  | .object members => do
    let inside ← .ofOption (c.extend? members)
    match ← .ofOption (inside.shape? members) with
    | .literal none => return ([], last)
    | .set => listItems inside term link last members
    | _ =>
      let (linking, cell) ← newCell link last
      return (linking ++ (← object c term (.inCell cell) members), some cell)
  | scalar => do
    let (linking, cell) ← newCell link last
    let t ← .ofOption (c.scalarTerm? term scalar)
    return (linking ++ (← .ofOption ((Link.inCell cell).toAny? t)), some cell)
termination_by (sizeOf v, 0)

/-- The statements of a value under a key, which may have lists. -/
def keyed (c : Context) (term : Option Term) (link : Link) (v : Json) :
    Writing (List Statement) := do
  if term.any (·.isList) && !(← .ofOption (c.isListOrNothing? v)) then
    match v with
    | .array vs => endList link (← items c term link none vs)
    | v => endList link (← item c term link none v)
  else value c term link v
termination_by (sizeOf v, 1)

/-- The statements of a node's properties. -/
def properties (c : Context) (subject : Resource) (members : List (String × Json)) :
    Writing (List Statement) :=
  match members with
  | [] => return []
  | (key, v) :: rest => do
    let here ← match c.expandKey key with
      | none => pure []
      | some "@reverse" =>
        match v with
        | .object inner => reverseProperties c subject inner
        | _ => failure
      | some name =>
        if isKeyword name || !isFull name then pure []
        else
          let term := c.terms[key]?
          let link := if term.any (·.isReverse) then Link.backward subject name
            else .forward subject name
          let statements ← keyed c term link v
          pure (if isIri name then statements else [])
    return here ++ (← properties c subject rest)
termination_by (sizeOf members, 1)

/-- The statements of properties that lead to a node. -/
def reverseProperties (c : Context) (object : Resource) (members : List (String × Json)) :
    Writing (List Statement) :=
  match members with
  | [] => return []
  | (key, v) :: rest => do
    let here ← match c.expandKey key with
      | none => pure []
      | some name =>
        if isKeyword name then failure
        else if !isFull name then pure []
        else
          let term := c.terms[key]?
          let link := if term.any (·.isReverse) then Link.forward object name
            else .backward object name
          let statements ← keyed c term link v
          pure (if isIri name then statements else [])
    return here ++ (← reverseProperties c object rest)
termination_by (sizeOf members, 1)

/-- The statements of the graphs that an object holds. -/
def graphs (c : Context) (members : List (String × Json)) : Writing (List Statement) :=
  match members with
  | [] => return []
  | (key, v) :: rest => do
    let here ← if c.expandKey key = some "@graph" then value c none .free v else pure []
    return here ++ (← graphs c rest)
termination_by (sizeOf members, 1)

end

/-- The statements of a document. A byte-order mark at its start does not count. -/
def parse? (text : String) : Option (List Statement) := do
  let text := match text.toList with
    | '\ufeff' :: rest => String.ofList rest
    | _ => text
  let document ← Json.parse? text.utf8ByteSize text
  let (statements, _) ← (value {} none .free document).run 0
  return statements

end UsagePolicy.Rdf.JsonLd
