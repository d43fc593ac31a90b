import Std.Data.TreeMap
import UsagePolicy.Rdf.Iri
import UsagePolicy.Rdf.LanguageTag
import UsagePolicy.Rdf.Turtle.Token
import UsagePolicy.Text.Fold
import UsagePolicy.Vocabulary
/-!
# Reading Turtle

The tokens of a document are taken one by one. What a token completes is stated at once: of several
statements that one token completes, the last comes first.
-/

namespace UsagePolicy.Rdf.Turtle

/-- Where an object goes: under a subject and a predicate, or into a cell of a list. -/
inductive Place
  | property (subject : Resource) (predicate : String)
  | item (cell : Blank)

/-- The statement that puts an object in its place. -/
def Place.fill (object : Term) : Place → Statement
  | property subject predicate => ⟨subject, predicate, object⟩
  | item cell => ⟨.blank cell, Vocabulary.first, object⟩

/-- A structure that is still open. One that stands for a subject has no place. -/
inductive Frame
  | brackets (node : Blank) (place : Option Place)
  | list (head : Blank) (place : Option Place)

/-- How a declaration ends: those with an at sign need a point. -/
inductive Ending
  | point
  | none

/-- What may come next. -/
inductive Expected
  | statement
  | spaceName (ending : Ending)
  | spaceIri (ending : Ending) (space : String)
  | baseIri (ending : Ending)
  | declarationPoint
  | predicate (subject : Resource)
  | predicateOrPoint (subject : Resource)
  | predicateOrEnd (subject : Resource)
  | object (place : Place)
  | qualifier (place : Place) (text : String)
  | datatype (place : Place) (text : String)
  | afterObject (place : Place)
  | inBrackets (place : Option Place)
  | inList (place : Option Place)

/-- What the tokens read so far have come to. -/
structure Reading where
  base : Option String
  spaces : Std.TreeMap String String
  blanks : Nat
  openFrames : List Frame
  expected : Expected

/-- A reading and the statements that its last token completed. -/
abbrev Step := Reading × List Statement

namespace Reading

def initial : Reading := ⟨none, ∅, 0, [], .statement⟩

/-- Goes on without a statement. -/
def expect (r : Reading) (e : Expected) : Step :=
  ({ r with expected := e }, [])

/-- Puts an object in its place. -/
def state (r : Reading) (place : Place) (object : Term) : Step :=
  ({ r with expected := .afterObject place }, [place.fill object])

/-- A node that was not used before. -/
def freshBlank (r : Reading) : Blank × Reading :=
  (.anonymous r.blanks, { r with blanks := r.blanks + 1 })

/-- The identifier that a token writes in full or by a name. -/
def iri? (r : Reading) : Token → Option String
  | .iri text => resolveIri? r.base text
  | .name space localPart => do
    let text := (← r.spaces[space]?) ++ localPart
    if isIri text then some text else none
  | _ => none

/-- Puts statements before those of a step. -/
def after (statements : List Statement) (step : Option Step) : Option Step :=
  step.map fun s => (s.1, statements ++ s.2)

def readPredicate (r : Reading) (subject : Resource) (t : Token) : Option Step :=
  match t with
  | .word "a" => some (r.expect (.object (.property subject Vocabulary.type)))
  | t => (r.iri? t).map fun p => r.expect (.object (.property subject p))

def readObject (r : Reading) (place : Place) (t : Token) : Option Step :=
  match t with
  | .iri _ | .name _ _ => (r.iri? t).map fun text => r.state place (.iri text)
  | .blank label => some (r.state place (.blank (.labelled label)))
  | .number text datatype => some (r.state place (.literal (.typed text datatype)))
  | .word "true" => some (r.state place (.literal (.typed "true" Datatype.boolean)))
  | .word "false" => some (r.state place (.literal (.typed "false" Datatype.boolean)))
  | .text text => some (r.expect (.qualifier place text))
  | .openBracket => some (r.expect (.inBrackets (some place)))
  | .openParen => some (r.expect (.inList (some place)))
  | _ => none

/-- Closes the innermost brackets: their node is an object in its place, or a subject. -/
def closeBracket (r : Reading) : Option Step :=
  match r.openFrames with
  | .brackets node (some place) :: outer =>
    some ({ r with openFrames := outer }.state place (.blank node))
  | .brackets node none :: outer =>
    some ({ r with openFrames := outer }.expect (.predicateOrPoint (.blank node)))
  | _ => none

/-- Ends a statement, if nothing is open. -/
def endStatement (r : Reading) : Option Step :=
  if r.openFrames.isEmpty then some (r.expect .statement) else none

/-- Ends the list whose last cell is given. -/
def closeList (r : Reading) (last : Blank) : Option Step :=
  let ending : Statement := ⟨.blank last, Vocabulary.rest, .iri Vocabulary.nil⟩
  match r.openFrames with
  | .list _ (some place) :: outer =>
    some ({ r with openFrames := outer, expected := .afterObject place }, [ending])
  | .list head none :: outer =>
    some ({ r with openFrames := outer, expected := .predicate (.blank head) }, [ending])
  | _ => none

/-- Adds a cell behind another and reads its item. -/
def readItem (r : Reading) (last : Blank) (t : Token) : Option Step :=
  let (cell, r) := r.freshBlank
  after [⟨.blank last, Vocabulary.rest, .blank cell⟩] (r.readObject (.item cell) t)

def readAfterObject (r : Reading) (place : Place) (t : Token) : Option Step :=
  match place, t with
  | .property subject predicate, .comma =>
    some (r.expect (.object (.property subject predicate)))
  | .property subject _, .semicolon => some (r.expect (.predicateOrEnd subject))
  | .property _ _, .closeBracket => r.closeBracket
  | .property _ _, .point => r.endStatement
  | .property _ _, _ => none
  | .item cell, .closeParen => r.closeList cell
  | .item cell, t => r.readItem cell t

/-- Reads what follows a text: its language, its datatype, or what follows the literal. -/
def readQualifier (r : Reading) (place : Place) (text : String) (t : Token) : Option Step :=
  match t with
  | .tag tag =>
    (LanguageTag.normalize? tag).map fun tag => r.state place (.literal ⟨text, .language tag⟩)
  | .datatypeMark => some (r.expect (.datatype place text))
  | t => after [place.fill (.literal (.plain text))] (r.readAfterObject place t)

/-- Reads the first token in brackets. -/
def readInBrackets (r : Reading) (place : Option Place) (t : Token) : Option Step :=
  let (node, r) := r.freshBlank
  match t, place with
  | .closeBracket, some place => some (r.state place (.blank node))
  | .closeBracket, none => some (r.expect (.predicate (.blank node)))
  | t, place =>
    { r with openFrames := .brackets node place :: r.openFrames }.readPredicate (.blank node) t

/-- Reads the first token in a list. -/
def readInList (r : Reading) (place : Option Place) (t : Token) : Option Step :=
  match t, place with
  | .closeParen, some place => some (r.state place (.iri Vocabulary.nil))
  | .closeParen, none => some (r.expect (.predicate (.iri Vocabulary.nil)))
  | t, place =>
    let (cell, r) := r.freshBlank
    let link := place.toList.map (Place.fill (.blank cell))
    after link ({ r with openFrames := .list cell place :: r.openFrames }.readObject (.item cell) t)

/-- Reads the first token of a statement or a declaration. Words that begin a declaration have no
case. -/
def readStatement (r : Reading) (t : Token) : Option Step :=
  match t with
  | .tag "prefix" => some (r.expect (.spaceName .point))
  | .tag "base" => some (r.expect (.baseIri .point))
  | .word word =>
    if Text.fold word = "prefix" then some (r.expect (.spaceName .none))
    else if Text.fold word = "base" then some (r.expect (.baseIri .none))
    else none
  | .iri _ | .name _ _ => (r.iri? t).map fun text => r.expect (.predicate (.iri text))
  | .blank label => some (r.expect (.predicate (.blank (.labelled label))))
  | .openBracket => some (r.expect (.inBrackets none))
  | .openParen => some (r.expect (.inList none))
  | _ => none

def endDeclaration (r : Reading) : Ending → Step
  | .point => r.expect .declarationPoint
  | .none => r.expect .statement

/-- Takes one more token. -/
def step (r : Reading) (t : Token) : Option Step :=
  match r.expected, t with
  | .statement, t => r.readStatement t
  | .spaceName ending, .name space "" => some (r.expect (.spaceIri ending space))
  | .spaceIri ending space, .iri text =>
    (resolveIri? r.base text).map fun iri =>
      { r with spaces := r.spaces.insert space iri }.endDeclaration ending
  | .baseIri ending, .iri text =>
    (resolveIri? r.base text).map fun iri => { r with base := some iri }.endDeclaration ending
  | .declarationPoint, .point => some (r.expect .statement)
  | .predicate subject, t => r.readPredicate subject t
  | .predicateOrPoint _, .point => r.endStatement
  | .predicateOrPoint subject, t => r.readPredicate subject t
  | .predicateOrEnd subject, .semicolon => some (r.expect (.predicateOrEnd subject))
  | .predicateOrEnd _, .point => r.endStatement
  | .predicateOrEnd _, .closeBracket => r.closeBracket
  | .predicateOrEnd subject, t => r.readPredicate subject t
  | .object place, t => r.readObject place t
  | .qualifier place text, t => r.readQualifier place text t
  | .datatype place text, t => do
    return r.state place (.literal (← Literal.typed? text (← r.iri? t)))
  | .afterObject place, t => r.readAfterObject place t
  | .inBrackets place, t => r.readInBrackets place t
  | .inList place, t => r.readInList place t
  | _, _ => none

/-- The statements of tokens, in the order in which they are completed. -/
def readAll (r : Reading) : List Token → Option (List Statement)
  | [] =>
    match r.expected with
    | .statement => some []
    | _ => none
  | t :: ts =>
    match r.step t with
    | none => none
    | some (r, statements) => (r.readAll ts).map (statements.reverse ++ ·)

end Reading

/-- The statements of a document, in the order in which they are completed. -/
def parse? (text : String) : Option (List Statement) :=
  (tokens? text.toList).bind Reading.initial.readAll

end UsagePolicy.Rdf.Turtle
