import UsagePolicy.Toml.Value
/-!
# Growing a TOML document

A document is a table that grows statement by statement. How a table came to be decides whether it
can still be opened or extended: a table has one header at most, a header does not open what dotted
keys have made, and dotted keys do not reach into what a header has made.
-/

namespace UsagePolicy.Toml

/-- How a table came to be: from a header below it, from its own header, or from dotted keys. -/
inductive Origin
  | implied
  | header
  | dotted
  deriving DecidableEq

/-- A finished value, a table, or the tables of an array, latest first. -/
inductive Node
  | value (v : Toml)
  | table (origin : Origin) (entries : List (String × Node))
  | tables (elements : List (List (String × Node)))

abbrev Entries := List (String × Node)

namespace Entries

def find? (entries : Entries) (key : String) : Option Node :=
  (List.find? (·.1 == key) entries).map (·.2)

/-- Replaces the node of a key, or puts it at the end. -/
def set (entries : Entries) (key : String) (node : Node) : Entries :=
  if entries.any (·.1 == key) then
    entries.map fun e => if e.1 == key then (key, node) else e
  else entries ++ [(key, node)]

/-- Gives a value to a dotted key. -/
def assign (entries : Entries) (v : Toml) : List String → Option Entries
  | [] => none
  | [key] =>
    match entries.find? key with
    | none => some (entries.set key (.value v))
    | some _ => none
  | key :: rest =>
    match entries.find? key with
    | none => (assign [] v rest).map fun es => entries.set key (.table .dotted es)
    | some (.table origin es) =>
      if origin = .dotted ∨ (origin = .implied ∧ 1 < rest.length) then
        (assign es v rest).map fun es => entries.set key (.table origin es)
      else none
    | some _ => none

/-- Changes the entries that a path of headers leads to; the last element of an array of tables
stands for the array. Tables on the way are made if they are missing. -/
def descend (entries : Entries) (change : Entries → Option Entries) : List String → Option Entries
  | [] => change entries
  | key :: rest =>
    match entries.find? key with
    | none => (descend [] change rest).map fun es => entries.set key (.table .implied es)
    | some (.table origin es) =>
      (descend es change rest).map fun es => entries.set key (.table origin es)
    | some (.tables (es :: done)) =>
      (descend es change rest).map fun es => entries.set key (.tables (es :: done))
    | some _ => none

/-- Opens the table of a header. -/
def openTable (key : String) (entries : Entries) : Option Entries :=
  match entries.find? key with
  | none => some (entries.set key (.table .header []))
  | some (.table .implied es) => some (entries.set key (.table .header es))
  | some _ => none

/-- Begins a new element of an array of tables. -/
def openElement (key : String) (entries : Entries) : Option Entries :=
  match entries.find? key with
  | none => some (entries.set key (.tables [[]]))
  | some (.tables elements) => some (entries.set key (.tables ([] :: elements)))
  | some _ => none

end Entries

mutual

def Node.toToml : Node → Toml
  | .value v => v
  | .table _ entries => .table (entriesToToml entries)
  | .tables elements => .array (elementsToToml elements).reverse

def entriesToToml : List (String × Node) → List (String × Toml)
  | [] => []
  | (key, node) :: rest => (key, node.toToml) :: entriesToToml rest

def elementsToToml : List (List (String × Node)) → List Toml
  | [] => []
  | entries :: rest => .table (entriesToToml entries) :: elementsToToml rest

end

/-- A statement of a document. -/
inductive Statement
  | header (path : List String)
  | element (path : List String)
  | assign (path : List String) (v : Toml)

/-- A document that has been read so far, and the header under which it goes on. -/
structure Document where
  entries : Entries
  header : List String

namespace Document

def empty : Document := ⟨[], []⟩

def add (d : Document) : Statement → Option Document
  | .header path =>
    match path.getLast? with
    | none => none
    | some key => (d.entries.descend (Entries.openTable key) path.dropLast).map (⟨·, path⟩)
  | .element path =>
    match path.getLast? with
    | none => none
    | some key => (d.entries.descend (Entries.openElement key) path.dropLast).map (⟨·, path⟩)
  | .assign path v =>
    (d.entries.descend (fun es => es.assign v path) d.header).map (⟨·, d.header⟩)

/-- The table that a row of statements makes. -/
def ofStatements? (statements : List Statement) : Option Toml :=
  (statements.foldlM add empty).map fun d => .table (entriesToToml d.entries)

end Document

end UsagePolicy.Toml
