import Std.Data.TreeMap
import UsagePolicy.Path
/-!
# File trees

The files and directories below a working directory. A file that is not text has no content that
could be read.
-/

namespace UsagePolicy

/-- An entry of a directory. -/
inductive FileEntry
  | directory
  | file (text : Option String)
  deriving DecidableEq

/-- The entries by their paths, written as names with slashes between them. -/
structure FileTree where
  entries : Std.TreeMap String FileEntry

/-- Why a file was not written. -/
inductive WriteError
  | createDirectory (path : String)
  | write (path : String)
  deriving DecidableEq

/-- The messages of an error, outermost first. -/
def WriteError.chain : WriteError → List String
  | createDirectory path => [s!"create directory {path}", "<io error>"]
  | write path => [s!"write {path}", "<io error>"]

namespace FileTree

def empty : FileTree := ⟨∅⟩

def key (names : List String) : String := "/".intercalate names

/-- The working directory, the directories above it and the root are directories; others have to be
there. -/
def isDirectory (t : FileTree) (names : List String) : Bool :=
  names.all (· == "..") || names == [""] || t.entries[key names]? == some .directory

/-- The directory above another. -/
def above (names : List String) : List String :=
  if names.all (· == "..") then ".." :: names
  else if names = [""] then names
  else names.dropLast

/-- The parts of a path between its slashes. -/
def parts (path : String) : List String :=
  (path.toList.splitOn '/').map String.ofList

/-- Where a path starts: at the root if it is absolute, and otherwise in the working directory. -/
def start (path : String) : List String :=
  if path.toList.head? = some '/' then [""] else []

/-- Follows the parts of a path from a directory. Every directory on the way has to be there. -/
def walk (t : FileTree) (here : List String) : List String → Option (List String)
  | [] => some here
  | part :: rest =>
    if !t.isDirectory here then none
    else if part = "" ∨ part = "." then walk t here rest
    else if part = ".." then walk t (above here) rest
    else walk t (here ++ [part]) rest

/-- The names that a path leads to. -/
def locate? (t : FileTree) (path : String) : Option (List String) :=
  if path = "" then none else t.walk (start path) (parts path)

/-- The text of a file. -/
def read? (t : FileTree) (path : String) : Option String :=
  match (t.locate? path).bind fun names => t.entries[key names]? with
  | some (.file text) => text
  | _ => none

/-- Makes the directories of a path that are missing; files stand in the way. -/
def makeDirectories (t : FileTree) (here : List String) : List String → Option FileTree
  | [] => some t
  | part :: rest =>
    if part = "" ∨ part = "." then makeDirectories t here rest
    else if part = ".." then makeDirectories t (above here) rest
    else
      let next := here ++ [part]
      match t.entries[key next]? with
      | some .directory => makeDirectories t next rest
      | some (.file _) => none
      | none => makeDirectories ⟨t.entries.insert (key next) .directory⟩ next rest

/-- Puts a text at a path whose directory is there. -/
def put? (t : FileTree) (path text : String) : Option FileTree :=
  if (Path.fileName? path).isNone ∨ (parts path).getLastD "" ∈ ["", "."] then none
  else
    match t.locate? path with
    | none | some [] => none
    | some names =>
      if t.isDirectory names then none
      else some ⟨t.entries.insert (key names) (.file (some text))⟩

/-- Writes a text to a path and makes the directories it needs. -/
def write (t : FileTree) (path text : String) : Except WriteError FileTree :=
  let parent := (Path.parent? path).getD ""
  match t.makeDirectories (start parent) (parts parent) with
  | none => .error (.createDirectory parent)
  | some t =>
    match t.put? path text with
    | none => .error (.write path)
    | some t => .ok t

/-- The names that a path leads to where all its directories are there. -/
def names (path : String) : List String :=
  (parts path).foldl (fun here part =>
    if part = "" ∨ part = "." then here
    else if part = ".." then above here
    else here ++ [part]) (start path)

/-- Adds a file and the directories on the way to it. -/
def add (t : FileTree) (path : String) (text : Option String) : FileTree :=
  let parent := (Path.parent? path).getD ""
  let t := (t.makeDirectories (start parent) (parts parent)).getD t
  ⟨t.entries.insert (key (names path)) (.file text)⟩

/-- The files by their paths. -/
def files (t : FileTree) : List (String × Option String) :=
  t.entries.toList.filterMap fun
    | (path, .file text) => some (path, text)
    | (_, .directory) => none

end FileTree

end UsagePolicy
