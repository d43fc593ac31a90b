import UsagePolicy.FileTree
import UsagePolicy.PolicyFormat
import UsagePolicy.Rdf.JsonLd.Parser
import UsagePolicy.Rdf.LineFormat
import UsagePolicy.Rdf.Turtle.Parser
/-!
# Policies

A policy is a graph that was read from a document; the document's file extension tells its format.
-/

namespace UsagePolicy

namespace PolicyFormat

/-- The statements of a document, in order. -/
def statements? : PolicyFormat → String → Option (List Rdf.Statement)
  | nTriples => Rdf.LineFormat.parse? false
  | nQuads => Rdf.LineFormat.parse? true
  | turtle => Rdf.Turtle.parse?
  | jsonLd => Rdf.JsonLd.parse?

/-- The graph of a document. -/
def parse? (format : PolicyFormat) (text : String) : Option Graph :=
  (format.statements? text).map fun statements =>
    if format.renamesBlankNodes then Rdf.numberedGraph statements
    else Rdf.labelledGraph statements

/-- What is said about a document that is not of its format. -/
def syntaxMessage (format : PolicyFormat) : String :=
  s!"{format.name} syntax error"

end PolicyFormat

structure Policy where
  format : PolicyFormat
  graph : Graph

/-- Why a policy cannot be loaded from a path. -/
inductive LoadError
  | unknownExtension (path : String)
  | unreadable (path : String)
  | malformed (path : String) (format : PolicyFormat)
  deriving DecidableEq

/-- The messages of an error, outermost first. -/
def LoadError.chain : LoadError → List String
  | unknownExtension path =>
    [s!"{path}: unrecognized policy file extension " ++
      "(expected .nt, .nq, .ttl, .jsonld or .json)"]
  | unreadable path => [s!"read {path}", "<io error>"]
  | malformed path format => [s!"parse {path}", format.syntaxMessage]

/-- Reads a file and parses it in the format of its extension. -/
def FileTree.loadPolicy (files : FileTree) (path : String) : Except LoadError Policy :=
  match PolicyFormat.ofPath? path with
  | none => .error (.unknownExtension path)
  | some format =>
    match files.read? path with
    | none => .error (.unreadable path)
    | some text =>
      match format.parse? text with
      | none => .error (.malformed path format)
      | some graph => .ok ⟨format, graph⟩

end UsagePolicy
