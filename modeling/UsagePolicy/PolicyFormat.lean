import UsagePolicy.Text.Fold
import UsagePolicy.Path
/-!
# Policy formats

The forms in which a policy graph can be written, and the file extensions that tell them apart.
-/

namespace UsagePolicy

inductive PolicyFormat
  | nTriples
  | nQuads
  | turtle
  | jsonLd
  deriving DecidableEq

namespace PolicyFormat

def all : List PolicyFormat := [nTriples, nQuads, turtle, jsonLd]

def name : PolicyFormat → String
  | nTriples => "N-Triples"
  | nQuads => "N-Quads"
  | turtle => "Turtle"
  | jsonLd => "JSON-LD"

/-- The formats with nodes that have no label of their own: their blank nodes are numbered in the
order in which they appear, so that traces do not depend on labels. -/
def renamesBlankNodes : PolicyFormat → Bool
  | turtle | jsonLd => true
  | nTriples | nQuads => false

/-- The format of a file extension, without regard to ASCII case. -/
def ofExtension? (extension : String) : Option PolicyFormat :=
  match Text.fold extension with
  | "nt" => some nTriples
  | "nq" => some nQuads
  | "ttl" => some turtle
  | "jsonld" | "json" => some jsonLd
  | _ => none

def ofPath? (path : String) : Option PolicyFormat :=
  (Path.extension? path).bind ofExtension?

end PolicyFormat

end UsagePolicy
