import UsagePolicy.Label
import UsagePolicy.Text.Fold
/-!
# Evaluation rounds

The first round leaves the consequences of unfulfilled duties aside, the second evaluates them.
-/

namespace UsagePolicy

inductive Round
  | first
  | second
  deriving DecidableEq, Inhabited

namespace Round

def name : Round → String
  | first => "1"
  | second => "2"

def evaluatesConsequences : Round → Bool
  | first => false
  | second => true

/-- Reads `1` or `2` between white space; the fault carries the trimmed text. -/
def ofLabel (text : String) : Except UnknownLabel Round :=
  match Text.trim text with
  | "1" => .ok first
  | "2" => .ok second
  | other => .error ⟨.round, other⟩

theorem ofLabel_name (r : Round) : ofLabel r.name = .ok r := by
  cases r <;> rfl

end Round

end UsagePolicy
