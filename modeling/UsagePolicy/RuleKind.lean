import UsagePolicy.Label
import UsagePolicy.Text.Fold
/-!
# Kinds of rules
-/

namespace UsagePolicy

inductive RuleKind
  | permission
  | prohibition
  | obligation
  deriving DecidableEq

namespace RuleKind

def all : List RuleKind := [permission, prohibition, obligation]

def name : RuleKind → String
  | permission => "permission"
  | prohibition => "prohibition"
  | obligation => "obligation"

/-- The name that evaluation steps give to the kind. -/
def title : RuleKind → String
  | permission => "Permission"
  | prohibition => "Prohibition"
  | obligation => "Obligation"

/-- Reads a kind without regard to ASCII case and surrounding white space; `duty` is a second
name of an obligation. -/
def ofLabel (text : String) : Except UnknownLabel RuleKind :=
  match Text.fold (Text.trim text) with
  | "permission" => .ok permission
  | "prohibition" => .ok prohibition
  | "obligation" | "duty" => .ok obligation
  | _ => .error ⟨.ruleKind, text⟩

theorem ofLabel_name (k : RuleKind) : ofLabel k.name = .ok k := by
  cases k <;> rfl

end RuleKind

end UsagePolicy
