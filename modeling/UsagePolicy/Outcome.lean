import UsagePolicy.Label
import UsagePolicy.Text.Fold
/-!
# Outcomes

Every evaluation ends in one of four outcomes. What an outcome is called depends on what was
evaluated: a constraint is satisfied, a duty is fulfilled, a permission is allowed.
-/

namespace UsagePolicy

inductive Outcome
  | positive
  | negative
  | notExisting
  | error
  deriving DecidableEq

namespace Outcome

def all : List Outcome := [positive, negative, notExisting, error]

def name : Outcome → String
  | positive => "positive"
  | negative => "negative"
  | notExisting => "not-existing"
  | error => "error"

/-- Reads any label of any facet, without regard to ASCII case and surrounding white space. -/
def ofLabel (text : String) : Except UnknownLabel Outcome :=
  let folded := Text.fold (Text.trim text)
  if folded ∈ ["positive", "satisfied", "fulfilled", "allowed", "not-violated", "exercised"] then
    .ok positive
  else if folded ∈ ["negative", "not-satisfied", "not-fulfilled", "not-allowed", "violated",
      "not-exercised"] then
    .ok negative
  else if folded = "not-existing" then .ok notExisting
  else if folded = "error" then .ok error
  else .error ⟨.outcome, text⟩

end Outcome

/-- What an outcome is about. -/
inductive Facet
  | constraint
  | duty
  | permission
  | prohibition
  | action
  deriving DecidableEq

namespace Facet

def label : Facet → Outcome → String
  | constraint, .positive => "Satisfied"
  | constraint, .negative => "Not-Satisfied"
  | duty, .positive => "Fulfilled"
  | duty, .negative => "Not-Fulfilled"
  | permission, .positive => "Allowed"
  | permission, .negative => "Not-Allowed"
  | prohibition, .positive => "Not-Violated"
  | prohibition, .negative => "Violated"
  | action, .positive => "Exercised"
  | action, .negative => "Not-Exercised"
  | _, .notExisting => "Not-Existing"
  | _, .error => "Error"

/-- The four labels of a facet, in the order of `Outcome.all`. -/
def labels (f : Facet) : List String :=
  Outcome.all.map f.label

/-- Reads a label of this facet as it is written. -/
def outcome? (f : Facet) (text : String) : Option Outcome :=
  Outcome.all.find? (f.label · == text)

theorem outcome?_label (f : Facet) (o : Outcome) : f.outcome? (f.label o) = some o := by
  cases f <;> cases o <;> decide

theorem ofLabel_label (f : Facet) (o : Outcome) : Outcome.ofLabel (f.label o) = .ok o := by
  cases f <;> cases o <;> rfl

end Facet

end UsagePolicy
