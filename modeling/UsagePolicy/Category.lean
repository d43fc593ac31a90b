import UsagePolicy.Label
/-!
# Preset categories

The kinds of leaves for which a preset default can be given.
-/

namespace UsagePolicy

inductive Category
  | constraint
  | refinement
  | action
  | duty
  | consequence
  | prohibitionAction
  | dutyAction
  | obligationAction
  | remedyAction
  | consequenceAction
  deriving DecidableEq

namespace Category

def all : List Category :=
  [constraint, refinement, action, duty, consequence, prohibitionAction, dutyAction,
    obligationAction, remedyAction, consequenceAction]

def name : Category → String
  | constraint => "constraint"
  | refinement => "refinement"
  | action => "action"
  | duty => "duty"
  | consequence => "consequence"
  | prohibitionAction => "prohibitionAction"
  | dutyAction => "dutyAction"
  | obligationAction => "obligationAction"
  | remedyAction => "remedyAction"
  | consequenceAction => "consequenceAction"

/-- Reads a category's name as it is written. -/
def ofName (text : String) : Except UnknownLabel Category :=
  match all.find? (·.name == text) with
  | some c => .ok c
  | none => .error ⟨.category, text⟩

theorem mem_all (c : Category) : c ∈ all := by
  cases c <;> decide

theorem ofName_name (c : Category) : ofName c.name = .ok c := by
  cases c <;> rfl

end Category

end UsagePolicy
