import UsagePolicy.Label
/-!
# Aborts

A rule whose gates are not open is not decided: its evaluation aborts, for a reason and at a node.
-/

namespace UsagePolicy

inductive AbortReason
  | constraintsNotSatisfied
  | targetRefinementNotSatisfied
  | assigneeRefinementNotSatisfied
  | actionRefinementNotSatisfied
  | missingAction
  | actionNotExisting
  deriving DecidableEq

namespace AbortReason

def all : List AbortReason :=
  [constraintsNotSatisfied, targetRefinementNotSatisfied, assigneeRefinementNotSatisfied,
    actionRefinementNotSatisfied, missingAction, actionNotExisting]

def code : AbortReason → String
  | constraintsNotSatisfied => "constraints_not_satisfied"
  | targetRefinementNotSatisfied => "target_refinement_not_satisfied"
  | assigneeRefinementNotSatisfied => "assignee_refinement_not_satisfied"
  | actionRefinementNotSatisfied => "action_refinement_not_satisfied"
  | missingAction => "missing_action"
  | actionNotExisting => "action_not_existing"

/-- Reads a code as it is written. -/
def ofCode (text : String) : Except UnknownLabel AbortReason :=
  match all.find? (·.code == text) with
  | some r => .ok r
  | none => .error ⟨.abortReason, text⟩

theorem mem_all (r : AbortReason) : r ∈ all := by
  cases r <;> decide

theorem ofCode_code (r : AbortReason) : ofCode r.code = .ok r := by
  cases r <;> rfl

end AbortReason

/-- Why a rule's evaluation stopped, and at which node. -/
structure Abort where
  reason : AbortReason
  subject : String
  deriving DecidableEq

end UsagePolicy
