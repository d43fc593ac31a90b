import UsagePolicy.Evaluation.Constraint
/-!
# Evaluation of actions

Whether the action of a rule or duty was exercised. An action whose refinements are not satisfied
does not exist as the policy describes it; of the others the oracle knows.
-/

namespace UsagePolicy

/-- What an action belongs to. -/
inductive ActionRelation
  | permission
  | prohibition
  | duty
  | obligation
  | remedy
  | consequence
  deriving DecidableEq

namespace ActionRelation

def all : List ActionRelation :=
  [permission, prohibition, duty, obligation, remedy, consequence]

def name : ActionRelation → String
  | permission => "Permission"
  | prohibition => "Prohibition"
  | duty => "Duty"
  | obligation => "Obligation"
  | remedy => "Remedy"
  | consequence => "Consequence"

/-- The category of actions of this relation alone. -/
def category? : ActionRelation → Option Category
  | permission => none
  | prohibition => some .prohibitionAction
  | duty => some .dutyAction
  | obligation => some .obligationAction
  | remedy => some .remedyAction
  | consequence => some .consequenceAction

/-- The categories that are asked for a default, in order. -/
def categories (r : ActionRelation) : List Category :=
  r.category?.toList ++ [.action]

/-- The category that is named when no answer is found. -/
def leadingCategory (r : ActionRelation) : Category :=
  r.category?.getD .action

end ActionRelation

namespace Evaluator

/-- Whether the first action of a node was exercised. -/
def actionExercised (e : Evaluator) (relation : ActionRelation) (subject : String) :
    Evaluation Outcome :=
  match e.graph.firstObject? subject Vocabulary.action with
  | none => .fault (.missingReference subject (Vocabulary.compact Vocabulary.action))
  | some action => do
    .step s!"Evaluation of the refinements of Action '{action}' ({relation.name})"
    match ← e.constraintSet .refinement action with
    | .negative =>
      let status := Facet.action.label .notExisting
      .result (s!"Action '{action}' of {relation.name} '{subject}', status = {status} " ++
        "(refinement not satisfied)")
      return .notExisting
    | .error => return .error
    | .positive | .notExisting =>
      match e.oracle.answer? action relation.categories with
      | none => .fault (.oracleMiss action relation.leadingCategory)
      | some (outcome, source) =>
        let status := Facet.action.label outcome
        .result (s!"Action '{action}' of {relation.name} '{subject}', status = {status} " ++
          s!"({source.text})")
        return outcome

end Evaluator

end UsagePolicy
