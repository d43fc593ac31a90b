import UsagePolicy.Evaluation
import UsagePolicy.Graph.Roles
import UsagePolicy.Oracle
import UsagePolicy.Round
/-!
# Evaluators

What every evaluation reads: a graph, an oracle and a round.
-/

namespace UsagePolicy

structure Evaluator where
  graph : Graph
  oracle : Oracle
  round : Round

/-- What a computation comes to on a new evaluator. -/
def Evaluator.fresh {α : Type} (e : Evaluator) (x : Evaluation α) : Traced α :=
  x.traced e.graph.allowance

/-- What evaluating a row of nodes came to: the outcomes up to the first that stops it, and that
outcome with its node. -/
structure Survey where
  passed : List Outcome
  stop : Option (String × Outcome)

/-- Evaluates nodes in order, up to the first whose outcome stops. -/
def Evaluation.survey (stops : Outcome → Bool) (evaluate : String → Evaluation Outcome) :
    List String → Evaluation Survey
  | [] => return ⟨[], none⟩
  | node :: nodes => do
    let outcome ← evaluate node
    if stops outcome then return ⟨[], some (node, outcome)⟩
    else
      let s ← survey stops evaluate nodes
      return ⟨outcome :: s.passed, s.stop⟩

/-- A negative outcome or an error: nothing after it can make up for it. -/
def Outcome.isFailure : Outcome → Bool
  | negative | error => true
  | positive | notExisting => false

end UsagePolicy
