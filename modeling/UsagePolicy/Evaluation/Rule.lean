import UsagePolicy.Evaluation.Duty
import UsagePolicy.Graph.Roles
import UsagePolicy.Verdict
/-!
# Evaluation of rules

A rule's gates are its constraints and the refinements of its targets and assignees. If one is not
satisfied, the evaluation aborts; behind the gates the action, the duties and the remedies decide.
-/

namespace UsagePolicy

/-- Why a rule is aborted when the refinements of a party are not satisfied. -/
def Party.abortReason : Party → AbortReason
  | target => .targetRefinementNotSatisfied
  | assignee => .assigneeRefinementNotSatisfied

namespace Evaluator

def partyGate (e : Evaluator) (party : Party) (rule : String) : Evaluation (Option Verdict) := do
  match ← e.partyRefinements party rule with
  | .negative =>
    let subject := (e.graph.firstObject? rule party.iri).getD rule
    return some (.aborted ⟨party.abortReason, subject⟩)
  | .error => return some (.decided .error)
  | .positive | .notExisting => return none

/-- The targets are asked before the assignees. -/
def partyGates (e : Evaluator) (rule : String) : Evaluation (Option Verdict) := do
  match ← e.partyGate .target rule with
  | some verdict => return some verdict
  | none => e.partyGate .assignee rule

/-- The verdict that closed gates enforce. -/
def gate (e : Evaluator) (rule : String) : Evaluation (Option Verdict) := do
  match ← e.constraintSet .constraint rule with
  | .negative => return some (.aborted ⟨.constraintsNotSatisfied, rule⟩)
  | .error => return some (.decided .error)
  | .positive | .notExisting => e.partyGates rule

/-- Goes on with the first action of a rule behind its gates. -/
def behindGates (e : Evaluator) (rule : String) (continue_ : String → Evaluation Verdict) :
    Evaluation Verdict := do
  match ← e.gate rule with
  | some verdict => return verdict
  | none =>
  match e.graph.firstObject? rule Vocabulary.action with
  | none =>
    let relation := Vocabulary.compact Vocabulary.action
    .error s!"'{rule}' has no '{relation}' relation, the policy is invalid"
    return .aborted ⟨.missingAction, rule⟩
  | some action => continue_ action

def conclude (kind : RuleKind) (rule : String) (verdict : Verdict) : Evaluation Verdict := do
  match verdict with
  | .decided outcome =>
    let status := kind.facet.label outcome
    .result s!"Evaluation of the full {kind.title} instance '{rule}', status = {status}"
  | .aborted abort =>
    .result (s!"Evaluation of the {kind.title} instance '{rule}' aborted: " ++
      s!"{abort.reason.code} at '{abort.subject}'")
  return verdict

/-- Duties that are fulfilled, or are none, leave a rule positive. -/
def ofDuties : Outcome → Verdict
  | .positive | .notExisting => .decided .positive
  | .negative => .decided .negative
  | .error => .decided .error

def permissionDuties (e : Evaluator) (rule : String) : Evaluation Verdict := do
  .step s!"Evaluation of the duties of Permission '{rule}' (round {e.round.name})"
  return ofDuties (← e.allDuties rule)

/-- What becomes of a permission once its gates are open. -/
def permissionAction (e : Evaluator) (rule action : String) : Evaluation Verdict := do
  match ← e.constraintSet .refinement action with
  | .negative => return .aborted ⟨.actionRefinementNotSatisfied, action⟩
  | .error => return .decided .error
  | .positive | .notExisting => e.permissionDuties rule

def permission (e : Evaluator) (rule : String) : Evaluation Verdict := do
  .step s!"Evaluation of Permission instance '{rule}'"
  let verdict ← e.behindGates rule (e.permissionAction rule)
  conclude .permission rule verdict

def prohibitionRemedies (e : Evaluator) (rule : String) : Evaluation Verdict := do
  .step s!"Evaluation of the remedies of Prohibition '{rule}'"
  return ofDuties (← e.allRemedies rule)

/-- What becomes of a prohibition once its gates are open. -/
def prohibitionAction (e : Evaluator) (rule action : String) : Evaluation Verdict := do
  match ← e.actionExercised .prohibition rule with
  | .negative => return .decided .positive
  | .notExisting => return .aborted ⟨.actionNotExisting, action⟩
  | .error => return .decided .error
  | .positive => e.prohibitionRemedies rule

def prohibition (e : Evaluator) (rule : String) : Evaluation Verdict := do
  .step s!"Evaluation of Prohibition instance '{rule}'"
  let verdict ← e.behindGates rule (e.prohibitionAction rule)
  conclude .prohibition rule verdict

/-- An obligation is a duty of its own; its consequences count in the second round. -/
def obligation (e : Evaluator) (round : Round) (rule : String) : Evaluation Verdict := do
  .step s!"Evaluation of Obligation instance '{rule}' (round {round.name})"
  let outcome ← e.duty .obligation round.evaluatesConsequences rule
  conclude .obligation rule (.decided outcome)

/-- A rule as a rule of a given kind, obligations in the evaluator's own round. -/
def rule (e : Evaluator) (kind : RuleKind) (rule : String) : Evaluation Verdict :=
  match kind with
  | .permission => e.permission rule
  | .prohibition => e.prohibition rule
  | .obligation => e.obligation e.round rule

end Evaluator

/-- A rule of a known kind; without a graph it is decided as an error. -/
def evaluateAs (kind : RuleKind) (graph : Option Graph) (oracle : Oracle) (round : Round)
    (rule : String) : Traced Verdict :=
  match graph with
  | some graph =>
    let e : Evaluator := ⟨graph, oracle, round⟩
    e.fresh (e.rule kind rule)
  | none =>
    let refusal : Evaluation Verdict := do
      .error s!"{kind.title}: {EvaluationFault.missingGraph.message}"
      return .decided .error
    refusal.traced 0

/-- A rule that cannot be evaluated at all. -/
def EvaluationFault.refuse (fault : EvaluationFault) :
    Evaluation (Except EvaluationFault Ruling) := do
  .error fault.message
  return .error fault

namespace Evaluator

/-- A rule of a known kind; `source` tells where the kind is known from. -/
def ruling (e : Evaluator) (source : String) (kind : RuleKind) (rule : String) :
    Evaluation (Except EvaluationFault Ruling) := do
  .result s!"{source} sub-class = {kind.name}"
  let verdict ← e.rule kind rule
  return .ok ⟨kind, verdict⟩

/-- A rule, of the given kind or else of the kind that the graph shows. -/
def classifiedRule (e : Evaluator) (rule : String) (kind : Option RuleKind) :
    Evaluation (Except EvaluationFault Ruling) :=
  match kind, e.graph.classify? rule with
  | some kind, _ => e.ruling "given" kind rule
  | none, some kind => e.ruling "inferred" kind rule
  | none, none => (EvaluationFault.unclassifiedRule rule).refuse

end Evaluator

/-- A rule on a new evaluator; without a graph there is none, and nothing can be evaluated. -/
def evaluateRule (graph : Option Graph) (oracle : Oracle) (round : Round) (rule : String)
    (kind : Option RuleKind) : Traced (Except EvaluationFault Ruling) :=
  match graph with
  | some graph =>
    let e : Evaluator := ⟨graph, oracle, round⟩
    e.fresh (e.classifiedRule rule kind)
  | none => EvaluationFault.missingGraph.refuse.traced 0

end UsagePolicy
