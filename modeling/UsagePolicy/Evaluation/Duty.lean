import UsagePolicy.Evaluation.Action
/-!
# Evaluation of duties

A duty exists if its constraints and the refinements of its parties are not violated, and is
fulfilled if its action was exercised. When it was not, consequences can take its place; the
consequences of a consequence are never evaluated.
-/

namespace UsagePolicy

/-- The relation by which a duty was reached. -/
inductive DutyRelation
  | duty
  | obligation
  | remedy
  | consequence
  deriving DecidableEq

namespace DutyRelation

def all : List DutyRelation := [duty, obligation, remedy, consequence]

def actionRelation : DutyRelation → ActionRelation
  | duty => .duty
  | obligation => .obligation
  | remedy => .remedy
  | consequence => .consequence

def name (r : DutyRelation) : String := r.actionRelation.name

end DutyRelation

/-- The parties of a rule or duty whose refinements are evaluated. -/
inductive Party
  | target
  | assignee
  deriving DecidableEq

namespace Party

def iri : Party → String
  | target => Vocabulary.target
  | assignee => Vocabulary.assignee

def name : Party → String
  | target => "target"
  | assignee => "assignee"

end Party

namespace Evaluator

/-- The refinements of all parties of one sort. The first party whose refinements fail decides;
without satisfied refinements there are none. -/
def partyRefinements (e : Evaluator) (party : Party) (subject : String) : Evaluation Outcome := do
  let survey ← .survey Outcome.isFailure (e.constraintSet .refinement)
    (e.graph.objects subject party.iri)
  match survey.stop with
  | some (_, outcome) => return outcome
  | none => return if .positive ∈ survey.passed then .positive else .notExisting

def dutyResult (relation : DutyRelation) (node : String) (outcome : Outcome)
    (reason : String) : Evaluation Outcome := do
  let status := Facet.duty.label outcome
  .result s!"Evaluation of {relation.name} instance '{node}', status = {status} ({reason})"
  return outcome

/-- A duty, given what becomes of it when its action was not exercised. -/
def dutyUnless (e : Evaluator) (relation : DutyRelation) (node : String)
    (unexercised : Evaluation Outcome) : Evaluation Outcome := do
  match ← e.constraintSet .constraint node with
  | .negative => dutyResult relation node .notExisting "constraints not satisfied"
  | .error => return .error
  | .positive | .notExisting =>
  match ← e.partyRefinements .target node with
  | .negative => dutyResult relation node .notExisting "target refinement not satisfied"
  | .error => return .error
  | .positive | .notExisting =>
  match ← e.partyRefinements .assignee node with
  | .negative => dutyResult relation node .notExisting "assignee refinement not satisfied"
  | .error => return .error
  | .positive | .notExisting =>
  match ← e.actionExercised relation.actionRelation node with
  | .positive => dutyResult relation node .positive "action exercised"
  | .negative => unexercised
  | .notExisting => dutyResult relation node .error "action does not exist"
  | .error => return .error

/-- A duty whose consequences do not count. -/
def dutyAlone (e : Evaluator) (relation : DutyRelation) (node : String) : Evaluation Outcome := do
  .step s!"Evaluation of {relation.name} instance '{node}' (consequences excluded)"
  e.dutyUnless relation node (dutyResult relation node .negative "action not exercised")

/-- The consequences of an unfulfilled duty. The first that fails decides; otherwise one has to be
fulfilled. -/
def consequences (e : Evaluator) (node : String) : Evaluation Outcome :=
  match e.graph.objects node Vocabulary.consequence with
  | [] => do
    .result s!"No consequences of '{node}', status = {Facet.duty.label .negative}"
    return .negative
  | nodes => do
    let survey ← .survey Outcome.isFailure (e.dutyAlone .consequence) nodes
    match survey.stop with
    | some (_, outcome) => return outcome
    | none => return if .positive ∈ survey.passed then .positive else .notExisting

/-- A duty whose consequences take its place when its action was not exercised. -/
def dutyWithConsequences (e : Evaluator) (relation : DutyRelation) (node : String) :
    Evaluation Outcome := do
  .step s!"Evaluation of {relation.name} instance '{node}' (consequences included)"
  e.dutyUnless relation node do
    let outcome ← e.consequences node
    dutyResult relation node outcome "action not exercised, consequences evaluated"

def duty (e : Evaluator) (relation : DutyRelation) (withConsequences : Bool) (node : String) :
    Evaluation Outcome :=
  if withConsequences then e.dutyWithConsequences relation node else e.dutyAlone relation node

/-- All duties that a rule has by a predicate. The first that fails decides. -/
def dutyChildren (e : Evaluator) (relation : DutyRelation) (predicate : String)
    (withConsequences : Bool) (rule : String) : Evaluation Outcome :=
  match e.graph.objects rule predicate with
  | [] => do
    let status := Facet.duty.label .notExisting
    .result s!"No {relation.name} instances of '{rule}', status = {status}"
    return .notExisting
  | nodes => do
    let survey ← .survey Outcome.isFailure (e.duty relation withConsequences) nodes
    match survey.stop with
    | some (node, outcome) =>
      let status := Facet.duty.label outcome
      .result (s!"Evaluation of all {relation.name} instances of '{rule}' stopped at '{node}', " ++
        s!"status = {status}")
      return outcome
    | none =>
      let status := Facet.duty.label .positive
      .result s!"Evaluation of all {relation.name} instances of '{rule}', status = {status}"
      return .positive

/-- The duties of a permission; their consequences count in the second round. -/
def allDuties (e : Evaluator) (rule : String) : Evaluation Outcome :=
  e.dutyChildren .duty Vocabulary.duty e.round.evaluatesConsequences rule

/-- The remedies of a prohibition; their consequences never count. -/
def allRemedies (e : Evaluator) (rule : String) : Evaluation Outcome :=
  e.dutyChildren .remedy Vocabulary.remedy false rule

end Evaluator

end UsagePolicy
