import UsagePolicy.Evaluation.Evaluator
/-!
# Evaluation of constraints

A set of constraints is satisfied if all of them are, in order. An atomic constraint is answered by
the oracle; a logical one counts its satisfied operands. A logical constraint is open while its
operands are evaluated, and one that is met again while it is open is an error.
-/

namespace UsagePolicy

/-- The relation by which a constraint was reached. -/
inductive ConstraintRelation
  | constraint
  | refinement
  deriving DecidableEq

namespace ConstraintRelation

def all : List ConstraintRelation := [constraint, refinement]

def iri : ConstraintRelation → String
  | constraint => Vocabulary.constraint
  | refinement => Vocabulary.refinement

def category : ConstraintRelation → Category
  | constraint => .constraint
  | refinement => .refinement

def name (r : ConstraintRelation) : String := r.category.name

end ConstraintRelation

namespace Operator

/-- What the operands of a logical constraint make of it. -/
def outcome (op : Operator) (operands : List Outcome) : Outcome :=
  if op.holds (operands.count .positive) operands.length then .positive else .negative

def heading (op : Operator) (node : String) (total : Nat) : String :=
  s!"Evaluation of Logical Constraint '{node}' ({op.name}, {total} operands)"

def summary (op : Operator) (node : String) (operands : List Outcome) : String :=
  let satisfied := operands.count .positive
  let status := Facet.constraint.label (op.outcome operands)
  s!"Evaluation of Logical Constraint '{node}' " ++
    s!"({op.name}: {satisfied} of {operands.length} satisfied), status = {status}"

theorem outcome_eq_or (op : Operator) (operands : List Outcome) :
    op.outcome operands = .positive ∨ op.outcome operands = .negative := by
  unfold outcome
  split
  · exact .inl rfl
  · exact .inr rfl

theorem outcome_ne {o : Outcome} (hpositive : o ≠ .positive) (hnegative : o ≠ .negative)
    (op : Operator) (operands : List Outcome) : op.outcome operands ≠ o := by
  rcases op.outcome_eq_or operands with h | h
  · rw [h]
    exact hpositive.symm
  · rw [h]
    exact hnegative.symm

theorem outcome_eq_positive_iff {op : Operator} {operands : List Outcome} :
    op.outcome operands = .positive ↔
      op.holds (operands.count .positive) operands.length = true := by
  unfold outcome
  split <;> simp_all

end Operator

namespace Evaluator

/-- A leaf of the constraints: the oracle answers for it. -/
def atomicConstraint (e : Evaluator) (relation : ConstraintRelation) (node : String) :
    Evaluation Outcome :=
  match e.oracle.answer? node [relation.category] with
  | none => .fault (.oracleMiss node relation.category)
  | some (outcome, source) => do
    let status := Facet.constraint.label outcome
    .result (s!"Evaluation of Constraint instance '{node}' (a {relation.name}), " ++
      s!"status = {status} ({source.text})")
    return outcome

/-- A logical constraint, given how its operands are evaluated. -/
def logicalConstraint (node : String) (operator : Operator) (operands : List String)
    (evaluate : String → Evaluation Outcome) : Evaluation Outcome := do
  .step (operator.heading node operands.length)
  let outcomes ← operands.mapM evaluate
  .result (operator.summary node outcomes)
  return operator.outcome outcomes

/-- A constraint, given how deep constraints may nest from here on. -/
def constraintWithin (e : Evaluator) (relation : ConstraintRelation) :
    (allowance : Nat) → (node : String) → Evaluation Outcome
  | 0, _ => .exhausted
  | allowance + 1, node =>
    match e.graph.operands? node with
    | none => e.atomicConstraint relation node
    | some (operator, operands) => do
      if ← .isOpen node then .fault (.cyclicConstraint node)
      else
        .note (.opened node)
        let outcome ← logicalConstraint node operator operands
          (e.constraintWithin relation allowance)
        .note .closed
        return outcome

def constraintNode (e : Evaluator) (relation : ConstraintRelation) (node : String) :
    Evaluation Outcome := do
  e.constraintWithin relation (← .allowance) node

/-- All constraints or refinements of a node. The first that is not satisfied decides. -/
def constraintSet (e : Evaluator) (relation : ConstraintRelation) (subject : String) :
    Evaluation Outcome :=
  match e.graph.objects subject relation.iri with
  | [] => do
    let status := Facet.constraint.label .notExisting
    .result s!"No {relation.name} instances of '{subject}', status = {status}"
    return .notExisting
  | nodes => do
    let survey ← .survey (· != .positive) (e.constraintNode relation) nodes
    match survey.stop with
    | some (node, outcome) =>
      let status := Facet.constraint.label outcome
      .result (s!"Evaluation of all {relation.name}s of '{subject}' stopped at '{node}', " ++
        s!"status = {status}")
      return outcome
    | none =>
      let status := Facet.constraint.label .positive
      .result s!"Evaluation of all {relation.name}s of '{subject}', status = {status}"
      return .positive

end Evaluator

end UsagePolicy
