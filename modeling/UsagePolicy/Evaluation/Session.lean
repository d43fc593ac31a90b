import UsagePolicy.Evaluation.Rule
/-!
# Sessions

One evaluator that is asked several times, with one journal for all answers.
-/

namespace UsagePolicy

inductive Request
  | constraintSet (relation : ConstraintRelation) (subject : String)
  | constraintNode (relation : ConstraintRelation) (node : String)
  | actionExercised (relation : ActionRelation) (subject : String)
  | duty (relation : DutyRelation) (withConsequences : Bool) (node : String)
  | allDuties (rule : String)
  | allRemedies (rule : String)
  | permission (rule : String)
  | prohibition (rule : String)
  | obligation (round : Round) (rule : String)

inductive Answer
  | outcome (facet : Facet) (outcome : Outcome)
  | ruling (ruling : Ruling)

def Evaluator.answer (e : Evaluator) : Request → Evaluation Answer
  | .constraintSet relation subject => .outcome .constraint <$> e.constraintSet relation subject
  | .constraintNode relation node => .outcome .constraint <$> e.constraintNode relation node
  | .actionExercised relation subject => .outcome .action <$> e.actionExercised relation subject
  | .duty relation withConsequences node =>
    .outcome .duty <$> e.duty relation withConsequences node
  | .allDuties rule => .outcome .duty <$> e.allDuties rule
  | .allRemedies rule => .outcome .duty <$> e.allRemedies rule
  | .permission rule => (.ruling ⟨.permission, ·⟩) <$> e.permission rule
  | .prohibition rule => (.ruling ⟨.prohibition, ·⟩) <$> e.prohibition rule
  | .obligation round rule => (.ruling ⟨.obligation, ·⟩) <$> e.obligation round rule

structure Session where
  evaluator : Evaluator
  journal : Journal

namespace Session

/-- A new evaluator that records its answers after entries of others. -/
def begin (e : Evaluator) (held : List TraceEntry) : Session :=
  ⟨e, .ofTrace held⟩

def trace (s : Session) : List TraceEntry := s.journal.trace

/-- Answers a request, and continues the journal. -/
def ask (s : Session) (r : Request) : Answer × Session :=
  let (a, j) := (s.evaluator.answer r).run s.evaluator.graph.allowance s.journal
  (a, { s with journal := j })

def askAll (s : Session) : List Request → List Answer × Session
  | [] => ([], s)
  | r :: rs =>
    let (a, s) := s.ask r
    let (as, s) := s.askAll rs
    (a :: as, s)

end Session

end UsagePolicy
