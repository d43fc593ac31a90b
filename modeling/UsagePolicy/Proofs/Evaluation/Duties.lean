import UsagePolicy.Proofs.Evaluation.Values
/-!
# Values of duties

Conditions come first: an action whose refinements fail does not exist, and a duty whose conditions
fail is none. Behind them the oracle's answer decides about an action, and the action about a duty.
-/

namespace UsagePolicy

namespace Outcome

/-- An outcome behind a condition. -/
def conditioned (condition outcome : Outcome) : Outcome :=
  match condition with
  | negative => notExisting
  | error => error
  | positive | notExisting => outcome

/-- The outcome of a duty by that of its action. -/
def exercisedOr (action unexercised : Outcome) : Outcome :=
  match action with
  | positive => positive
  | negative => unexercised
  | notExisting | error => error

theorem conditioned_of_passes {condition : Outcome} (h : condition.Passes) (outcome : Outcome) :
    condition.conditioned outcome = outcome := by
  rcases h with rfl | rfl
  · rfl
  · rfl

theorem conditioned_eq_iff {condition outcome o : Outcome} (hexists : o ≠ .notExisting)
    (herror : o ≠ .error) :
    condition.conditioned outcome = o ↔ condition.Passes ∧ outcome = o := by
  cases condition with
  | positive => simp [conditioned, Passes]
  | negative => simp [conditioned, Passes, hexists.symm]
  | notExisting => simp [conditioned, Passes]
  | error => simp [conditioned, Passes, herror.symm]

end Outcome

/-- The answer for a node, or an error if there is none. -/
def Oracle.outcome (o : Oracle) (node : String) (categories : List Category) : Outcome :=
  ((o.answer? node categories).map Prod.fst).getD .error

namespace Evaluator

variable {e : Evaluator} {node : String} {outcome : Outcome}

theorem ComesTo.conditioned {x : Evaluation Outcome} {f : Outcome → Evaluation Outcome}
    (hx : e.Settled x) (hnegative : e.ComesTo (f .negative) .notExisting)
    (herror : e.ComesTo (f .error) .error) (hsame : f .notExisting = f .positive)
    (hpositive : e.ComesTo (f .positive) outcome) :
    e.ComesTo (x >>= f) ((e.fresh x).value.conditioned outcome) := by
  refine hx.comesTo.bind ?_
  cases (e.fresh x).value with
  | positive => exact hpositive
  | negative => exact hnegative
  | notExisting =>
      rw [hsame]
      exact hpositive
  | error => exact herror

/-! ## Actions -/

theorem comesTo_actionExercised (relation : ActionRelation) {subject action : String}
    (haction : e.graph.firstObject? subject Vocabulary.action = some action) :
    e.ComesTo (e.actionExercised relation subject)
      ((e.fresh (e.constraintSet .refinement action)).value.conditioned
        (e.oracle.outcome action relation.categories)) := by
  unfold actionExercised
  rw [haction]
  refine .record _ _ (.conditioned (e.settled_constraintSet .refinement action) ?_ (.pure _) rfl ?_)
  · exact .record _ _ (.pure _)
  · dsimp only
    unfold Oracle.outcome
    cases e.oracle.answer? action relation.categories with
    | none => exact (Settled.fault _).comesTo
    | some answer => exact .record _ _ (.pure _)

/-! ## Duties -/

/-- The outcome of a duty, given that of an unexercised one whose conditions pass. -/
def dutyOutcome (e : Evaluator) (relation : DutyRelation) (node : String)
    (unexercised : Outcome) : Outcome :=
  (e.fresh (e.constraintSet .constraint node)).value.conditioned <|
    (e.fresh (e.partyRefinements .target node)).value.conditioned <|
      (e.fresh (e.partyRefinements .assignee node)).value.conditioned <|
        (e.fresh (e.actionExercised relation.actionRelation node)).value.exercisedOr unexercised

/-- Behind conditions that pass a duty is decided by its action. -/
theorem dutyOutcome_of_passes
    (hconstraints : (e.fresh (e.constraintSet .constraint node)).value.Passes)
    (hparties : ∀ party, (e.fresh (e.partyRefinements party node)).value.Passes)
    (relation : DutyRelation) (unexercised : Outcome) :
    e.dutyOutcome relation node unexercised =
      (e.fresh (e.actionExercised relation.actionRelation node)).value.exercisedOr unexercised := by
  rw [dutyOutcome, Outcome.conditioned_of_passes hconstraints,
    Outcome.conditioned_of_passes (hparties .target),
    Outcome.conditioned_of_passes (hparties .assignee)]

theorem comesTo_dutyResult (e : Evaluator) (relation : DutyRelation) (node : String)
    (outcome : Outcome) (reason : String) :
    e.ComesTo (dutyResult relation node outcome reason) outcome :=
  .record _ _ (.pure _)

theorem comesTo_dutyUnless (relation : DutyRelation) (node : String)
    {unexercised : Evaluation Outcome} (h : e.ComesTo unexercised outcome) :
    e.ComesTo (e.dutyUnless relation node unexercised) (e.dutyOutcome relation node outcome) := by
  refine .conditioned (e.settled_constraintSet .constraint node) ?_ (.pure _) rfl ?_
  · exact e.comesTo_dutyResult _ _ _ _
  refine .conditioned (e.settled_partyRefinements .target node) ?_ (.pure _) rfl ?_
  · exact e.comesTo_dutyResult _ _ _ _
  refine .conditioned (e.settled_partyRefinements .assignee node) ?_ (.pure _) rfl ?_
  · exact e.comesTo_dutyResult _ _ _ _
  refine (e.settled_actionExercised relation.actionRelation node).comesTo.bind ?_
  cases (e.fresh (e.actionExercised relation.actionRelation node)).value with
  | positive => exact e.comesTo_dutyResult _ _ _ _
  | negative => exact h
  | notExisting => exact e.comesTo_dutyResult _ _ _ _
  | error => exact .pure _

theorem comesTo_dutyAlone (e : Evaluator) (relation : DutyRelation) (node : String) :
    e.ComesTo (e.dutyAlone relation node) (e.dutyOutcome relation node .negative) :=
  .record _ _ (comesTo_dutyUnless relation node (e.comesTo_dutyResult _ _ _ _))

/-- The outcome of consequences by their own. -/
def consequencesOutcome (v : String → Outcome) : List String → Outcome
  | [] => .negative
  | node :: nodes => anyOutcome Outcome.isFailure v (node :: nodes)

theorem comesTo_consequences (e : Evaluator) (node : String) :
    e.ComesTo (e.consequences node)
      (consequencesOutcome (fun n => (e.fresh (e.dutyAlone .consequence n)).value)
        (e.graph.objects node Vocabulary.consequence)) := by
  unfold consequences
  cases e.graph.objects node Vocabulary.consequence with
  | nil => exact .record _ _ (.pure _)
  | cons n ns =>
      refine (comesTo_survey (e.settled_dutyAlone .consequence) (n :: ns)).bind ?_
      rw [consequencesOutcome, anyOutcome]
      cases (surveyOf _ _ (n :: ns)).stop with
      | none => exact .pure _
      | some s => exact .pure _

theorem comesTo_dutyWithConsequences (e : Evaluator) (relation : DutyRelation) (node : String) :
    e.ComesTo (e.dutyWithConsequences relation node)
      (e.dutyOutcome relation node (e.fresh (e.consequences node)).value) := by
  refine .record _ _ (comesTo_dutyUnless relation node ?_)
  exact (e.settled_consequences node).comesTo.bind (e.comesTo_dutyResult _ _ _ _)

theorem comesTo_duty (e : Evaluator) (relation : DutyRelation) (withConsequences : Bool)
    (node : String) :
    e.ComesTo (e.duty relation withConsequences node)
      (e.dutyOutcome relation node
        (if withConsequences then (e.fresh (e.consequences node)).value else .negative)) := by
  cases withConsequences with
  | false => exact e.comesTo_dutyAlone relation node
  | true => exact e.comesTo_dutyWithConsequences relation node

end Evaluator

end UsagePolicy
