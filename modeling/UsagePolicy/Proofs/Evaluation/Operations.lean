import UsagePolicy.Proofs.Evaluation.Coinciding
/-!
# Operations settle

With no node open, every operation of an evaluator settles at what it comes to on a new evaluator,
since it coincides with itself.
-/

namespace UsagePolicy

/-- Where nothing is open, the computation does what it does on a new evaluator. -/
def Evaluator.Settled {α : Type} (e : Evaluator) (x : Evaluation α) : Prop :=
  x.Settles e.graph e.graph.allowance [] (e.fresh x)

namespace Evaluator

variable {α : Type} {e : Evaluator}

theorem fresh_eq {x : Evaluation α} {t : Traced α}
    (h : x.Settles e.graph e.graph.allowance [] t) : e.fresh x = t :=
  h.traced_eq (Nat.le_refl _)

namespace Settled

theorem of_settles {x : Evaluation α} {t : Traced α}
    (h : x.Settles e.graph e.graph.allowance [] t) : e.Settled x := by
  rw [Settled, fresh_eq h]
  exact h

theorem pure (a : α) : e.Settled (Pure.pure a) :=
  of_settles (.pure a)

theorem record (kind : TraceKind) (message : String) :
    e.Settled (Evaluation.record kind message) :=
  of_settles (.record kind message)

theorem fault (f : EvaluationFault) : e.Settled (Evaluation.fault f) :=
  of_settles (.fault f)

theorem coincide {x : Evaluation α} (h : e.Settled x) : Coincide e e x x :=
  ⟨_, _, h, h, .same _⟩

/-- What coincides with itself settles. -/
theorem of_coincide {x : Evaluation α} (h : Coincide e e x x) : e.Settled x := by
  obtain ⟨t, -, hx, -⟩ := h
  exact of_settles hx

end Settled

/-! ## Constraints and actions -/

theorem fresh_atomicConstraint (e : Evaluator) (relation : ConstraintRelation) (node : String) :
    e.fresh (e.atomicConstraint relation node) = (e.atomicConstraint relation node).traced 0 :=
  fresh_eq (settles_atomicConstraint _ _ _)

theorem settled_constraintNode (e : Evaluator) (relation : ConstraintRelation) (node : String) :
    e.Settled (e.constraintNode relation node) :=
  .of_settles (e.settles_constraintNode relation node)

theorem fresh_constraintNode (e : Evaluator) (relation : ConstraintRelation) (node : String) :
    e.fresh (e.constraintNode relation node) = e.below relation [] node :=
  fresh_eq (e.settles_constraintNode relation node)

theorem settled_constraintSet (e : Evaluator) (relation : ConstraintRelation) (subject : String) :
    e.Settled (e.constraintSet relation subject) :=
  .of_coincide <| coincide_constraintSet rfl fun node _ =>
    (e.settled_constraintNode relation node).coincide

theorem settled_actionExercised (e : Evaluator) (relation : ActionRelation) (subject : String) :
    e.Settled (e.actionExercised relation subject) :=
  .of_coincide <| coincide_actionExercised rfl fun action _ =>
    ⟨(e.settled_constraintSet .refinement action).coincide, rfl⟩

/-! ## Duties -/

theorem settled_partyRefinements (e : Evaluator) (party : Party) (subject : String) :
    e.Settled (e.partyRefinements party subject) :=
  .of_coincide <| coincide_partyRefinements rfl fun node _ =>
    (e.settled_constraintSet .refinement node).coincide

theorem coincideAt_self (e : Evaluator) (node : String) : CoincideAt e e node where
  constraints := (e.settled_constraintSet .constraint node).coincide
  parties := fun party => (e.settled_partyRefinements party node).coincide
  action := fun relation => (e.settled_actionExercised relation node).coincide

theorem settled_dutyAlone (e : Evaluator) (relation : DutyRelation) (node : String) :
    e.Settled (e.dutyAlone relation node) :=
  .of_coincide ((e.coincideAt_self node).dutyAlone relation)

theorem settled_consequences (e : Evaluator) (node : String) :
    e.Settled (e.consequences node) :=
  .of_coincide <| coincide_consequences rfl fun n _ =>
    (e.settled_dutyAlone .consequence n).coincide

theorem settled_duty (e : Evaluator) (relation : DutyRelation) (withConsequences : Bool)
    (node : String) : e.Settled (e.duty relation withConsequences node) :=
  .of_coincide <| (e.coincideAt_self node).duty relation fun _ =>
    (e.settled_consequences node).coincide

theorem settled_dutyChildren (e : Evaluator) (relation : DutyRelation) (predicate : String)
    (withConsequences : Bool) (rule : String) :
    e.Settled (e.dutyChildren relation predicate withConsequences rule) :=
  .of_coincide <| coincide_dutyChildren rfl fun node _ =>
    (e.settled_duty relation withConsequences node).coincide

/-! ## Rules -/

theorem settled_partyGate (e : Evaluator) (party : Party) (rule : String) :
    e.Settled (e.partyGate party rule) :=
  .of_coincide ((e.coincideAt_self rule).partyGate party rfl)

theorem settled_partyGates (e : Evaluator) (rule : String) : e.Settled (e.partyGates rule) :=
  .of_coincide ((e.coincideAt_self rule).partyGates fun _ => rfl)

theorem settled_gate (e : Evaluator) (rule : String) : e.Settled (e.gate rule) :=
  .of_coincide ((e.coincideAt_self rule).gate fun _ => rfl)

theorem settled_behindGates (rule : String) {continue_ : String → Evaluation Verdict}
    (h : ∀ action, e.Settled (continue_ action)) : e.Settled (e.behindGates rule continue_) :=
  .of_coincide <| coincide_behindGates (e.settled_gate rule).coincide rfl fun action _ =>
    (h action).coincide

theorem settled_permissionAction (e : Evaluator) (rule action : String) :
    e.Settled (e.permissionAction rule action) :=
  .of_coincide <| coincide_permissionAction action rfl
    (e.settled_constraintSet .refinement action).coincide (e.settled_dutyChildren _ _ _ _).coincide

theorem settled_permission (e : Evaluator) (rule : String) : e.Settled (e.permission rule) :=
  .of_coincide <| coincide_permission rfl (e.settled_gate rule).coincide rfl
    (fun action _ => (e.settled_constraintSet .refinement action).coincide)
    (e.settled_dutyChildren _ _ _ _).coincide

theorem settled_prohibitionAction (e : Evaluator) (rule action : String) :
    e.Settled (e.prohibitionAction rule action) :=
  .of_coincide <| coincide_prohibitionAction action
    (e.settled_actionExercised .prohibition rule).coincide
    (e.settled_dutyChildren _ _ _ _).coincide

theorem settled_prohibition (e : Evaluator) (rule : String) : e.Settled (e.prohibition rule) :=
  .of_coincide <| coincide_prohibition (e.settled_gate rule).coincide rfl
    (e.settled_actionExercised .prohibition rule).coincide
    (e.settled_dutyChildren _ _ _ _).coincide

theorem settled_obligation (e : Evaluator) (round : Round) (rule : String) :
    e.Settled (e.obligation round rule) :=
  .of_coincide (coincide_obligation round (e.settled_duty _ _ _).coincide)

theorem settled_rule (e : Evaluator) (kind : RuleKind) (rule : String) :
    e.Settled (e.rule kind rule) := by
  cases kind with
  | permission => exact e.settled_permission rule
  | prohibition => exact e.settled_prohibition rule
  | obligation => exact e.settled_obligation e.round rule

theorem settled_classifiedRule (e : Evaluator) (rule : String) (kind : Option RuleKind) :
    e.Settled (e.classifiedRule rule kind) := by
  unfold classifiedRule
  split
  · exact .of_coincide (coincide_ruling _ (e.settled_rule _ rule).coincide)
  · exact .of_coincide (coincide_ruling _ (e.settled_rule _ rule).coincide)
  · exact .of_coincide ((CoincideUpTo.record _ _).bind fun _ => .pure _)

theorem settled_answer (e : Evaluator) (r : Request) : e.Settled (e.answer r) := by
  apply Settled.of_coincide
  cases r with
  | constraintSet => exact (e.settled_constraintSet _ _).coincide.map _
  | constraintNode => exact (e.settled_constraintNode _ _).coincide.map _
  | actionExercised => exact (e.settled_actionExercised _ _).coincide.map _
  | duty => exact (e.settled_duty _ _ _).coincide.map _
  | allDuties => exact (e.settled_dutyChildren _ _ _ _).coincide.map _
  | allRemedies => exact (e.settled_dutyChildren _ _ _ _).coincide.map _
  | permission => exact (e.settled_permission _).coincide.map _
  | prohibition => exact (e.settled_prohibition _).coincide.map _
  | obligation => exact (e.settled_obligation _ _).coincide.map _

end Evaluator

/-! ## Whole evaluations -/

/-- The evaluation of a rule opens each logical node at most once at a time, and no other nodes. So
the allowance for them and one node below them is never used up, and a larger one makes no
difference. -/
theorem evaluateRule_within_allowance (g : Graph) (oracle : Oracle) (round : Round) (rule : String)
    (kind : Option RuleKind) :
    ∃ answer journal,
      evaluateRule (some g) oracle round rule kind = ⟨answer, journal⟩ ∧
      (∀ allowance, g.logicalNodes.length + 1 ≤ allowance →
        (Evaluator.classifiedRule ⟨g, oracle, round⟩ rule kind).run allowance [] =
          (answer, journal)) ∧
      Event.exhausted ∉ journal ∧
      (∀ moment : Journal, moment <:+ journal →
        moment.openNodes.Nodup ∧ moment.openNodes ⊆ g.logicalNodes ∧
          moment.openNodes.length ≤ g.logicalNodes.length) ∧
      g.logicalNodes.Nodup ∧
      ∀ node, node ∈ g.logicalNodes ↔
        ∃ t ∈ g.toList, t.subject = node ∧ ∃ op : Operator, t.predicate = op.iri := by
  let e : Evaluator := ⟨g, oracle, round⟩
  let t := e.fresh (e.classifiedRule rule kind)
  have hsettled := e.settled_classifiedRule rule kind
  refine ⟨t.value, t.journal, rfl, ?_, hsettled.balanced.not_exhausted, ?_,
    g.nodup_logicalNodes, fun _ => Graph.mem_logicalNodes_iff⟩
  · intro allowance hle
    rw [hsettled.run_eq allowance hle [] rfl, List.append_nil]
  · intro moment hm
    have hnests := hsettled.balanced.nests g.nests_nil moment hm
    exact ⟨hnests.nodup, hnests.logical, hnests.length_le⟩

end UsagePolicy
