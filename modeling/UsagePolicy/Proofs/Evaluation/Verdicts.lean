import UsagePolicy.Proofs.Evaluation.Values
/-!
# Verdicts

A rule is decided behind its gates only. Open gates leave the verdict to the action and to the
duties or remedies; closed gates never decide it, unless as an error.
-/

namespace UsagePolicy

/-- No decision, or that of an error. -/
def Verdict.Refuses (verdict : Verdict) : Prop :=
  ∀ outcome, verdict = .decided outcome → outcome = .error

theorem Verdict.refuses_aborted (abort : Abort) : (Verdict.aborted abort).Refuses := by
  rintro _ ⟨⟩

theorem Verdict.refuses_error : (Verdict.decided .error).Refuses := by
  rintro _ ⟨⟩
  rfl

/-- A gate that is open under a condition, and enforces a refusal without it. -/
structure Guards (condition : Prop) (verdict? : Option Verdict) : Prop where
  of_open : condition → verdict? = none
  of_closed : ¬ condition → ∃ verdict, verdict? = some verdict ∧ verdict.Refuses

namespace Guards

variable {p q : Prop} {verdict? verdict?' : Option Verdict}

theorem nothing : Guards True none :=
  ⟨fun _ => rfl, fun h => absurd trivial h⟩

theorem and_left (hq : q) (h : Guards p verdict?) : Guards (q ∧ p) verdict? := by
  constructor
  · rintro ⟨-, hp⟩
    exact h.of_open hp
  · intro hclosed
    apply h.of_closed
    intro hp
    exact hclosed ⟨hq, hp⟩

theorem closed {refusal : Verdict} (hp : ¬ p) (hr : refusal.Refuses) : Guards p (some refusal) :=
  ⟨fun hp' => absurd hp' hp, fun _ => ⟨refusal, rfl, hr⟩⟩

theorem outcome {refusal : Verdict} (hr : refusal.Refuses) (h : Guards p verdict?) (o : Outcome) :
    Guards (o.Passes ∧ p)
      (match o with
      | .negative => some refusal
      | .error => some (.decided .error)
      | .positive | .notExisting => verdict?) := by
  cases o with
  | positive => exact h.and_left (.inl rfl)
  | notExisting => exact h.and_left (.inr rfl)
  | negative =>
      apply closed _ hr
      rintro ⟨hpasses, -⟩
      exact Outcome.not_passes_iff.2 rfl hpasses
  | error =>
      apply closed _ Verdict.refuses_error
      rintro ⟨hpasses, -⟩
      exact Outcome.not_passes_iff.2 rfl hpasses

theorem or (h : Guards p verdict?) (h' : Guards q verdict?') :
    Guards (p ∧ q) (verdict?.or verdict?') := by
  constructor
  · rintro ⟨hp, hq⟩
    rw [h.of_open hp, h'.of_open hq]
    rfl
  · intro hclosed
    by_cases hp : p
    · rw [h.of_open hp]
      exact h'.of_closed fun hq => hclosed ⟨hp, hq⟩
    · obtain ⟨verdict, hv, hr⟩ := h.of_closed hp
      exact ⟨verdict, by rw [hv]; rfl, hr⟩

end Guards

namespace Evaluator

variable {e : Evaluator}

/-! ## Gates -/

/-- The refinements of all parties of one sort pass. -/
def PartyPasses (e : Evaluator) (party : Party) (subject : String) : Prop :=
  ∀ node ∈ e.graph.objects subject party.iri,
    (e.fresh (e.constraintSet .refinement node)).value.Passes

theorem partyRefinements_passes_iff {party : Party} {subject : String} :
    (e.fresh (e.partyRefinements party subject)).value.Passes ↔ e.PartyPasses party subject := by
  rw [(e.comesTo_partyRefinements party subject).value_eq]
  exact decides_anyOutcome.passes_iff

theorem comesTo_partyGate (e : Evaluator) (party : Party) (rule : String) :
    e.ComesTo (e.partyGate party rule)
      (match (e.fresh (e.partyRefinements party rule)).value with
      | .negative =>
        some (.aborted ⟨party.abortReason, (e.graph.firstObject? rule party.iri).getD rule⟩)
      | .error => some (.decided .error)
      | .positive | .notExisting => none) := by
  refine (e.settled_partyRefinements party rule).comesTo.bind ?_
  cases (e.fresh (e.partyRefinements party rule)).value with
  | positive => exact .pure _
  | negative => exact .pure _
  | notExisting => exact .pure _
  | error => exact .pure _

theorem guards_partyGate (e : Evaluator) (party : Party) (rule : String) :
    Guards (e.PartyPasses party rule) (e.fresh (e.partyGate party rule)).value := by
  rw [← partyRefinements_passes_iff, ← and_true (Outcome.Passes _),
    (e.comesTo_partyGate party rule).value_eq]
  exact Guards.nothing.outcome (Verdict.refuses_aborted _) _

theorem comesTo_partyGates (e : Evaluator) (rule : String) :
    e.ComesTo (e.partyGates rule)
      ((e.fresh (e.partyGate .target rule)).value.or
        (e.fresh (e.partyGate .assignee rule)).value) := by
  refine (e.settled_partyGate .target rule).comesTo.bind ?_
  cases (e.fresh (e.partyGate .target rule)).value with
  | none => exact (e.settled_partyGate .assignee rule).comesTo
  | some verdict => exact .pure _

theorem comesTo_gate (e : Evaluator) (rule : String) :
    e.ComesTo (e.gate rule)
      (match (e.fresh (e.constraintSet .constraint rule)).value with
      | .negative => some (.aborted ⟨.constraintsNotSatisfied, rule⟩)
      | .error => some (.decided .error)
      | .positive | .notExisting => (e.fresh (e.partyGates rule)).value) := by
  refine (e.settled_constraintSet .constraint rule).comesTo.bind ?_
  cases (e.fresh (e.constraintSet .constraint rule)).value with
  | positive => exact (e.settled_partyGates rule).comesTo
  | negative => exact .pure _
  | notExisting => exact (e.settled_partyGates rule).comesTo
  | error => exact .pure _

theorem guards_gate (e : Evaluator) (rule : String) :
    Guards ((e.fresh (e.constraintSet .constraint rule)).value.Passes ∧
      e.PartyPasses .target rule ∧ e.PartyPasses .assignee rule) (e.fresh (e.gate rule)).value := by
  have hparties : Guards (e.PartyPasses .target rule ∧ e.PartyPasses .assignee rule)
      (e.fresh (e.partyGates rule)).value := by
    rw [(e.comesTo_partyGates rule).value_eq]
    exact (e.guards_partyGate .target rule).or (e.guards_partyGate .assignee rule)
  rw [(e.comesTo_gate rule).value_eq]
  exact hparties.outcome (Verdict.refuses_aborted _) _

/-- The constraints of a rule pass, and the refinements of its parties and of its first action. -/
structure GatesOpen (e : Evaluator) (rule : String) : Prop where
  constraints : (e.fresh (e.constraintSet .constraint rule)).value.Passes
  targets : ∀ target ∈ e.graph.objects rule Vocabulary.target,
    (e.fresh (e.constraintSet .refinement target)).value.Passes
  assignees : ∀ assignee ∈ e.graph.objects rule Vocabulary.assignee,
    (e.fresh (e.constraintSet .refinement assignee)).value.Passes
  action : ∃ action, e.graph.firstObject? rule Vocabulary.action = some action ∧
    (e.fresh (e.constraintSet .refinement action)).value.Passes

/-! ## Behind the gates -/

variable {rule : String} {outcome : Outcome}

/-- Open gates, with something that is known of the action. -/
theorem gatesOpen_and_iff {p : String → Prop} :
    (((e.fresh (e.constraintSet .constraint rule)).value.Passes ∧
        e.PartyPasses .target rule ∧ e.PartyPasses .assignee rule) ∧
      ∃ action, e.graph.firstObject? rule Vocabulary.action = some action ∧
        (e.fresh (e.constraintSet .refinement action)).value.Passes ∧ p action) ↔
      e.GatesOpen rule ∧
        ∃ action, e.graph.firstObject? rule Vocabulary.action = some action ∧ p action := by
  constructor
  · rintro ⟨⟨hconstraints, htargets, hassignees⟩, action, haction, hrefinements, hp⟩
    exact ⟨⟨hconstraints, htargets, hassignees, action, haction, hrefinements⟩, action, haction, hp⟩
  · rintro ⟨hopen, action, haction, hp⟩
    obtain ⟨action', haction', hrefinements⟩ := hopen.action
    obtain rfl : action = action' := Option.some.inj (haction.symm.trans haction')
    exact ⟨⟨hopen.constraints, hopen.targets, hopen.assignees⟩, action, haction, hrefinements, hp⟩

theorem comesTo_behindGates {continue_ : String → Evaluation Verdict}
    (h : ∀ action, e.Settled (continue_ action)) :
    e.ComesTo (e.behindGates rule continue_)
      (match (e.fresh (e.gate rule)).value, e.graph.firstObject? rule Vocabulary.action with
      | some verdict, _ => verdict
      | none, none => .aborted ⟨.missingAction, rule⟩
      | none, some action => (e.fresh (continue_ action)).value) := by
  refine (e.settled_gate rule).comesTo.bind ?_
  cases (e.fresh (e.gate rule)).value with
  | some verdict => exact .pure _
  | none =>
      cases e.graph.firstObject? rule Vocabulary.action with
      | none => exact .record _ _ (.pure _)
      | some action => exact (h action).comesTo

/-- A decision that is no error is made behind open gates. -/
theorem behindGates_eq_decided_iff {continue_ : String → Evaluation Verdict}
    (h : ∀ action, e.Settled (continue_ action)) (ho : outcome ≠ .error) :
    (e.fresh (e.behindGates rule continue_)).value = .decided outcome ↔
      ((e.fresh (e.constraintSet .constraint rule)).value.Passes ∧
        e.PartyPasses .target rule ∧ e.PartyPasses .assignee rule) ∧
      ∃ action, e.graph.firstObject? rule Vocabulary.action = some action ∧
        (e.fresh (continue_ action)).value = .decided outcome := by
  have hguards := e.guards_gate rule
  rw [(comesTo_behindGates h).value_eq]
  by_cases hopen : (e.fresh (e.constraintSet .constraint rule)).value.Passes ∧
      e.PartyPasses .target rule ∧ e.PartyPasses .assignee rule
  · rw [hguards.of_open hopen]
    cases haction : e.graph.firstObject? rule Vocabulary.action with
    | none => simp
    | some action => simp [hopen]
  · obtain ⟨verdict, hverdict, hrefuses⟩ := hguards.of_closed hopen
    rw [hverdict]
    constructor
    · intro hdecided
      exact absurd (hrefuses outcome hdecided) ho
    · rintro ⟨hopen', -⟩
      exact absurd hopen' hopen

theorem comesTo_conclude (e : Evaluator) (kind : RuleKind) (rule : String) (verdict : Verdict) :
    e.ComesTo (conclude kind rule verdict) verdict := by
  cases verdict with
  | decided outcome => exact .record _ _ (.pure _)
  | aborted abort => exact .record _ _ (.pure _)

theorem comesTo_obligation (e : Evaluator) (round : Round) (rule : String) :
    e.ComesTo (e.obligation round rule)
      (.decided (e.fresh (e.duty .obligation round.evaluatesConsequences rule)).value) :=
  .record _ _ ((e.settled_duty _ _ _).comesTo.bind (e.comesTo_conclude _ _ _))

theorem ofDuties_eq_positive_iff : ofDuties outcome = .decided .positive ↔ outcome.Passes := by
  cases outcome <;> simp [ofDuties, Outcome.Passes]

theorem ofDuties_eq_negative_iff : ofDuties outcome = .decided .negative ↔ outcome = .negative := by
  cases outcome <;> simp [ofDuties]

/-! ## Permissions -/

theorem comesTo_permissionDuties (e : Evaluator) (rule : String) :
    e.ComesTo (e.permissionDuties rule) (ofDuties (e.fresh (e.allDuties rule)).value) := by
  have hduties : e.Settled (e.allDuties rule) := e.settled_dutyChildren _ _ _ _
  exact .record _ _ (hduties.comesTo.bind (.pure _))

theorem comesTo_permissionAction (e : Evaluator) (rule action : String) :
    e.ComesTo (e.permissionAction rule action)
      (match (e.fresh (e.constraintSet .refinement action)).value with
      | .negative => .aborted ⟨.actionRefinementNotSatisfied, action⟩
      | .error => .decided .error
      | .positive | .notExisting => ofDuties (e.fresh (e.allDuties rule)).value) := by
  refine (e.settled_constraintSet .refinement action).comesTo.bind ?_
  cases (e.fresh (e.constraintSet .refinement action)).value with
  | positive => exact e.comesTo_permissionDuties rule
  | negative => exact .pure _
  | notExisting => exact e.comesTo_permissionDuties rule
  | error => exact .pure _

theorem permissionAction_eq_decided_iff {action : String} (ho : outcome ≠ .error) :
    (e.fresh (e.permissionAction rule action)).value = .decided outcome ↔
      (e.fresh (e.constraintSet .refinement action)).value.Passes ∧
        ofDuties (e.fresh (e.allDuties rule)).value = .decided outcome := by
  rw [(e.comesTo_permissionAction rule action).value_eq]
  cases (e.fresh (e.constraintSet .refinement action)).value with
  | positive => simp [Outcome.Passes]
  | negative => simp [Outcome.Passes]
  | notExisting => simp [Outcome.Passes]
  | error => simp [Outcome.Passes, ho.symm]

theorem comesTo_permission (e : Evaluator) (rule : String) :
    e.ComesTo (e.permission rule)
      (e.fresh (e.behindGates rule (e.permissionAction rule))).value := by
  have hgates := settled_behindGates rule (e.settled_permissionAction rule)
  exact .record _ _ (hgates.comesTo.bind (e.comesTo_conclude _ _ _))

theorem permission_eq_decided_iff (ho : outcome ≠ .error) :
    (e.fresh (e.permission rule)).value = .decided outcome ↔
      e.GatesOpen rule ∧ ofDuties (e.fresh (e.allDuties rule)).value = .decided outcome := by
  rw [(e.comesTo_permission rule).value_eq,
    behindGates_eq_decided_iff (e.settled_permissionAction rule) ho]
  simp only [permissionAction_eq_decided_iff ho]
  rw [gatesOpen_and_iff]
  constructor
  · rintro ⟨hopen, _, _, hduties⟩
    exact ⟨hopen, hduties⟩
  · rintro ⟨hopen, hduties⟩
    obtain ⟨action, haction, -⟩ := hopen.action
    exact ⟨hopen, action, haction, hduties⟩

theorem permission_eq_positive_iff :
    (e.fresh (e.permission rule)).value = .decided .positive ↔
      e.GatesOpen rule ∧ (e.fresh (e.allDuties rule)).value.Passes := by
  rw [permission_eq_decided_iff Outcome.noConfusion, ofDuties_eq_positive_iff]

/-- Behind open gates each node of the rule is satisfied, if none can be non-existing. -/
theorem GatesOpen.positive (h : e.GatesOpen rule) (hexist : e.oracle.AnswersExist) :
    (∀ node ∈ e.graph.objects rule Vocabulary.constraint,
      (e.fresh (e.constraintNode .constraint node)).value = .positive) ∧
    ∀ subject, subject ∈ e.graph.objects rule Vocabulary.target ∨
        subject ∈ e.graph.objects rule Vocabulary.assignee ∨
        e.graph.firstObject? rule Vocabulary.action = some subject →
      ∀ node ∈ e.graph.objects subject Vocabulary.refinement,
        (e.fresh (e.constraintNode .refinement node)).value = .positive := by
  have hnodes := fun relation => constraintNode_ne_notExisting relation hexist
  refine ⟨positive_of_constraintSet_passes (hnodes .constraint) h.constraints, ?_⟩
  intro subject hsubject
  apply positive_of_constraintSet_passes (hnodes .refinement)
  rcases hsubject with htarget | hassignee | haction
  · exact h.targets subject htarget
  · exact h.assignees subject hassignee
  · obtain ⟨action, haction', hpasses⟩ := h.action
    rw [haction, Option.some_inj] at haction'
    rw [haction']
    exact hpasses

end Evaluator

/-- A permission is allowed if its gates are open and all duties pass, and not allowed if behind
open gates the first duty that does not pass is unfulfilled. -/
theorem permission_verdict (g : Graph) (oracle : Oracle) (round : Round) (rule : String) :
    let e : Evaluator := ⟨g, oracle, round⟩
    let verdict := (evaluateAs .permission (some g) oracle round rule).value
    let duties := g.objects rule Vocabulary.duty
    let duty node := (e.fresh (e.duty .duty (decide (round = .second)) node)).value
    (verdict = .decided .positive ↔ e.GatesOpen rule ∧ ∀ node ∈ duties, (duty node).Passes) ∧
    (verdict = .decided .negative ↔ e.GatesOpen rule ∧
      ∃ before node after, duties = before ++ node :: after ∧
        (∀ earlier ∈ before, (duty earlier).Passes) ∧ duty node = .negative) ∧
    (oracle.AnswersExist → verdict = .decided .positive →
      (∀ node ∈ g.objects rule Vocabulary.constraint,
        (e.fresh (e.constraintNode .constraint node)).value = .positive) ∧
      ∀ subject, subject ∈ g.objects rule Vocabulary.target ∨
          subject ∈ g.objects rule Vocabulary.assignee ∨
          g.firstObject? rule Vocabulary.action = some subject →
        ∀ node ∈ g.objects subject Vocabulary.refinement,
          (e.fresh (e.constraintNode .refinement node)).value = .positive) := by
  intro e verdict duties duty
  have hround : round.evaluatesConsequences = decide (round = .second) := by cases round <;> rfl
  have hduties : Evaluator.Decides (Evaluator.surveyOf Outcome.isFailure duty duties)
      (e.fresh (e.allDuties rule)).value := by
    have hvalue := (e.comesTo_dutyChildren .duty Vocabulary.duty round.evaluatesConsequences rule)
    rw [Evaluator.allDuties, hvalue.value_eq, hround]
    exact Evaluator.decides_rowOutcome
  have hpositive : verdict = .decided .positive ↔
      e.GatesOpen rule ∧ ∀ node ∈ duties, (duty node).Passes := by
    rw [← hduties.passes_iff, ← Evaluator.ofDuties_eq_positive_iff]
    exact Evaluator.permission_eq_decided_iff Outcome.noConfusion
  refine ⟨hpositive, ?_, ?_⟩
  · rw [← hduties.eq_negative_iff, ← Evaluator.ofDuties_eq_negative_iff]
    exact Evaluator.permission_eq_decided_iff Outcome.noConfusion
  · intro hexist hverdict
    exact (hpositive.1 hverdict).1.positive hexist

end UsagePolicy
