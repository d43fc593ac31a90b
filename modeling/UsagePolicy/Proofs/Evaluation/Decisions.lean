import UsagePolicy.Proofs.Evaluation.Conclusions
import UsagePolicy.Proofs.Evaluation.Prohibitions
/-!
# Decisions

What a rule comes to in a conclusive run: it is aborted for the first reason that there is, and
otherwise decided, positively if its duties or remedies are discharged.
-/

namespace UsagePolicy

/-- Aborted if there is a reason, and for that reason. -/
def Gated (reason? : Option AbortReason) (verdict? : Option Verdict) : Prop :=
  match reason? with
  | some reason => ∃ subject, verdict? = some (.aborted ⟨reason, subject⟩)
  | none => verdict? = none

/-- Aborted if there is a reason, and for that reason; otherwise decided, positively under the
condition. -/
def Verdict.Meets (reason? : Option AbortReason) (condition : Prop) (verdict : Verdict) : Prop :=
  match reason? with
  | some reason => ∃ subject, verdict = .aborted ⟨reason, subject⟩
  | none => (∃ outcome, verdict = .decided outcome) ∧
      (verdict = .decided .positive ↔ condition)

namespace Gated

variable {reason? reason?' : Option AbortReason} {verdict : Verdict}

theorem eq_none (h : Gated reason? none) : reason? = none := by
  cases reason? with
  | none => rfl
  | some reason =>
      obtain ⟨_, hsubject⟩ := h
      cases hsubject

theorem or_of_none {verdict? : Option Verdict} (h : Gated reason? none)
    (h' : Gated reason?' verdict?) : Gated (reason?.or reason?') verdict? := by
  rwa [h.eq_none]

theorem or_of_some (h : Gated reason? (some verdict)) :
    Gated (reason?.or reason?') (some verdict) := by
  cases reason? with
  | none => cases h
  | some reason => exact h

theorem meets {condition : Prop} (h : Gated reason? (some verdict)) :
    verdict.Meets (reason?.or reason?') condition := by
  cases reason? with
  | none => cases h
  | some reason =>
      obtain ⟨subject, hsubject⟩ := h
      exact ⟨subject, Option.some.inj hsubject⟩

end Gated

namespace Evaluator

variable {e : Evaluator}

/-! ## Reasons -/

instance (relation : ConstraintRelation) (node : String) : Decidable (e.Holds relation node) :=
  inferInstanceAs (Decidable (_ = _))

instance (relation : ConstraintRelation) (subject : String) :
    Decidable (e.AllHold relation subject) :=
  inferInstanceAs (Decidable (∀ node ∈ _, _))

instance (party : Party) (subject : String) : Decidable (e.PartiesHold party subject) :=
  inferInstanceAs (Decidable (∀ node ∈ _, _))

def partyReason? (e : Evaluator) (party : Party) (rule : String) : Option AbortReason :=
  if e.PartiesHold party rule then none else some party.abortReason

/-- Why a rule does not apply, if it does not. -/
def gateReason? (e : Evaluator) (rule : String) : Option AbortReason :=
  if e.AllHold .constraint rule then
    (e.partyReason? .target rule).or (e.partyReason? .assignee rule)
  else some .constraintsNotSatisfied

/-- What is wrong with the action of a rule; `refused` is the reason if its refinements are not
satisfied. -/
def actionReason? (e : Evaluator) (rule : String) (refused : AbortReason) : Option AbortReason :=
  match e.graph.firstObject? rule Vocabulary.action with
  | none => some .missingAction
  | some action => if e.AllHold .refinement action then none else some refused

/-- Why a rule is aborted, if it is. -/
def reason? (e : Evaluator) (rule : String) (refused : AbortReason) : Option AbortReason :=
  (e.gateReason? rule).or (e.actionReason? rule refused)

/-! ## Rules -/

theorem concludes_partyGate (party : Party) (rule : String) :
    e.Concludes (e.partyGate party rule) (Gated (e.partyReason? party rule)) := by
  unfold partyReason?
  refine .gate (concludes_partyRefinements party rule) ?_ (.pure _) rfl ?_
  · refine .pure fun hclosed => ?_
    rw [if_neg hclosed]
    exact ⟨_, rfl⟩
  · refine .pure fun hopen => ?_
    rw [if_pos hopen]
    exact rfl

theorem concludes_partyGates (rule : String) :
    e.Concludes (e.partyGates rule)
      (Gated ((e.partyReason? .target rule).or (e.partyReason? .assignee rule))) := by
  refine (concludes_partyGate .target rule).bind fun verdict? _ => ?_
  cases verdict? with
  | some verdict => exact .pure fun htarget => htarget.or_of_some
  | none => exact (concludes_partyGate .assignee rule).mono fun _ h htarget => htarget.or_of_none h

theorem concludes_gate (rule : String) :
    e.Concludes (e.gate rule) (Gated (e.gateReason? rule)) := by
  unfold gateReason?
  refine .gate (concludes_constraintSet .constraint rule) ?_ (.pure _) rfl ?_
  · refine .pure fun hclosed => ?_
    rw [if_neg hclosed]
    exact ⟨_, rfl⟩
  · refine (concludes_partyGates rule).mono fun _ h hopen => ?_
    rwa [if_pos hopen]

theorem concludes_behindGates (rule : String) {refused : AbortReason} {condition : Prop}
    {continue_ : String → Evaluation Verdict}
    (h : ∀ action, e.graph.firstObject? rule Vocabulary.action = some action →
      e.Concludes (continue_ action)
        (Verdict.Meets (if e.AllHold .refinement action then none else some refused) condition)) :
    e.Concludes (e.behindGates rule continue_)
      (Verdict.Meets (e.reason? rule refused) condition) := by
  unfold reason? actionReason?
  refine (concludes_gate rule).bind fun verdict? _ => ?_
  cases verdict? with
  | some verdict => exact .pure fun hgate => hgate.meets
  | none =>
      cases haction : e.graph.firstObject? rule Vocabulary.action with
      | none => exact .record (.pure fun _ hgate => by rw [hgate.eq_none]; exact ⟨_, rfl⟩)
      | some action =>
          refine (h action haction).mono fun verdict hverdict hgate => ?_
          rwa [hgate.eq_none]

theorem meets_ofDuties {outcome : Outcome} {condition : Prop}
    (h : outcome.Passes ↔ condition) : (ofDuties outcome).Meets none condition := by
  refine ⟨?_, ?_⟩
  · cases outcome <;> exact ⟨_, rfl⟩
  · rw [ofDuties_eq_positive_iff, h]

theorem concludes_permissionAction (rule action : String) :
    e.Concludes (e.permissionAction rule action)
      (Verdict.Meets
        (if e.AllHold .refinement action then none else some .actionRefinementNotSatisfied)
        (e.AllDischarged .duty Vocabulary.duty e.round.evaluatesConsequences rule)) := by
  refine .gate (concludes_constraintSet .refinement action) ?_ (.pure _) rfl ?_
  · refine .pure fun hrefused => ?_
    rw [if_neg hrefused]
    exact ⟨_, rfl⟩
  · refine .record ((concludes_dutyChildren .duty _ _ rule).bind fun outcome _ => ?_)
    refine .pure fun houtcome _ hall => ?_
    rw [if_pos hall]
    exact meets_ofDuties houtcome

/-- A permission is allowed if its duties are discharged. -/
theorem concludes_permission (rule : String) :
    e.Concludes (e.permission rule)
      (Verdict.Meets (e.reason? rule .actionRefinementNotSatisfied)
        (e.AllDischarged .duty Vocabulary.duty e.round.evaluatesConsequences rule)) := by
  have hbehind := concludes_behindGates rule fun action _ =>
    e.concludes_permissionAction rule action
  exact .record ((hbehind.conclude _ _).mono fun _ h _ => h)

theorem concludes_prohibitionAction {rule action : String}
    (haction : e.graph.firstObject? rule Vocabulary.action = some action) :
    e.Concludes (e.prohibitionAction rule action)
      (Verdict.Meets (if e.AllHold .refinement action then none else some .actionNotExisting)
        (e.Answered rule .negative ∨ e.AllDischarged .remedy Vocabulary.remedy false rule)) := by
  have hanswered : e.Answered rule .negative ↔
      e.oracle.outcome action ActionRelation.prohibition.categories = .negative := by
    simp [Answered, haction]
  rw [hanswered]
  refine (concludes_actionExercised .prohibition rule).bind fun exercised _ => ?_
  cases exercised with
  | positive =>
      refine .record ((concludes_dutyChildren .remedy _ _ rule).bind fun outcome _ => ?_)
      refine .pure fun houtcome _ hexercised => ?_
      rcases hexercised.of_action haction with ⟨-, hne⟩ | ⟨hall, -, hanswer⟩
      · cases hne
      · rw [if_pos hall, ← hanswer]
        exact meets_ofDuties (by simpa using houtcome)
  | negative =>
      refine .pure fun hexercised => ?_
      rcases hexercised.of_action haction with ⟨-, hne⟩ | ⟨hall, -, hanswer⟩
      · cases hne
      · rw [if_pos hall, ← hanswer]
        exact ⟨⟨_, rfl⟩, by simp⟩
  | notExisting =>
      refine .pure fun hexercised => ?_
      rcases hexercised.of_action haction with ⟨hrefused, -⟩ | ⟨-, hdecisive, -⟩
      · rw [if_neg hrefused]
        exact ⟨_, rfl⟩
      · simp [Outcome.Decisive] at hdecisive
  | error =>
      refine .pure fun hexercised => ?_
      rcases hexercised.of_action haction with ⟨-, hne⟩ | ⟨-, hdecisive, -⟩
      · cases hne
      · simp [Outcome.Decisive] at hdecisive

/-- A prohibition is not violated if its action was not exercised, or its remedies are
discharged. -/
theorem concludes_prohibition (rule : String) :
    e.Concludes (e.prohibition rule)
      (Verdict.Meets (e.reason? rule .actionNotExisting)
        (e.Answered rule .negative ∨ e.AllDischarged .remedy Vocabulary.remedy false rule)) := by
  have hbehind := concludes_behindGates rule fun action
    (haction : e.graph.firstObject? rule Vocabulary.action = some action) =>
      concludes_prohibitionAction haction
  exact .record ((hbehind.conclude _ _).mono fun _ h _ => h)

end Evaluator

end UsagePolicy
