import UsagePolicy.Proofs.Evaluation.Prohibitions
import UsagePolicy.Proofs.Graph.Objects
/-!
# Ranges of verdicts

A rule can be decided, though never as non-existing, or aborted for a reason. Each kind of rule has
reasons of its own, and each reason names one node: the rule, its first party of a sort, or its
first action. A party that is named is there, since without parties there is nothing to refuse.
-/

namespace UsagePolicy

/-- The node that is named when a rule is aborted for a reason. -/
def AbortReason.Names (g : Graph) (rule subject : String) : AbortReason → Prop
  | constraintsNotSatisfied | missingAction => subject = rule
  | targetRefinementNotSatisfied => g.firstObject? rule Vocabulary.target = some subject
  | assigneeRefinementNotSatisfied => g.firstObject? rule Vocabulary.assignee = some subject
  | actionRefinementNotSatisfied | actionNotExisting =>
    g.firstObject? rule Vocabulary.action = some subject

/-- A decision other than a non-existing one, or an abort for one of some reasons. -/
inductive Verdict.Within (g : Graph) (rule : String) (reasons : List AbortReason) : Verdict → Prop
  | decided {outcome : Outcome} (h : outcome ≠ .notExisting) :
      Within g rule reasons (.decided outcome)
  | aborted {reason : AbortReason} {subject : String} (h : reason ∈ reasons)
      (hnames : reason.Names g rule subject) : Within g rule reasons (.aborted ⟨reason, subject⟩)

/-- The reasons for which closed gates abort a rule. -/
def AbortReason.ofGates : List AbortReason :=
  [constraintsNotSatisfied, targetRefinementNotSatisfied, assigneeRefinementNotSatisfied]

theorem Verdict.Within.mono {g : Graph} {rule : String} {reasons reasons' : List AbortReason}
    {verdict : Verdict} (h : verdict.Within g rule reasons) (hsub : reasons ⊆ reasons') :
    verdict.Within g rule reasons' := by
  cases h with
  | decided ho => exact .decided ho
  | aborted hreason hnames => exact .aborted (hsub hreason) hnames

theorem Party.names_abortReason {g : Graph} {rule subject : String} (party : Party)
    (h : g.firstObject? rule party.iri = some subject) :
    party.abortReason.Names g rule subject := by
  cases party with
  | target => exact h
  | assignee => exact h

theorem Party.abortReason_mem_ofGates (party : Party) :
    party.abortReason ∈ AbortReason.ofGates := by
  cases party <;> decide

namespace Evaluator

variable {e : Evaluator} {rule : String} {reasons : List AbortReason} {verdict : Verdict}

/-! ## Gates -/

/-- Refinements that fail are those of some party. -/
theorem exists_firstObject?_of_partyRefinements {party : Party}
    (h : (e.fresh (e.partyRefinements party rule)).value = .negative) :
    ∃ subject, e.graph.firstObject? rule party.iri = some subject := by
  rw [(e.comesTo_partyRefinements party rule).value_eq, decides_anyOutcome.eq_negative_iff] at h
  obtain ⟨before, node, after, hsplit, -, -⟩ := h
  rw [Graph.firstObject?_eq, hsplit]
  cases before with
  | nil => exact ⟨node, rfl⟩
  | cons first before => exact ⟨first, rfl⟩

theorem within_partyGate {party : Party}
    (h : (e.fresh (e.partyGate party rule)).value = some verdict) :
    verdict.Within e.graph rule AbortReason.ofGates := by
  rw [(e.comesTo_partyGate party rule).value_eq] at h
  cases houtcome : (e.fresh (e.partyRefinements party rule)).value with
  | positive =>
      rw [houtcome] at h
      cases h
  | negative =>
      rw [houtcome] at h
      obtain ⟨subject, hsubject⟩ := exists_firstObject?_of_partyRefinements houtcome
      obtain rfl := Option.some.inj h
      rw [hsubject]
      exact .aborted party.abortReason_mem_ofGates (party.names_abortReason hsubject)
  | notExisting =>
      rw [houtcome] at h
      cases h
  | error =>
      rw [houtcome] at h
      obtain rfl := Option.some.inj h
      exact .decided Outcome.noConfusion

theorem within_partyGates (h : (e.fresh (e.partyGates rule)).value = some verdict) :
    verdict.Within e.graph rule AbortReason.ofGates := by
  rw [(e.comesTo_partyGates rule).value_eq, Option.or_eq_some_iff] at h
  rcases h with htarget | ⟨-, hassignee⟩
  · exact within_partyGate htarget
  · exact within_partyGate hassignee

theorem within_gate (h : (e.fresh (e.gate rule)).value = some verdict) :
    verdict.Within e.graph rule AbortReason.ofGates := by
  rw [(e.comesTo_gate rule).value_eq] at h
  split at h
  · obtain rfl := Option.some.inj h
    exact .aborted List.mem_cons_self rfl
  · obtain rfl := Option.some.inj h
    exact .decided Outcome.noConfusion
  · exact within_partyGates h
  · exact within_partyGates h

/-! ## Behind the gates -/

theorem within_behindGates {continue_ : String → Evaluation Verdict}
    (hsettled : ∀ action, e.Settled (continue_ action))
    (hgates : .missingAction :: AbortReason.ofGates ⊆ reasons)
    (h : ∀ action, e.graph.firstObject? rule Vocabulary.action = some action →
      (e.fresh (continue_ action)).value.Within e.graph rule reasons) :
    (e.fresh (e.behindGates rule continue_)).value.Within e.graph rule reasons := by
  rw [(comesTo_behindGates hsettled).value_eq]
  obtain ⟨hmissing, hgates⟩ := List.cons_subset.1 hgates
  cases hgate : (e.fresh (e.gate rule)).value with
  | some verdict => exact (within_gate hgate).mono hgates
  | none =>
      cases haction : e.graph.firstObject? rule Vocabulary.action with
      | none => exact .aborted hmissing rfl
      | some action => exact h action haction

theorem within_ofDuties (outcome : Outcome) :
    (ofDuties outcome).Within e.graph rule reasons := by
  cases outcome with
  | positive => exact .decided Outcome.noConfusion
  | negative => exact .decided Outcome.noConfusion
  | notExisting => exact .decided Outcome.noConfusion
  | error => exact .decided Outcome.noConfusion

theorem within_permissionAction {action : String}
    (haction : e.graph.firstObject? rule Vocabulary.action = some action)
    (hreason : .actionRefinementNotSatisfied ∈ reasons) :
    (e.fresh (e.permissionAction rule action)).value.Within e.graph rule reasons := by
  rw [(e.comesTo_permissionAction rule action).value_eq]
  split
  · exact .aborted hreason haction
  · exact .decided Outcome.noConfusion
  · exact within_ofDuties _
  · exact within_ofDuties _

theorem within_prohibitionAction {action : String}
    (haction : e.graph.firstObject? rule Vocabulary.action = some action)
    (hreason : .actionNotExisting ∈ reasons) :
    (e.fresh (e.prohibitionAction rule action)).value.Within e.graph rule reasons := by
  rw [(e.comesTo_prohibitionAction rule action).value_eq]
  cases (e.fresh (e.actionExercised .prohibition rule)).value with
  | positive => exact within_ofDuties _
  | negative => exact .decided Outcome.noConfusion
  | notExisting => exact .aborted hreason haction
  | error => exact .decided Outcome.noConfusion

end Evaluator

/-- A permission is aborted for its gates, for a missing action or for the refinements of its
action, a prohibition for its gates, a missing action or an action that does not exist, and an
obligation is always decided. Permissions and prohibitions are never decided as non-existing. -/
theorem verdict_ranges (g : Graph) (oracle : Oracle) (round : Round) (rule : String) :
    (evaluateAs .permission (some g) oracle round rule).value.Within g rule
      [.constraintsNotSatisfied, .targetRefinementNotSatisfied, .assigneeRefinementNotSatisfied,
        .actionRefinementNotSatisfied, .missingAction] ∧
    (evaluateAs .prohibition (some g) oracle round rule).value.Within g rule
      [.constraintsNotSatisfied, .targetRefinementNotSatisfied, .assigneeRefinementNotSatisfied,
        .missingAction, .actionNotExisting] ∧
    ∀ stored : Round, ∃ outcome,
      let e : Evaluator := ⟨g, oracle, stored⟩
      (e.fresh (e.obligation round rule)).value = .decided outcome := by
  let e : Evaluator := ⟨g, oracle, round⟩
  refine ⟨?_, ?_, fun stored => ?_⟩
  · show (e.fresh (e.permission rule)).value.Within e.graph rule _
    rw [(e.comesTo_permission rule).value_eq]
    exact Evaluator.within_behindGates (e.settled_permissionAction rule) (by decide)
      fun action haction => Evaluator.within_permissionAction haction (by decide)
  · show (e.fresh (e.prohibition rule)).value.Within e.graph rule _
    rw [(e.comesTo_prohibition rule).value_eq]
    exact Evaluator.within_behindGates (e.settled_prohibitionAction rule) (by decide)
      fun action haction => Evaluator.within_prohibitionAction haction (by decide)
  · exact ⟨_, (Evaluator.comesTo_obligation ⟨g, oracle, stored⟩ round rule).value_eq⟩

end UsagePolicy
