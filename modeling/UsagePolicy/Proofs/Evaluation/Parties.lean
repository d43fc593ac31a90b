import UsagePolicy.Proofs.Evaluation.Ranges
/-!
# Parties that close a gate

A rule that is aborted for the refinements of a party has one whose refinements fail behind parties
whose refinements pass. The node that the abort names is the first party of the rule, which need not
be that one.
-/

namespace UsagePolicy

theorem Party.abortReason_injective : Function.Injective Party.abortReason := by
  rintro (_ | _) (_ | _) h
  · rfl
  · cases h
  · cases h
  · rfl

namespace Evaluator

variable {e : Evaluator} {rule subject : String} {reason : AbortReason} {party : Party}

/-- The first party of a sort that does not pass, and its refinements fail without an error. -/
def FirstFailing (e : Evaluator) (party : Party) (rule node : String) : Prop :=
  ∃ before after, e.graph.objects rule party.iri = before ++ node :: after ∧
    (∀ earlier ∈ before, (e.fresh (e.constraintSet .refinement earlier)).value.Passes) ∧
    (e.fresh (e.constraintSet .refinement node)).value = .negative

theorem FirstFailing.negative {node : String} (h : e.FirstFailing party rule node) :
    (e.fresh (e.constraintSet .refinement node)).value = .negative := by
  obtain ⟨-, -, -, -, hnegative⟩ := h
  exact hnegative

/-- If the first party of all fails, it is the first that fails. -/
theorem FirstFailing.eq_of_negative {node first : String} (h : e.FirstFailing party rule node)
    (hfirst : e.graph.firstObject? rule party.iri = some first)
    (hnegative : (e.fresh (e.constraintSet .refinement first)).value = .negative) :
    first = node := by
  obtain ⟨before, after, hsplit, hbefore, -⟩ := h
  rw [Graph.firstObject?_eq, hsplit] at hfirst
  cases before with
  | nil => exact (Option.some.inj hfirst).symm
  | cons earlier before =>
      obtain rfl := Option.some.inj hfirst
      have hpasses := hbefore _ List.mem_cons_self
      rw [hnegative] at hpasses
      exact absurd hpasses (Outcome.not_passes_iff.2 rfl)

theorem partyRefinements_eq_negative_iff :
    (e.fresh (e.partyRefinements party rule)).value = .negative ↔
      ∃ node, e.FirstFailing party rule node := by
  rw [(e.comesTo_partyRefinements party rule).value_eq, decides_anyOutcome.eq_negative_iff]
  exact exists_comm

/-! ## Aborts -/

theorem partyGate_eq_aborted
    (h : (e.fresh (e.partyGate party rule)).value = some (.aborted ⟨reason, subject⟩)) :
    reason = party.abortReason ∧ e.graph.firstObject? rule party.iri = some subject ∧
      ∃ node, e.FirstFailing party rule node := by
  rw [(e.comesTo_partyGate party rule).value_eq] at h
  split at h
  · next hnegative =>
    obtain ⟨first, hfirst⟩ := exists_firstObject?_of_partyRefinements hnegative
    rw [hfirst] at h
    cases h
    exact ⟨rfl, hfirst, partyRefinements_eq_negative_iff.1 hnegative⟩
  · cases h
  · cases h
  · cases h

/-- Which gate of a party was closed is told by the reason. -/
theorem gate_eq_aborted
    (h : (e.fresh (e.gate rule)).value = some (.aborted ⟨party.abortReason, subject⟩)) :
    (e.fresh (e.partyGate party rule)).value = some (.aborted ⟨party.abortReason, subject⟩) := by
  have hparties : (e.fresh (e.partyGates rule)).value =
      some (.aborted ⟨party.abortReason, subject⟩) := by
    rw [(e.comesTo_gate rule).value_eq] at h
    split at h
    · cases party <;> cases h
    · cases h
    · exact h
    · exact h
  rw [(e.comesTo_partyGates rule).value_eq, Option.or_eq_some_iff] at hparties
  have hgate : ∃ party', (e.fresh (e.partyGate party' rule)).value =
      some (.aborted ⟨party.abortReason, subject⟩) := by
    rcases hparties with htarget | ⟨-, hassignee⟩
    · exact ⟨.target, htarget⟩
    · exact ⟨.assignee, hassignee⟩
  obtain ⟨party', hgate⟩ := hgate
  obtain ⟨hreason, -⟩ := partyGate_eq_aborted hgate
  obtain rfl := Party.abortReason_injective hreason
  exact hgate

/-- Behind the gates a rule is aborted for other reasons. -/
theorem behindGates_eq_aborted {continue_ : String → Evaluation Verdict}
    {reasons : List AbortReason} (hsettled : ∀ action, e.Settled (continue_ action))
    (hcontinue : ∀ action, e.graph.firstObject? rule Vocabulary.action = some action →
      (e.fresh (continue_ action)).value.Within e.graph rule reasons)
    (hreason : reason ∉ AbortReason.missingAction :: reasons)
    (h : (e.fresh (e.behindGates rule continue_)).value = .aborted ⟨reason, subject⟩) :
    (e.fresh (e.gate rule)).value = some (.aborted ⟨reason, subject⟩) := by
  rw [List.mem_cons, not_or] at hreason
  rw [(comesTo_behindGates hsettled).value_eq] at h
  split at h
  · next verdict _ hgate => rw [hgate, h]
  · cases h
    exact absurd rfl hreason.1
  · next action _ haction =>
    have hwithin := hcontinue action haction
    rw [h] at hwithin
    cases hwithin with
    | aborted hmem _ => exact absurd hmem hreason.2

theorem rule_eq_aborted {kind : RuleKind}
    (h : (e.fresh (e.rule kind rule)).value = .aborted ⟨party.abortReason, subject⟩) :
    (e.fresh (e.gate rule)).value = some (.aborted ⟨party.abortReason, subject⟩) := by
  cases kind with
  | permission =>
      have h' := (e.comesTo_permission rule).value_eq.symm.trans h
      refine behindGates_eq_aborted (e.settled_permissionAction rule) (fun action haction =>
        within_permissionAction haction (List.mem_singleton_self _)) ?_ h'
      cases party <;> decide
  | prohibition =>
      have h' := (e.comesTo_prohibition rule).value_eq.symm.trans h
      refine behindGates_eq_aborted (e.settled_prohibitionAction rule) (fun action haction =>
        within_prohibitionAction haction (List.mem_singleton_self _)) ?_ h'
      cases party <;> decide
  | obligation =>
      have h' := (e.comesTo_obligation e.round rule).value_eq.symm.trans h
      cases h'

end Evaluator

/-- A rule that is aborted for the refinements of a party has a first one that fails, but what the
abort names is the first party of all. The two are the same if the party that is named fails. -/
theorem party_abort_named (g : Graph) (oracle : Oracle) (round : Round) (kind : RuleKind)
    (rule subject : String) (party : Party)
    (h : (evaluateAs kind (some g) oracle round rule).value =
      .aborted ⟨party.abortReason, subject⟩) :
    let e : Evaluator := ⟨g, oracle, round⟩
    g.firstObject? rule party.iri = some subject ∧
    ∃ failing, e.FirstFailing party rule failing ∧
      (subject = failing ↔ (e.fresh (e.constraintSet .refinement subject)).value = .negative) := by
  intro e
  have hgate : (e.fresh (e.gate rule)).value = some (.aborted ⟨party.abortReason, subject⟩) :=
    Evaluator.rule_eq_aborted h
  obtain ⟨-, hfirst, failing, hfailing⟩ :=
    Evaluator.partyGate_eq_aborted (Evaluator.gate_eq_aborted hgate)
  refine ⟨hfirst, failing, hfailing, ?_, hfailing.eq_of_negative hfirst⟩
  rintro rfl
  exact hfailing.negative

/-- Two assignees, of which the first is refined and passes. -/
theorem party_abort_named_passing :
    let g : Graph := .ofList
      [⟨"urn:p", Vocabulary.assignee, "urn:a1"⟩, ⟨"urn:p", Vocabulary.assignee, "urn:a2"⟩,
        ⟨"urn:a1", Vocabulary.refinement, "urn:r1"⟩, ⟨"urn:a2", Vocabulary.refinement, "urn:r2"⟩]
    let oracle := ((Presets.uniform .positive).setInstance "urn:r2" .negative).oracle
    let e : Evaluator := ⟨g, oracle, .first⟩
    (evaluateAs .prohibition (some g) oracle .first "urn:p").value =
      .aborted ⟨Party.abortReason .assignee, "urn:a1"⟩ ∧
    ∃ failing, e.FirstFailing .assignee "urn:p" failing ∧ "urn:a1" ≠ failing := by
  intro g oracle e
  have habort : (evaluateAs .prohibition (some g) oracle .first "urn:p").value =
      .aborted ⟨Party.abortReason .assignee, "urn:a1"⟩ := by decide +kernel
  have hpasses : (e.fresh (e.constraintSet .refinement "urn:a1")).value ≠ .negative := by
    decide +kernel
  obtain ⟨-, failing, hfailing, hnamed⟩ := party_abort_named g oracle .first _ _ _ _ habort
  exact ⟨habort, failing, hfailing, fun heq => hpasses (hnamed.1 heq)⟩

/-- A permission with two targets, of which only the second is refined: the abort names the first,
and the second is the one that fails. -/
theorem party_abort_names_unrefined :
    let g : Graph := .ofList
      [⟨"urn:p", Vocabulary.target, "urn:t1"⟩, ⟨"urn:p", Vocabulary.target, "urn:t2"⟩,
        ⟨"urn:t2", Vocabulary.refinement, "urn:r"⟩]
    let oracle := (Presets.empty.setInstance "urn:r" .negative).oracle
    let e : Evaluator := ⟨g, oracle, .first⟩
    (evaluateAs .permission (some g) oracle .first "urn:p").value =
      .aborted ⟨.targetRefinementNotSatisfied, "urn:t1"⟩ ∧
    e.FirstFailing .target "urn:p" "urn:t2" ∧ ¬e.FirstFailing .target "urn:p" "urn:t1" := by
  intro g oracle e
  have htargets : e.graph.objects "urn:p" Vocabulary.target = ["urn:t1", "urn:t2"] := by
    decide +kernel
  have hfirst : (e.fresh (e.constraintSet .refinement "urn:t1")).value = .notExisting := by
    decide +kernel
  have hsecond : (e.fresh (e.constraintSet .refinement "urn:t2")).value = .negative := by
    decide +kernel
  refine ⟨by decide +kernel, ⟨["urn:t1"], [], htargets, ?_, hsecond⟩, fun hfailing => ?_⟩
  · rintro _ (_ | ⟨_, ⟨⟩⟩)
    exact .inr hfirst
  · have hnegative := hfailing.negative
    rw [hfirst] at hnegative
    cases hnegative

end UsagePolicy
