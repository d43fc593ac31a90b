import UsagePolicy.Proofs.Evaluation.Cycles
import UsagePolicy.Proofs.Evaluation.Decisions
import UsagePolicy.Proofs.Graph.Reordering
/-!
# Policies in another order

The order of triples is the order in which constraints, parties and duties are met. A constraint
counts its operands, so it comes to the same in every order. What else is required says nothing of
an order either, so conclusive runs abort for the same reason and allow the same.
-/

namespace UsagePolicy

theorem Operator.outcome_perm (operator : Operator) {os os' : List Outcome}
    (h : os'.Perm os) : operator.outcome os' = operator.outcome os := by
  unfold Operator.outcome
  rw [h.count_eq, h.length_eq]

namespace Evaluator

variable {e e' : Evaluator}

/-- The second evaluator sees the same triples in another order. -/
structure Reorders (e e' : Evaluator) : Prop where
  graph : e.graph.Reordered e'.graph
  first : e.graph.Functional Vocabulary.first
  rest : e.graph.Functional Vocabulary.rest
  oracle : e'.oracle = e.oracle
  round : e'.round = e.round

namespace Reorders

variable {relation : ConstraintRelation}

theorem atomicConstraint_eq (h : Reorders e e') (node : String) :
    e'.atomicConstraint relation node = e.atomicConstraint relation node := by
  unfold atomicConstraint
  rw [h.oracle]

theorem value_below (h : Reorders e e') (nodes : List String) (node : String) :
    (e'.below relation nodes node).value = (e.below relation nodes node).value := by
  induction nodes, node using below.induct e with
  | case1 nodes node hop =>
      have hop' := h.graph.operands?_eq_none h.first h.rest hop
      rw [below_atomic hop, below_atomic hop', h.atomicConstraint_eq]
  | case2 nodes node operator operands hop hn =>
      obtain ⟨operands', hop', -⟩ := h.graph.operands?_eq_some h.first h.rest hop
      rw [below_open hop hn, below_open hop' hn]
  | case3 nodes node operator operands hop hn _ ih =>
      obtain ⟨operands', hop', hperm⟩ := h.graph.operands?_eq_some h.first h.rest hop
      rw [value_below_logical hop hn, value_below_logical hop' hn]
      simp only [ih]
      exact operator.outcome_perm (hperm.map _)

theorem value_constraintNode (h : Reorders e e') (node : String) :
    (e'.fresh (e'.constraintNode relation node)).value =
      (e.fresh (e.constraintNode relation node)).value := by
  rw [fresh_constraintNode, fresh_constraintNode, h.value_below]

/-! ## Requirements -/

theorem allHold_iff (h : Reorders e e') {subject : String} :
    e'.AllHold relation subject ↔ e.AllHold relation subject := by
  simp only [AllHold, Holds, h.graph.mem_objects_iff, h.value_constraintNode]

theorem partiesHold_iff (h : Reorders e e') {party : Party} {subject : String} :
    e'.PartiesHold party subject ↔ e.PartiesHold party subject := by
  simp only [PartiesHold, h.graph.mem_objects_iff, h.allHold_iff]

theorem applies_iff (h : Reorders e e') {node : String} : e'.Applies node ↔ e.Applies node := by
  constructor
  · rintro ⟨hconstraints, htargets, hassignees⟩
    exact ⟨h.allHold_iff.1 hconstraints, h.partiesHold_iff.1 htargets,
      h.partiesHold_iff.1 hassignees⟩
  · rintro ⟨hconstraints, htargets, hassignees⟩
    exact ⟨h.allHold_iff.2 hconstraints, h.partiesHold_iff.2 htargets,
      h.partiesHold_iff.2 hassignees⟩

section

variable (h : Reorders e e') (haction : e.graph.Functional Vocabulary.action)
include h haction

theorem discharged_iff {relation : DutyRelation} {node : String} {otherwise otherwise' : Prop}
    (hotherwise : otherwise' ↔ otherwise) :
    e'.Discharged relation node otherwise' ↔ e.Discharged relation node otherwise := by
  simp only [Discharged, h.applies_iff, h.graph.firstObject?_eq haction, h.allHold_iff, h.oracle,
    hotherwise]

theorem consequencesDischarged_iff {node : String} :
    e'.ConsequencesDischarged node ↔ e.ConsequencesDischarged node := by
  have hnonempty : e'.graph.objects node Vocabulary.consequence ≠ [] ↔
      e.graph.objects node Vocabulary.consequence ≠ [] := by
    rw [← List.length_pos_iff, ← List.length_pos_iff, (h.graph.objects_perm node _).length_eq]
  simp only [ConsequencesDischarged, hnonempty, h.graph.mem_objects_iff,
    h.discharged_iff haction Iff.rfl]

theorem dutyDischarged_iff {relation : DutyRelation} {withConsequences : Bool} {node : String} :
    e'.DutyDischarged relation withConsequences node ↔
      e.DutyDischarged relation withConsequences node :=
  h.discharged_iff haction (and_congr_right' (h.consequencesDischarged_iff haction))

theorem allDischarged_iff {relation : DutyRelation} {predicate : String}
    {withConsequences : Bool} {rule : String} :
    e'.AllDischarged relation predicate withConsequences rule ↔
      e.AllDischarged relation predicate withConsequences rule := by
  simp only [AllDischarged, h.graph.mem_objects_iff, h.dutyDischarged_iff haction]

theorem answered_iff {rule : String} {answer : Outcome} :
    e'.Answered rule answer ↔ e.Answered rule answer := by
  simp only [Answered, h.graph.firstObject?_eq haction, h.oracle]

theorem reason?_eq (rule : String) (refused : AbortReason) :
    e'.reason? rule refused = e.reason? rule refused := by
  simp only [reason?, gateReason?, partyReason?, actionReason?, h.allHold_iff, h.partiesHold_iff,
    h.graph.firstObject?_eq haction]

end

end Reorders

end Evaluator

/-- Aborted for the same reason, or both decided and both positively or both not. -/
structure Verdict.Accords (verdict verdict' : Verdict) : Prop where
  positive_iff : verdict' = .decided .positive ↔ verdict = .decided .positive
  aborted_iff : ∀ reason, (∃ subject, verdict' = .aborted ⟨reason, subject⟩) ↔
    ∃ subject, verdict = .aborted ⟨reason, subject⟩

theorem Verdict.Meets.accords {reason? : Option AbortReason} {condition condition' : Prop}
    {verdict verdict' : Verdict} (h : verdict.Meets reason? condition)
    (h' : verdict'.Meets reason? condition') (hcondition : condition' ↔ condition) :
    verdict.Accords verdict' := by
  cases reason? with
  | none =>
      obtain ⟨⟨outcome, rfl⟩, hpositive⟩ := h
      obtain ⟨⟨outcome', rfl⟩, hpositive'⟩ := h'
      refine ⟨?_, ?_⟩
      · rw [hpositive, hpositive', hcondition]
      · simp
  | some reason =>
      obtain ⟨subject, rfl⟩ := h
      obtain ⟨subject', rfl⟩ := h'
      refine ⟨?_, ?_⟩
      · simp
      · simp

/-- The order of triples decides nothing. Where no cell of a list has two items or two successors,
each constraint comes to the same in every order. Where moreover no node has two actions, conclusive
runs of a permission or prohibition accord. -/
theorem evaluation_reordered (g g' : Graph) (oracle : Oracle) (round : Round)
    (h : g.Reordered g') (hfirst : g.Functional Vocabulary.first)
    (hrest : g.Functional Vocabulary.rest) :
    let e : Evaluator := ⟨g, oracle, round⟩
    let e' : Evaluator := ⟨g', oracle, round⟩
    (∀ relation node, (e'.fresh (e'.constraintNode relation node)).value =
      (e.fresh (e.constraintNode relation node)).value) ∧
    (g.Functional Vocabulary.action → ∀ kind ∈ [RuleKind.permission, .prohibition], ∀ rule,
      let t := evaluateAs kind (some g) oracle round rule
      let t' := evaluateAs kind (some g') oracle round rule
      (∀ entry ∈ t.trace, oracle.Conclusive entry) →
      (∀ entry ∈ t'.trace, oracle.Conclusive entry) → t.value.Accords t'.value) := by
  intro e e'
  have hreorders : Evaluator.Reorders e e' := ⟨h, hfirst, hrest, rfl, rfl⟩
  refine ⟨fun relation node => hreorders.value_constraintNode node, ?_⟩
  intro haction kind hkind rule t t' ht ht'
  rcases List.mem_pair.1 hkind with rfl | rfl
  · have hmeets := (e.concludes_permission rule).holds ht
    have hmeets' := (e'.concludes_permission rule).holds ht'
    rw [hreorders.reason?_eq haction] at hmeets'
    exact hmeets.accords hmeets' (hreorders.allDischarged_iff haction)
  · have hmeets := (e.concludes_prohibition rule).holds ht
    have hmeets' := (e'.concludes_prohibition rule).holds ht'
    rw [hreorders.reason?_eq haction] at hmeets'
    exact hmeets.accords hmeets'
      (or_congr (hreorders.answered_iff haction) (hreorders.allDischarged_iff haction))

/-- A permission with a list of constraints and with two duties, an unfulfilled one and one without
an action. Which of them is met first decides how the permission fails, but not that it does. -/
theorem evaluation_reordered_twoDuties :
    let triples : List Triple :=
      [⟨"urn:p", Vocabulary.action, "urn:use"⟩, ⟨"urn:p", Vocabulary.constraint, "urn:c"⟩,
        ⟨"urn:c", Vocabulary.and, "_:l"⟩, ⟨"_:l", Vocabulary.first, "urn:c1"⟩,
        ⟨"_:l", Vocabulary.rest, "_:m"⟩, ⟨"_:m", Vocabulary.first, "urn:c2"⟩,
        ⟨"_:m", Vocabulary.rest, Vocabulary.nil⟩, ⟨"urn:p", Vocabulary.duty, "urn:d"⟩,
        ⟨"urn:d", Vocabulary.action, "urn:pay"⟩, ⟨"urn:p", Vocabulary.duty, "urn:e"⟩]
    let g : Graph := .ofList triples
    let g' : Graph := .ofList triples.reverse
    let oracle := ((Presets.uniform .positive).setInstance "urn:pay" .negative).oracle
    let e : Evaluator := ⟨g, oracle, .first⟩
    let e' : Evaluator := ⟨g', oracle, .first⟩
    let t := evaluateAs .permission (some g) oracle .first "urn:p"
    let t' := evaluateAs .permission (some g') oracle .first "urn:p"
    (e'.fresh (e'.constraintNode .constraint "urn:c")).value =
      (e.fresh (e.constraintNode .constraint "urn:c")).value ∧
    t.value = .decided .negative ∧ t'.value = .decided .error ∧ t.value.Accords t'.value := by
  intro triples g g' oracle e e' t t'
  have hreordered : g.Reordered g' := by decide +kernel
  have hfirst : g.Functional Vocabulary.first := by decide +kernel
  have hrest : g.Functional Vocabulary.rest := by decide +kernel
  have haction : g.Functional Vocabulary.action := by decide +kernel
  have hconclusive : ∀ entry, oracle.Conclusive entry := by
    refine Oracle.conclusive_of_decisive ?_ fun c => ⟨.positive, rfl, .inl rfl⟩
    intro node outcome hnode
    rw [Presets.oracle_ofInstance, Presets.instances_setInstance] at hnode
    split at hnode
    · cases hnode
      exact .inr rfl
    · simp [Presets.uniform] at hnode
  obtain ⟨hconstraints, haccords⟩ :=
    evaluation_reordered g g' oracle .first hreordered hfirst hrest
  refine ⟨hconstraints .constraint "urn:c", by decide +kernel, by decide +kernel, ?_⟩
  exact haccords haction .permission List.mem_cons_self "urn:p" (fun entry _ => hconclusive entry)
    fun entry _ => hconclusive entry

end UsagePolicy
