import UsagePolicy.Proofs.Evaluation.Lookups
import UsagePolicy.Proofs.Evaluation.Prohibitions
import UsagePolicy.Proofs.Graph.Members
/-!
# Values of constraints

An atomic constraint comes to what the oracle answers, and without an answer to an error. A logical
constraint counts the operands that are satisfied and does not tell the others apart, so whatever
they come to it is satisfied or not. Errors reach a set of constraints from its atomic members only.
-/

namespace UsagePolicy

namespace Evaluator

variable {e : Evaluator} {relation : ConstraintRelation} {node subject : String}

theorem Settled.value_run {α : Type} {x : Evaluation α} (h : e.Settled x) {j : Journal}
    (hj : j.openNodes = []) : (x.run e.graph.allowance j).1 = (e.fresh x).value := by
  rw [h.run_eq _ (Nat.le_refl _) j hj]

/-! ## Single constraints -/

theorem value_atomicConstraint (e : Evaluator) (relation : ConstraintRelation) (node : String) :
    ((e.atomicConstraint relation node).traced 0).value =
      e.oracle.outcome node [relation.category] := by
  unfold atomicConstraint Oracle.outcome
  cases e.oracle.answer? node [relation.category] with
  | none => rfl
  | some answer => rfl

theorem atomicConstraint_eq_positive_iff :
    ((e.atomicConstraint relation node).traced 0).value = .positive ↔
      (e.oracle.ofInstance node).or (e.oracle.ofCategory relation.category) = some .positive := by
  rw [value_atomicConstraint, Oracle.outcome_eq_iff Outcome.noConfusion, List.findSome?_singleton]

theorem value_constraintNode_atomic (h : e.graph.operands? node = none) :
    (e.fresh (e.constraintNode relation node)).value =
      e.oracle.outcome node [relation.category] := by
  rw [fresh_constraintNode, below_atomic h, value_atomicConstraint]

/-- Nothing that an operand comes to gets through but whether it is satisfied. -/
theorem decisive_constraintNode (relation : ConstraintRelation)
    (h : node ∈ e.graph.logicalNodes) :
    (e.fresh (e.constraintNode relation node)).value.Decisive := by
  cases hop : e.graph.operands? node with
  | none => exact absurd h (Graph.operands?_eq_none_iff_notMem.1 hop)
  | some r =>
      obtain ⟨operator, operands⟩ := r
      rw [fresh_constraintNode, below_logical hop List.not_mem_nil]
      exact operator.outcome_eq_or _

theorem constraintNode_eq_error_iff :
    (e.fresh (e.constraintNode relation node)).value = .error ↔
      node ∉ e.graph.logicalNodes ∧ e.oracle.outcome node [relation.category] = .error := by
  constructor
  · intro herror
    have hatomic : node ∉ e.graph.logicalNodes := by
      intro hlogical
      rcases decisive_constraintNode relation hlogical with h | h
      · exact Outcome.noConfusion (herror.symm.trans h)
      · exact Outcome.noConfusion (herror.symm.trans h)
    rw [value_constraintNode_atomic (Graph.operands?_eq_none_iff_notMem.2 hatomic)] at herror
    exact ⟨hatomic, herror⟩
  · rintro ⟨hatomic, herror⟩
    rw [value_constraintNode_atomic (Graph.operands?_eq_none_iff_notMem.2 hatomic), herror]

/-! ## Sets of constraints -/

theorem constraintSet_eq_positive_iff :
    (e.fresh (e.constraintSet relation subject)).value = .positive ↔
      e.graph.objects subject relation.iri ≠ [] ∧
        ∀ node ∈ e.graph.objects subject relation.iri,
          (e.fresh (e.constraintNode relation node)).value = .positive := by
  rw [(e.comesTo_constraintSet relation subject).value_eq, rowOutcome_eq_positive_iff rfl]
  simp only [bne_eq_false_iff_eq]

theorem constraintSet_eq_error_iff :
    (e.fresh (e.constraintSet relation subject)).value = .error ↔
      ∃ before node after, e.graph.objects subject relation.iri = before ++ node :: after ∧
        (∀ earlier ∈ before, (e.fresh (e.constraintNode relation earlier)).value = .positive) ∧
        (e.fresh (e.constraintNode relation node)).value = .error := by
  rw [(e.comesTo_constraintSet relation subject).value_eq,
    decides_rowOutcome.eq_failure_iff rfl (Outcome.not_passes_iff.2 rfl)]
  simp only [bne_eq_false_iff_eq]

end Evaluator

/-- Where nothing is open, a logical constraint is satisfied or not, whatever its operands come to.
A set of constraints comes to an error exactly if behind satisfied members there is an atomic one
for which the oracle answers with an error, or not at all. -/
theorem constraint_errors_atomic (g : Graph) (oracle : Oracle) (round : Round)
    (relation : ConstraintRelation) (j : Journal) (hj : j.openNodes = []) :
    let e : Evaluator := ⟨g, oracle, round⟩
    let node n := ((e.constraintNode relation n).run g.allowance j).1
    let set subject := ((e.constraintSet relation subject).run g.allowance j).1
    (∀ n, (∃ t ∈ g.toList, t.subject = n ∧ ∃ operator : Operator, t.predicate = operator.iri) →
      node n = .positive ∨ node n = .negative) ∧
    ∀ subject, set subject = .error ↔
      ∃ before n after, g.objects subject relation.iri = before ++ n :: after ∧
        (∀ earlier ∈ before, node earlier = .positive) ∧
        (∀ t ∈ g.toList, t.subject = n → ∀ operator : Operator, t.predicate ≠ operator.iri) ∧
        ((oracle.ofInstance n).or (oracle.ofCategory relation.category) = some .error ∨
          oracle.ofInstance n = none ∧ oracle.ofCategory relation.category = none) := by
  intro e node set
  have hnode : ∀ n, node n = (e.fresh (e.constraintNode relation n)).value :=
    fun n => (e.settled_constraintNode relation n).value_run hj
  have hset : ∀ subject, set subject = (e.fresh (e.constraintSet relation subject)).value :=
    fun subject => (e.settled_constraintSet relation subject).value_run hj
  constructor
  · intro n hlogical
    rw [hnode]
    exact Evaluator.decisive_constraintNode relation (Graph.mem_logicalNodes_iff.2 hlogical)
  · intro subject
    rw [hset, Evaluator.constraintSet_eq_error_iff]
    simp only [hnode, Evaluator.constraintNode_eq_error_iff, Graph.notMem_logicalNodes_iff,
      Oracle.outcome_eq_error_iff, List.findSome?_singleton]
    rfl

/-- A disjunction with two satisfied operands is satisfied, although the others are an error, an
unknown constraint, one that does not exist, and itself. The unknown constraint is an error once it
belongs to the set. -/
theorem constraint_errors_atomic_disjunction :
    let g : Graph := .ofList
      [⟨"urn:p", Vocabulary.constraint, "urn:l"⟩, ⟨"urn:l", Vocabulary.or, "urn:l"⟩,
        ⟨"urn:l", Vocabulary.or, "urn:error"⟩, ⟨"urn:l", Vocabulary.or, "urn:unknown"⟩,
        ⟨"urn:l", Vocabulary.or, "urn:none"⟩, ⟨"urn:l", Vocabulary.or, "urn:a"⟩,
        ⟨"urn:l", Vocabulary.or, "urn:b"⟩, ⟨"urn:p", Vocabulary.constraint, "urn:unknown"⟩]
    let oracle := ([("urn:error", .error), ("urn:none", .notExisting), ("urn:a", .positive),
      ("urn:b", .positive)].foldl (fun p (node, o) => p.setInstance node o) Presets.empty).oracle
    let e : Evaluator := ⟨g, oracle, .first⟩
    let j : Journal := [.closed, .opened "urn:l"]
    let node n := ((e.constraintNode .constraint n).run g.allowance j).1
    let set subject := ((e.constraintSet .constraint subject).run g.allowance j).1
    j.openNodes = [] ∧ (node "urn:l" = .positive ∨ node "urn:l" = .negative) ∧
      node "urn:l" ≠ .negative ∧ set "urn:p" = .error := by
  intro g oracle e j node set
  obtain ⟨hdecisive, hset⟩ := constraint_errors_atomic g oracle .first .constraint j rfl
  have hlogical : ∃ t ∈ g.toList, t.subject = "urn:l" ∧
      ∃ operator : Operator, t.predicate = operator.iri :=
    ⟨⟨"urn:l", Vocabulary.or, "urn:l"⟩, by decide +kernel, rfl, .or, rfl⟩
  have hobjects : g.objects "urn:p" Vocabulary.constraint = ["urn:l", "urn:unknown"] := by
    decide +kernel
  have hsatisfied : node "urn:l" = .positive := by decide +kernel
  have hatomic : ∀ t ∈ g.toList, t.subject = "urn:unknown" →
      ∀ operator : Operator, t.predicate ≠ operator.iri := by
    have hnone : ∀ t ∈ g.toList, t.subject ≠ "urn:unknown" := by decide +kernel
    exact fun t ht hsubject => absurd hsubject (hnone t ht)
  have hunknown : oracle.ofInstance "urn:unknown" = none ∧
      oracle.ofCategory ConstraintRelation.constraint.category = none :=
    ⟨by decide +kernel, rfl⟩
  -- From here on the graph is whatever has these properties, so that nothing computes with it.
  clear_value g oracle
  refine ⟨rfl, hdecisive "urn:l" hlogical, by rw [hsatisfied]; exact Outcome.noConfusion, ?_⟩
  exact (hset "urn:p").2
    ⟨["urn:l"], "urn:unknown", [], hobjects, by simpa using hsatisfied, hatomic, .inr hunknown⟩

end UsagePolicy
