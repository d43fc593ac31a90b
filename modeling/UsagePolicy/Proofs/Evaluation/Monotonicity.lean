import UsagePolicy.Proofs.Evaluation.Constraints
import UsagePolicy.Proofs.Evaluation.Cycles
import UsagePolicy.Proofs.Evaluation.Leaves
/-!
# Satisfaction is monotone

More positive answers satisfy more operands. For all operators but the exclusive one more satisfied
operands are never worse, so where no exclusive operator can be met, a constraint that is satisfied
stays satisfied under an oracle that answers more constraints positively. Which node is cut off as
cyclic is decided by the graph alone, and is never satisfied.
-/

namespace UsagePolicy

open Relation

namespace Operator

theorem holds_mono {op : Operator} (hop : op ≠ .xone) {satisfied satisfied' total : Nat}
    (hle : satisfied ≤ satisfied') (htotal : satisfied' ≤ total)
    (h : op.holds satisfied total = true) : op.holds satisfied' total = true := by
  simp only [holds, Bool.and_eq_true, bne_iff_ne] at h ⊢
  refine ⟨h.1, ?_⟩
  cases op with
  | or =>
      have hmore : 1 < satisfied := of_decide_eq_true h.2
      exact decide_eq_true (by omega)
  | and =>
      have hall : satisfied = total := beq_iff_eq.1 h.2
      exact beq_iff_eq.2 (by omega)
  | xone => exact absurd rfl hop
  | andSequence =>
      have hall : satisfied = total := beq_iff_eq.1 h.2
      exact beq_iff_eq.2 (by omega)

theorem outcome_map_mono {op : Operator} (hop : op ≠ .xone) {operands : List String}
    {v v' : String → Outcome} (h : ∀ child ∈ operands, v child = .positive → v' child = .positive)
    (hpositive : op.outcome (operands.map v) = .positive) :
    op.outcome (operands.map v') = .positive := by
  have hcount : ∀ w : String → Outcome, (operands.map w).count .positive =
      operands.countP fun child => w child == .positive :=
    fun w => List.countP_map
  rw [outcome_eq_positive_iff, List.length_map, hcount] at hpositive ⊢
  refine holds_mono hop (List.countP_mono_left fun child hchild hv => ?_)
    List.countP_le_length hpositive
  exact beq_iff_eq.2 (h child hchild (beq_iff_eq.1 hv))

example : xone.outcome [.positive, .negative] = .positive ∧
    xone.outcome [.positive, .positive] = .negative := by decide

end Operator

/-! ## More positive answers -/

/-- From `start` on no exclusive operator can be met, and all atomic constraints that can be met and
are answered positively by the first oracle are so by the second one. -/
structure Oracle.Improves (g : Graph) (relation : ConstraintRelation) (o o' : Oracle)
    (start : String) : Prop where
  xone_free : ∀ node, ReflTransGen g.HasOperand start node →
    ∀ operands, g.operands? node ≠ some (.xone, operands)
  answers : ∀ node, ReflTransGen g.HasOperand start node → g.operands? node = none →
    (o.ofInstance node).or (o.ofCategory relation.category) = some .positive →
      (o'.ofInstance node).or (o'.ofCategory relation.category) = some .positive

namespace Oracle.Improves

variable {g : Graph} {relation : ConstraintRelation} {o o' : Oracle} {start : String}

theorem child {child : String} (h : Improves g relation o o' start)
    (hedge : g.HasOperand start child) : Improves g relation o o' child where
  xone_free := fun node hreach => h.xone_free node (hreach.head hedge)
  answers := fun node hreach => h.answers node (hreach.head hedge)

/-- It suffices to look at nodes whose operands are among them. -/
theorem of_region (region : List String)
    (hclosed : ∀ node ∈ region, ∀ r ∈ g.operands? node, r.1 ≠ .xone ∧ r.2 ⊆ region)
    (hanswers : ∀ node ∈ region,
      (o.ofInstance node).or (o.ofCategory relation.category) = some .positive →
        (o'.ofInstance node).or (o'.ofCategory relation.category) = some .positive)
    (hstart : start ∈ region) : Improves g relation o o' start := by
  have hregion : ∀ node, ReflTransGen g.HasOperand start node → node ∈ region := by
    intro node hreach
    induction hreach with
    | refl => exact hstart
    | tail _ hedge ih =>
        obtain ⟨operator, operands, hop, hchild⟩ := hedge
        exact (hclosed _ ih _ hop).2 hchild
  constructor
  · intro node hreach operands hop
    exact (hclosed node (hregion node hreach) _ hop).1 rfl
  · exact fun node hreach _ => hanswers node (hregion node hreach)

end Oracle.Improves

namespace Evaluator

variable {e : Evaluator} {oracle : Oracle} {relation : ConstraintRelation}
  {nodes : List String} {node subject : String}

theorem positive_below (h : Oracle.Improves e.graph relation e.oracle oracle node)
    (hpositive : (e.below relation nodes node).value = .positive) :
    ((e.withOracle oracle).below relation nodes node).value = .positive := by
  -- both recursions open the same nodes, so they are cut off at the same ones
  induction nodes, node using below.induct e with
  | case1 nodes node hop =>
      have hop' : (e.withOracle oracle).graph.operands? node = none := hop
      rw [below_atomic hop, atomicConstraint_eq_positive_iff] at hpositive
      rw [below_atomic hop', atomicConstraint_eq_positive_iff]
      exact h.answers node .refl hop hpositive
  | case2 nodes node operator operands hop hn =>
      rw [below_open hop hn] at hpositive
      exact Outcome.noConfusion hpositive
  | case3 nodes node operator operands hop hn _ ih =>
      have hop' : (e.withOracle oracle).graph.operands? node = some (operator, operands) := hop
      have hxone : operator ≠ .xone := by
        rintro rfl
        exact h.xone_free node .refl operands hop
      rw [value_below_logical hop hn] at hpositive
      rw [value_below_logical hop' hn]
      refine operator.outcome_map_mono hxone (fun child hchild => ?_) hpositive
      exact ih child (h.child ⟨operator, operands, hop, hchild⟩)

theorem positive_constraintNode (h : Oracle.Improves e.graph relation e.oracle oracle node)
    (hpositive : (e.fresh (e.constraintNode relation node)).value = .positive) :
    ((e.withOracle oracle).fresh ((e.withOracle oracle).constraintNode relation node)).value =
      .positive := by
  rw [fresh_constraintNode] at hpositive ⊢
  exact positive_below h hpositive

theorem positive_constraintSet
    (h : ∀ member ∈ e.graph.objects subject relation.iri,
      Oracle.Improves e.graph relation e.oracle oracle member)
    (hpositive : (e.fresh (e.constraintSet relation subject)).value = .positive) :
    ((e.withOracle oracle).fresh ((e.withOracle oracle).constraintSet relation subject)).value =
      .positive := by
  rw [constraintSet_eq_positive_iff] at hpositive ⊢
  obtain ⟨hne, hmembers⟩ := hpositive
  exact ⟨hne, fun member hmember =>
    positive_constraintNode (h member hmember) (hmembers member hmember)⟩

end Evaluator

/-- Where no exclusive operator can be met, constraints and sets of constraints that are satisfied
stay so if all atomic constraints below them that were answered positively still are. -/
theorem satisfaction_monotone (g : Graph) (oracle oracle' : Oracle) (round : Round)
    (relation : ConstraintRelation) :
    let e : Evaluator := ⟨g, oracle, round⟩
    let e' : Evaluator := ⟨g, oracle', round⟩
    (∀ start, oracle.Improves g relation oracle' start →
      (e.fresh (e.constraintNode relation start)).value = .positive →
      (e'.fresh (e'.constraintNode relation start)).value = .positive) ∧
    ∀ subject,
      (∀ member ∈ g.objects subject relation.iri, oracle.Improves g relation oracle' member) →
      (e.fresh (e.constraintSet relation subject)).value = .positive →
      (e'.fresh (e'.constraintSet relation subject)).value = .positive := by
  intro e e'
  constructor
  · intro start himproves
    exact Evaluator.positive_constraintNode (e := e) himproves
  · intro subject himproves
    exact Evaluator.positive_constraintSet (e := e) himproves

/-- A disjunction that has a conjunction and itself among its operands. The second oracle answers
positively by its default, and makes an error of an operand that was not satisfied before. -/
theorem satisfaction_monotone_cyclic :
    let g : Graph := .ofList
      [⟨"urn:p", Vocabulary.constraint, "urn:l"⟩, ⟨"urn:l", Vocabulary.or, "urn:l"⟩,
        ⟨"urn:l", Vocabulary.or, "urn:m"⟩, ⟨"urn:l", Vocabulary.or, "urn:a"⟩,
        ⟨"urn:l", Vocabulary.or, "urn:c"⟩, ⟨"urn:m", Vocabulary.and, "urn:a"⟩,
        ⟨"urn:m", Vocabulary.and, "urn:b"⟩]
    let oracle := ([("urn:a", .positive), ("urn:b", .positive), ("urn:c", .negative)].foldl
      (fun p (node, o) => p.setInstance node o) Presets.empty).oracle
    let oracle' := ((Presets.uniform .positive).setInstance "urn:c" .error).oracle
    let e : Evaluator := ⟨g, oracle, .first⟩
    let e' : Evaluator := ⟨g, oracle', .first⟩
    oracle.Improves g .constraint oracle' "urn:l" ∧
      (e.fresh (e.constraintNode .constraint "urn:l")).value = .positive ∧
      (e'.fresh (e'.constraintNode .constraint "urn:l")).value = .positive ∧
      (e.fresh (e.constraintSet .constraint "urn:p")).value = .positive ∧
      (e'.fresh (e'.constraintSet .constraint "urn:p")).value = .positive := by
  intro g oracle oracle' e e'
  have himproves : oracle.Improves g .constraint oracle' "urn:l" := by
    apply Oracle.Improves.of_region ["urn:l", "urn:m", "urn:a", "urn:b", "urn:c"]
    · decide +kernel
    · decide +kernel
    · decide
  have hmembers : ∀ member ∈ g.objects "urn:p" ConstraintRelation.constraint.iri,
      oracle.Improves g .constraint oracle' member := by
    have hobjects : g.objects "urn:p" ConstraintRelation.constraint.iri = ["urn:l"] := by
      decide +kernel
    rw [hobjects]
    simpa using himproves
  have hnode : (e.fresh (e.constraintNode .constraint "urn:l")).value = .positive := by
    decide +kernel
  have hset : (e.fresh (e.constraintSet .constraint "urn:p")).value = .positive := by
    decide +kernel
  obtain ⟨hnodes, hsets⟩ := satisfaction_monotone g oracle oracle' .first .constraint
  exact ⟨himproves, hnode, hnodes "urn:l" himproves hnode, hset, hsets "urn:p" hmembers hset⟩

end UsagePolicy
