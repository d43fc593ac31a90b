import UsagePolicy.Proofs.Evaluation.Isolation
import UsagePolicy.Proofs.Graph.Members
/-!
# Leaves

An oracle is asked about actions, and about constraints that no operator makes logical. What it
would say of rules, duties, parties or logical constraints is never asked for, and neither are its
defaults for duties and consequences: oracles that differ in nothing else lead to the same
evaluation.
-/

namespace UsagePolicy

/-- The relations whose objects can be evaluated as constraints. -/
def Vocabulary.constraining : List String :=
  [constraint, refinement, or, and, xone, andSequence, first]

/-- An action, or a constraint that no operator makes logical. -/
inductive Graph.IsLeaf (g : Graph) : String → Prop
  | action {t : Triple} (ht : t ∈ g.toList) (hp : t.predicate = Vocabulary.action) :
      g.IsLeaf t.object
  | constraint {t : Triple} (ht : t ∈ g.toList) (hp : t.predicate ∈ Vocabulary.constraining)
      (hatomic : ∀ u ∈ g.toList, u.subject = t.object → ∀ op : Operator, u.predicate ≠ op.iri) :
      g.IsLeaf t.object

/-- The nodes that can be evaluated as constraints, logical ones included. -/
def Graph.constraintNodes (g : Graph) : Set String :=
  fun node => ∃ t ∈ g.toList, t.predicate ∈ Vocabulary.constraining ∧ t.object = node

theorem Operator.iri_mem_constraining (op : Operator) : op.iri ∈ Vocabulary.constraining := by
  cases op <;> decide

theorem ConstraintRelation.iri_mem_constraining (relation : ConstraintRelation) :
    relation.iri ∈ Vocabulary.constraining := by
  cases relation <;> decide

namespace Graph

variable {g : Graph} {node : String}

theorem mem_constraintNodes_of_objects {s p : String} (hp : p ∈ Vocabulary.constraining)
    (h : node ∈ g.objects s p) : node ∈ g.constraintNodes :=
  ⟨_, mem_objects.1 h, hp, rfl⟩

theorem mem_constraintNodes_of_operands {s child : String} {operator : Operator}
    {operands : List String} (h : g.operands? s = some (operator, operands))
    (hchild : child ∈ operands) : child ∈ g.constraintNodes := by
  rcases exists_of_mem_operands h hchild with hobject | ⟨cell, hitem⟩
  · exact mem_constraintNodes_of_objects operator.iri_mem_constraining hobject
  · exact mem_constraintNodes_of_objects (by decide) hitem

theorem isLeaf_of_operands? (hnode : node ∈ g.constraintNodes) (hop : g.operands? node = none) :
    g.IsLeaf node := by
  obtain ⟨t, ht, hp, rfl⟩ := hnode
  exact .constraint ht hp (notMem_logicalNodes_iff.1 (operands?_eq_none_iff_notMem.1 hop))

theorem isLeaf_of_action {s : String} (h : g.firstObject? s Vocabulary.action = some node) :
    g.IsLeaf node :=
  .action (t := ⟨s, Vocabulary.action, node⟩) (mem_objects.1 (mem_objects_of_firstObject? h)) rfl

end Graph

/-! ## Questions that are asked -/

/-- The oracles say the same of the leaves of a graph, and have the same defaults except for duties
and consequences. -/
structure Oracle.SameOnLeaves (g : Graph) (o o' : Oracle) : Prop where
  instances : ∀ node, g.IsLeaf node → o'.ofInstance node = o.ofInstance node
  defaults : ∀ c, c ≠ .duty → c ≠ .consequence → o'.ofCategory c = o.ofCategory c

theorem Oracle.SameOnLeaves.answer?_eq {g : Graph} {o o' : Oracle} {node : String}
    {categories : List Category} (h : SameOnLeaves g o o') (hnode : g.IsLeaf node)
    (hc : ∀ c ∈ categories, c ≠ .duty ∧ c ≠ .consequence) :
    o'.answer? node categories = o.answer? node categories := by
  have hdefaults :
      categories.findSome? (fun c => (o'.ofCategory c).map (·, AnswerSource.default c)) =
        categories.findSome? fun c => (o.ofCategory c).map (·, AnswerSource.default c) := by
    induction categories with
    | nil => rfl
    | cons c cs ih =>
        obtain ⟨hduty, hconsequence⟩ := hc c List.mem_cons_self
        rw [List.findSome?_cons, List.findSome?_cons, h.defaults c hduty hconsequence,
          ih fun c' hc' => hc c' (List.mem_cons_of_mem c hc')]
  rw [answer?, answer?, h.instances node hnode, hdefaults]

theorem ConstraintRelation.category_asked (relation : ConstraintRelation) :
    ∀ c ∈ [relation.category], c ≠ .duty ∧ c ≠ .consequence := by
  cases relation <;> decide

theorem ActionRelation.categories_asked (relation : ActionRelation) :
    ∀ c ∈ relation.categories, c ≠ .duty ∧ c ≠ .consequence := by
  cases relation <;> decide

/-! ## Evaluations -/

namespace Evaluator

/-- An evaluator of the same graph in the same round that asks another oracle. -/
def withOracle (e : Evaluator) (oracle : Oracle) : Evaluator :=
  { e with oracle }

section

variable {e : Evaluator} {oracle : Oracle} (h : e.oracle.SameOnLeaves e.graph oracle)
include h

theorem leaves_constraintNode (relation : ConstraintRelation) {node : String}
    (hnode : node ∈ e.graph.constraintNodes) :
    Coincide e (e.withOracle oracle) (e.constraintNode relation node)
      ((e.withOracle oracle).constraintNode relation node) := by
  refine coincide_constraintNode (below_congr (fun _ _ => rfl) ?_ ?_ hnode)
  · exact fun n _ operator operands hop child hchild =>
      Graph.mem_constraintNodes_of_operands hop hchild
  · exact fun n hn hop =>
      h.answer?_eq (Graph.isLeaf_of_operands? hn hop) relation.category_asked

theorem leaves_mirrors : Mirrors Eq Vocabulary.evaluated Set.univ e (e.withOracle oracle) where
  graph := .same _ _
  node := fun relation _ _ _ _ hnode => leaves_constraintNode h relation
    (Graph.mem_constraintNodes_of_objects relation.iri_mem_constraining hnode)
  answer := fun relation _ _ _ haction =>
    h.answer?_eq (Graph.isLeaf_of_action haction) relation.categories_asked

theorem leaves_classifiedRule (rule : String) (kind : Option RuleKind) :
    Coincide e (e.withOracle oracle) (e.classifiedRule rule kind)
      ((e.withOracle oracle).classifiedRule rule kind) :=
  (leaves_mirrors h).classifiedRule (by decide) rfl kind (Set.mem_univ rule) rfl

end

end Evaluator

/-- What an oracle says of nodes that are no leaves, and its defaults for duties and consequences,
have no effect on the evaluation of a rule, neither on what it comes to nor on its trace. -/
theorem evaluateRule_reads_leaves (g : Graph) (oracle oracle' : Oracle) (round : Round)
    (rule : String) (kind : Option RuleKind)
    (hinstances : ∀ node, g.IsLeaf node → oracle'.ofInstance node = oracle.ofInstance node)
    (hdefaults : ∀ c, c ≠ .duty → c ≠ .consequence → oracle'.ofCategory c = oracle.ofCategory c) :
    evaluateRule (some g) oracle' round rule kind =
      evaluateRule (some g) oracle round rule kind := by
  let e : Evaluator := ⟨g, oracle, round⟩
  have hsame : e.oracle.SameOnLeaves e.graph oracle' := ⟨hinstances, hdefaults⟩
  exact (Evaluator.leaves_classifiedRule hsame rule kind).fresh_eq

/-- The rule itself, its target, its duty and a logical constraint of it are said to be negative,
and so are duties by default. -/
theorem evaluateRule_reads_leaves_innerPresets :
    let g : Graph := .ofList
      [⟨"urn:p", Vocabulary.action, "urn:use"⟩, ⟨"urn:p", Vocabulary.target, "urn:t"⟩,
        ⟨"urn:p", Vocabulary.constraint, "urn:l"⟩, ⟨"urn:l", Vocabulary.and, "_:b0"⟩,
        ⟨"_:b0", Vocabulary.first, "urn:a"⟩, ⟨"_:b0", Vocabulary.rest, Vocabulary.nil⟩,
        ⟨"urn:p", Vocabulary.duty, "urn:d"⟩, ⟨"urn:d", Vocabulary.action, "urn:pay"⟩]
    let inner := ["urn:p", "urn:t", "urn:d", "urn:l"]
    let oracle := (Profile.presets .permissive).oracle
    let oracle' := (inner.foldl (fun p node => p.setInstance node .negative)
      ((Profile.presets .permissive).setDefault .duty .negative)).oracle
    (∀ node, g.IsLeaf node → oracle'.ofInstance node = oracle.ofInstance node) ∧
    (∀ c, c ≠ .duty → c ≠ .consequence → oracle'.ofCategory c = oracle.ofCategory c) ∧
    evaluateRule (some g) oracle' .second "urn:p" (some .permission) =
      evaluateRule (some g) oracle .second "urn:p" (some .permission) ∧
    oracle'.ofInstance "urn:l" = some .negative ∧
    (evaluateRule (some g) oracle' .second "urn:p" (some .permission)).value =
      .ok ⟨.permission, .decided .positive⟩ := by
  intro g inner oracle oracle'
  have hactions : ∀ t ∈ g.toList, t.predicate = Vocabulary.action →
      oracle'.ofInstance t.object = oracle.ofInstance t.object := by decide +kernel
  have hconstraints : ∀ t ∈ g.toList, t.predicate ∈ Vocabulary.constraining →
      (∀ u ∈ g.toList, u.subject = t.object → ∀ op ∈ Operator.probeOrder, u.predicate ≠ op.iri) →
        oracle'.ofInstance t.object = oracle.ofInstance t.object := by decide +kernel
  have hinstances : ∀ node, g.IsLeaf node → oracle'.ofInstance node = oracle.ofInstance node := by
    intro node hleaf
    cases hleaf with
    | action ht hp => exact hactions _ ht hp
    | constraint ht hp hatomic =>
        exact hconstraints _ ht hp fun u hu hsubject op _ => hatomic u hu hsubject op
  have hdefaults : ∀ c, c ≠ .duty → c ≠ .consequence →
      oracle'.ofCategory c = oracle.ofCategory c := by
    intro c hduty _
    exact if_neg hduty
  exact ⟨hinstances, hdefaults,
    evaluateRule_reads_leaves g oracle oracle' .second "urn:p" _ hinstances hdefaults,
    by decide +kernel, by decide +kernel⟩

end UsagePolicy
