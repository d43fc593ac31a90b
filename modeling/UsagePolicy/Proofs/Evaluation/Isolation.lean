import Mathlib.Data.Set.Insert
import UsagePolicy.Proofs.Evaluation.Mirroring
/-!
# Isolation

An evaluation follows few relations, and follows them forward only. What it comes to is decided in
the region of nodes that they reach: evaluators that are alike there do the same, whatever else
their graphs hold.
-/

namespace UsagePolicy

namespace Vocabulary

/-- The relations that decide whether a rule or duty applies, and whether its action exists. -/
def conditions : List String :=
  [constraint, refinement, target, assignee, action] ++ nesting

/-- All relations that evaluations of rules follow. -/
def evaluated : List String :=
  [constraint, refinement, target, assignee, action, duty, remedy, consequence, or, and, xone,
    andSequence, first, rest]

end Vocabulary

namespace Evaluator

/-- The evaluators have the same oracle, and their graphs agree on these relations of a region. -/
structure Alike (predicates : List String) (region : Set String) (e e' : Evaluator) : Prop where
  graph : Graph.Agree predicates region e.graph e'.graph
  oracle : e'.oracle = e.oracle

namespace Alike

variable {predicates : List String} {region : Set String} {e e' : Evaluator}

theorem constraintNode (h : Alike predicates region e e') (hn : Vocabulary.nesting ⊆ predicates)
    (relation : ConstraintRelation) {node : String} (hs : node ∈ region) :
    Coincide e e' (e.constraintNode relation node) (e'.constraintNode relation node) := by
  refine coincide_constraintNode (below_congr ?_ ?_ ?_ hs)
  · exact fun n hregion => h.graph.operands?_eq hn hregion
  · exact fun n hregion _ _ hop => h.graph.operands?_mem hn hregion hop
  · exact fun n _ _ => by rw [h.oracle]

theorem mirrors (h : Alike predicates region e e') (hn : Vocabulary.nesting ⊆ predicates) :
    Mirrors Eq predicates region e e' where
  graph := h.graph
  node := fun relation hr s hs n hnode =>
    h.constraintNode hn relation (h.graph.closed s hs _ hr n hnode)
  answer := fun _ _ _ _ _ => by rw [h.oracle]

theorem rule (h : Alike Vocabulary.evaluated region e e') (hround : e'.round = e.round)
    (kind : RuleKind) {rule : String} (hs : rule ∈ region) :
    Coincide e e' (e.rule kind rule) (e'.rule kind rule) :=
  (h.mirrors (by decide)).rule (by decide) hround kind hs

end Alike

end Evaluator

/-! ## Whole evaluations -/

/-- The evaluation of a rule is decided by the triples that can be reached from it by relations
that are followed. -/
theorem evaluateRule_isolated (g g' : Graph) (oracle : Oracle) (round : Round) (rule : String)
    (kind : RuleKind) (region : Set String) (hrule : rule ∈ region)
    (hclosed : ∀ t ∈ g.toList,
      t.subject ∈ region → t.predicate ∈ Vocabulary.evaluated → t.object ∈ region)
    (hsame : ∀ s ∈ region,
      g'.toList.filter (fun t => t.subject = s ∧ t.predicate ∈ Vocabulary.evaluated) =
        g.toList.filter fun t => t.subject = s ∧ t.predicate ∈ Vocabulary.evaluated) :
    evaluateRule (some g') oracle round rule (some kind) =
      evaluateRule (some g) oracle round rule (some kind) := by
  let e : Evaluator := ⟨g, oracle, round⟩
  let e' : Evaluator := ⟨g', oracle, round⟩
  have halike : Evaluator.Alike Vocabulary.evaluated region e e' :=
    ⟨Graph.Agree.of_filter_eq hclosed hsame, rfl⟩
  have hcoincide := Evaluator.coincide_ruling "given" (halike.rule rfl kind hrule)
  exact hcoincide.fresh_eq

/-- A second rule that shares an action and a constraint with the first. -/
theorem evaluateRule_isolated_sharedAction :
    let g : Graph := .ofList
      [⟨"urn:p", Vocabulary.action, "urn:use"⟩, ⟨"urn:p", Vocabulary.constraint, "urn:c"⟩]
    let g' : Graph := .ofList
      [⟨"urn:q", Vocabulary.action, "urn:use"⟩, ⟨"urn:p", Vocabulary.action, "urn:use"⟩,
        ⟨"urn:p", Vocabulary.type, "urn:q"⟩, ⟨"urn:q", Vocabulary.constraint, "urn:c"⟩,
        ⟨"urn:p", Vocabulary.constraint, "urn:c"⟩]
    let region : Set String := {"urn:p", "urn:use", "urn:c"}
    "urn:p" ∈ region ∧
    (∀ t ∈ g.toList,
      t.subject ∈ region → t.predicate ∈ Vocabulary.evaluated → t.object ∈ region) ∧
    (∀ s ∈ region,
      g'.toList.filter (fun t => t.subject = s ∧ t.predicate ∈ Vocabulary.evaluated) =
        g.toList.filter fun t => t.subject = s ∧ t.predicate ∈ Vocabulary.evaluated) ∧
    evaluateRule (some g') (Profile.presets .permissive).oracle .first "urn:p" (some .permission) =
      evaluateRule (some g) (Profile.presets .permissive).oracle .first "urn:p"
        (some .permission) := by
  intro g g' region
  have hrule : "urn:p" ∈ region := .inl rfl
  have hclosed : ∀ t ∈ g.toList,
      t.subject ∈ region → t.predicate ∈ Vocabulary.evaluated → t.object ∈ region := by
    have hlist : g.toList = [⟨"urn:p", Vocabulary.action, "urn:use"⟩,
        ⟨"urn:p", Vocabulary.constraint, "urn:c"⟩] := by decide +kernel
    rw [hlist]
    simp [region]
  have hsame : ∀ s ∈ region,
      g'.toList.filter (fun t => t.subject = s ∧ t.predicate ∈ Vocabulary.evaluated) =
        g.toList.filter fun t => t.subject = s ∧ t.predicate ∈ Vocabulary.evaluated := by
    rintro s (rfl | rfl | rfl)
    · decide +kernel
    · decide +kernel
    · decide +kernel
  exact ⟨hrule, hclosed, hsame,
    evaluateRule_isolated g g' _ _ _ _ region hrule hclosed hsame⟩

end UsagePolicy
