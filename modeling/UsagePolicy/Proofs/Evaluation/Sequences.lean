import UsagePolicy.Proofs.Evaluation.Mirroring
import UsagePolicy.Proofs.Graph.Sequences
/-!
# Sequences

A sequence of constraints asks for the same as their conjunction. Replacing it changes no more than
the name of the operator in what is written about the node, so all evaluations of rules come to the
same by events of the same kinds.
-/

namespace UsagePolicy

/-- Both are entries of one kind, or neither is an entry. -/
def Event.SameKind (event event' : Event) : Prop :=
  event'.entry?.map (·.kind) = event.entry?.map (·.kind)

instance : Std.Refl Event.SameKind :=
  ⟨fun _ => rfl⟩

theorem Traced.Corresponds.kinds_eq {α : Type} {t t' : Traced α}
    (h : t.Corresponds Event.SameKind t') : t'.trace.map (·.kind) = t.trace.map (·.kind) := by
  have hkinds : ∀ j j' : Journal, List.Forall₂ Event.SameKind j j' →
      j'.filterMap (fun event => event.entry?.map (·.kind)) =
        j.filterMap fun event => event.entry?.map (·.kind) := by
    intro j j' hevents
    induction hevents with
    | nil => rfl
    | cons hevent _ ih => rw [List.filterMap_cons, List.filterMap_cons, hevent, ih]
  simp only [trace, Journal.trace, List.filterMap_reverse, List.map_reverse, List.map_filterMap]
  rw [hkinds _ _ h.events]

theorem Operator.outcome_asConjunction (op : Operator) (operands : List Outcome) :
    op.asConjunction.outcome operands = op.outcome operands := by
  rw [outcome, outcome, op.holds_asConjunction]

theorem Operator.corresponds_asConjunction (op : Operator) :
    op.Corresponds Event.SameKind op.asConjunction :=
  ⟨op.outcome_asConjunction, fun _ _ => rfl, fun _ _ => rfl⟩

namespace Evaluator

/-- The evaluator of a policy in which all sequences are conjunctions. -/
def withConjunctions (e : Evaluator) : Evaluator :=
  { e with graph := e.graph.withConjunctions }

variable {e : Evaluator} (h : e.graph.SequencesApart)
include h

theorem coincide_constraintNode_withConjunctions (relation : ConstraintRelation) (node : String) :
    CoincideUpTo Event.SameKind e e.withConjunctions (e.constraintNode relation node)
      (e.withConjunctions.constraintNode relation node) := by
  have hoperands : ∀ n, e.withConjunctions.graph.operands? n =
      (e.graph.operands? n).map fun r => (r.1.asConjunction, r.2) := fun _ => h.operands?_eq
  refine coincide_constraintNode (below_corresponds ?_ ?_ (Set.mem_univ node))
  · intro n _ hop
    rw [hoperands, hop]
    exact ⟨rfl, rfl⟩
  · intro n _ operator operands hop
    rw [hoperands, hop]
    exact ⟨fun _ _ => trivial, operator.asConjunction, rfl, operator.corresponds_asConjunction⟩

theorem mirrors_withConjunctions :
    Mirrors Event.SameKind Vocabulary.meeting Set.univ e e.withConjunctions where
  graph := h.agree (by decide)
  node := fun relation _ _ _ n _ => coincide_constraintNode_withConjunctions h relation n
  answer := fun _ _ _ _ _ => rfl

end Evaluator

/-- A sequence means a conjunction: with each sequence replaced in its place, every rule comes to
the same by entries of the same kinds. -/
theorem evaluateRule_withConjunctions (g : Graph) (oracle : Oracle) (round : Round) (rule : String)
    (kind : Option RuleKind) (h : g.SequencesApart) :
    let r := evaluateRule (some g) oracle round rule kind
    let r' := evaluateRule (some g.withConjunctions) oracle round rule kind
    g.withConjunctions.toList = g.toList.map Triple.asConjunction ∧
    r'.value = r.value ∧
    r'.trace.map (·.kind) = r.trace.map (·.kind) := by
  intro r r'
  let e : Evaluator := ⟨g, oracle, round⟩
  have hcoincide := (Evaluator.mirrors_withConjunctions (e := e) h).classifiedRule
    (List.Subset.refl _) rfl kind (Set.mem_univ rule) h.classify?_eq
  have hcorresponds : r.Corresponds Event.SameKind r' := hcoincide.fresh_corresponds
  exact ⟨h.toList_withConjunctions, hcorresponds.value_eq, hcorresponds.kinds_eq⟩

/-- A sequence that has itself as an operand, behind a disjunction of an empty list. -/
theorem evaluateRule_withConjunctions_cyclic :
    let g : Graph := .ofList
      [⟨"urn:p", Vocabulary.action, "urn:use"⟩, ⟨"urn:p", Vocabulary.constraint, "urn:l"⟩,
        ⟨"urn:l", Vocabulary.or, Vocabulary.nil⟩, ⟨"urn:l", Vocabulary.andSequence, "_:b0"⟩,
        ⟨"_:b0", Vocabulary.first, "urn:a"⟩, ⟨"_:b0", Vocabulary.rest, "_:b1"⟩,
        ⟨"_:b1", Vocabulary.first, "urn:l"⟩, ⟨"_:b1", Vocabulary.rest, Vocabulary.nil⟩]
    let oracle := (Presets.uniform .positive).oracle
    let r := evaluateRule (some g) oracle .first "urn:p" (some .permission)
    let r' := evaluateRule (some g.withConjunctions) oracle .first "urn:p" (some .permission)
    g.SequencesApart ∧
    g.withConjunctions.toList = g.toList.map Triple.asConjunction ∧
    r'.value = r.value ∧
    r'.trace.map (·.kind) = r.trace.map (·.kind) ∧
    r'.lines ≠ r.lines := by
  intro g oracle r r'
  have happart : g.SequencesApart := by decide +kernel
  obtain ⟨hlist, hvalue, hkinds⟩ :=
    evaluateRule_withConjunctions g oracle .first "urn:p" (some .permission) happart
  exact ⟨happart, hlist, hvalue, hkinds, by decide +kernel⟩

end UsagePolicy
