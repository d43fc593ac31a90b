import UsagePolicy.Graph.Lists
import UsagePolicy.Operator
import UsagePolicy.RuleKind
import UsagePolicy.Vocabulary
/-!
# Roles of nodes

A node is logical if it has a relation of some operator. The first operator with operands counts;
when none has any, the first relation counts, without operands.

A rule's kind is that of the first relation by which some node refers to it, or else that of its
class. A duty that is evaluated on its own is an obligation.
-/

namespace UsagePolicy.Graph

/-- The operators whose relation a node has, in probing order. -/
def operators (g : Graph) (node : String) : List Operator :=
  Operator.probeOrder.filter fun op => (g.firstObject? node op.iri).isSome

def operands? (g : Graph) (node : String) : Option (Operator × List String) :=
  match (g.operators node).find? fun op => !(g.members node op.iri).isEmpty with
  | some op => some (op, g.members node op.iri)
  | none => (g.operators node).head?.map (·, [])

/-- The nodes that have a relation of some operator. -/
def logicalNodes (g : Graph) : List String :=
  ((g.toList.filter fun t => Operator.probeOrder.any (·.iri == t.predicate)).map
    (·.subject)).eraseDups

/-- One more than there are logical nodes: no evaluation nests constraints deeper. -/
def allowance (g : Graph) : Nat :=
  g.logicalNodes.length + 1

theorem mem_logicalNodes_iff {g : Graph} {node : String} :
    node ∈ g.logicalNodes ↔
      ∃ t ∈ g.toList, t.subject = node ∧ ∃ op : Operator, t.predicate = op.iri := by
  rw [logicalNodes, List.mem_eraseDups, List.mem_map]
  constructor
  · rintro ⟨t, ht, rfl⟩
    obtain ⟨hm, hp⟩ := List.mem_filter.1 ht
    obtain ⟨op, -, hop⟩ := List.any_eq_true.1 hp
    exact ⟨t, hm, rfl, op, (beq_iff_eq.1 hop).symm⟩
  · rintro ⟨t, hm, rfl, op, hop⟩
    refine ⟨t, List.mem_filter.2 ⟨hm, ?_⟩, rfl⟩
    exact List.any_eq_true.2 ⟨op, Operator.mem_probeOrder op, by simp [hop]⟩

theorem mem_logicalNodes_of_firstObject? {g : Graph} {node : String} {op : Operator}
    (h : (g.firstObject? node op.iri).isSome = true) : node ∈ g.logicalNodes := by
  obtain ⟨o, ho⟩ := Option.isSome_iff_exists.1 h
  have hm : o ∈ g.objects node op.iri := List.mem_of_head? ho
  simp only [objects, query, about_eq, List.mem_map, List.mem_filter, beq_iff_eq] at hm
  obtain ⟨t, ⟨⟨ht, hsubject⟩, hadmits⟩, -⟩ := hm
  simp only [Pattern.admits, Option.all_some, Option.all_none, Bool.and_true, beq_iff_eq]
    at hadmits
  exact mem_logicalNodes_iff.2 ⟨t, ht, hsubject, op, hadmits⟩

theorem mem_logicalNodes_of_operands? {g : Graph} {node : String} {r : Operator × List String}
    (h : g.operands? node = some r) : node ∈ g.logicalNodes := by
  have hop : ∃ op, op ∈ g.operators node := by
    unfold operands? at h
    split at h
    · next op hf => exact ⟨op, List.mem_of_find?_eq_some hf⟩
    · cases hl : g.operators node with
      | nil => simp [hl] at h
      | cons op ops => exact ⟨op, List.mem_cons_self⟩
  obtain ⟨op, hop⟩ := hop
  exact mem_logicalNodes_of_firstObject? (List.mem_filter.1 hop).2

/-! ## Kinds of rules -/

def references : List (String × RuleKind) :=
  [(Vocabulary.permission, .permission), (Vocabulary.prohibition, .prohibition),
    (Vocabulary.obligation, .obligation), (Vocabulary.duty, .obligation)]

def classes : List (String × RuleKind) :=
  [(Vocabulary.permissionClass, .permission), (Vocabulary.prohibitionClass, .prohibition),
    (Vocabulary.dutyClass, .obligation)]

def classify? (g : Graph) (rule : String) : Option RuleKind :=
  match references.find? fun r => g.refersTo r.1 rule with
  | some r => some r.2
  | none => (classes.find? fun c => c.1 ∈ g.objects rule Vocabulary.type).map (·.2)

end UsagePolicy.Graph
