import Mathlib.Data.List.Perm.Basic
import Mathlib.Data.Set.Basic
import UsagePolicy.Proofs.Graph.Agreement
/-!
# Graphs that differ in their order

A graph answers in the order of insertion. If two graphs have the same triples, their answers are
permutations of each other. A relation that gives a node one object at most is answered in one way
only, so lists are followed alike, and the operands of a constraint are permuted as well.
-/

namespace UsagePolicy.Graph

variable {g g' : Graph} {s p : String}

/-- The same triples, in whatever order they were inserted. -/
def Reordered (g g' : Graph) : Prop :=
  ∀ t, t ∈ g'.toList ↔ t ∈ g.toList

/-- No node has two objects of this relation. -/
def Functional (g : Graph) (p : String) : Prop :=
  ∀ node, (g.objects node p).length ≤ 1

theorem reordered_iff :
    Reordered g g' ↔ g'.toList ⊆ g.toList ∧ g.toList ⊆ g'.toList := by
  constructor
  · intro h
    exact ⟨fun t ht => (h t).1 ht, fun t ht => (h t).2 ht⟩
  · rintro ⟨hsub, hsub'⟩ t
    exact ⟨fun ht => hsub ht, fun ht => hsub' ht⟩

/-- Only subjects of triples have objects. -/
theorem functional_iff :
    g.Functional p ↔ ∀ t ∈ g.toList, (g.objects t.subject p).length ≤ 1 := by
  constructor
  · intro h t _
    exact h t.subject
  · intro h node
    cases hobjects : g.objects node p with
    | nil => simp
    | cons o os =>
        have hmem : (⟨node, p, o⟩ : Triple) ∈ g.toList := by
          rw [← mem_objects, hobjects]
          exact List.mem_cons_self
        rw [← hobjects]
        exact h _ hmem

instance : Decidable (Reordered g g') :=
  decidable_of_iff _ reordered_iff.symm

instance : Decidable (g.Functional p) :=
  decidable_of_iff _ functional_iff.symm

namespace Reordered

theorem toList_perm (h : Reordered g g') : g'.toList.Perm g.toList :=
  (List.perm_ext_iff_of_nodup g'.nodup g.nodup).2 h

theorem objects_perm (h : Reordered g g') (s p : String) :
    (g'.objects s p).Perm (g.objects s p) := by
  rw [objects_eq, objects_eq]
  exact (h.toList_perm.filter _).map _

theorem mem_objects_iff (h : Reordered g g') {o : String} :
    o ∈ g'.objects s p ↔ o ∈ g.objects s p :=
  (h.objects_perm s p).mem_iff

theorem objects_eq_of_functional (h : Reordered g g') (hp : g.Functional p) (s : String) :
    g'.objects s p = g.objects s p := by
  have hperm := h.objects_perm s p
  have hlen := hp s
  cases hobjects : g.objects s p with
  | nil =>
      rw [hobjects] at hperm
      exact hperm.eq_nil
  | cons o os =>
      rw [hobjects, List.length_cons] at hlen
      have hos : os = [] := List.eq_nil_of_length_eq_zero (by omega)
      rw [hobjects, hos] at hperm
      rw [hos]
      exact List.perm_singleton.1 hperm

theorem firstObject?_eq (h : Reordered g g') (hp : g.Functional p) (s : String) :
    g'.firstObject? s p = g.firstObject? s p := by
  rw [Graph.firstObject?_eq, Graph.firstObject?_eq, h.objects_eq_of_functional hp]

theorem isSome_firstObject?_eq (h : Reordered g g') (s p : String) :
    (g'.firstObject? s p).isSome = (g.firstObject? s p).isSome := by
  rw [Bool.eq_iff_iff, isSome_firstObject?, isSome_firstObject?]
  simp only [h.mem_objects_iff]

theorem operators_eq (h : Reordered g g') (node : String) :
    g'.operators node = g.operators node := by
  refine List.filter_congr fun op _ => ?_
  rw [h.isSome_firstObject?_eq]

/-! ## Operands -/

section

variable (h : Reordered g g') (hfirst : g.Functional Vocabulary.first)
  (hrest : g.Functional Vocabulary.rest)
include h hfirst hrest

theorem agree : Agree Vocabulary.linking Set.univ g g' := by
  refine ⟨fun s _ p hp => ?_, fun _ _ _ _ _ _ => Set.mem_univ _⟩
  rcases List.mem_pair.1 hp with rfl | rfl
  · exact h.objects_eq_of_functional hfirst s
  · exact h.objects_eq_of_functional hrest s

theorem members_perm (s p : String) : (g'.members s p).Perm (g.members s p) := by
  have hlists : ∀ head, g'.listItems head = g.listItems head := fun head =>
    (h.agree hfirst hrest).listItems_eq (List.Subset.refl _) (Set.mem_univ head)
  rw [members, members]
  simp only [h.isSome_firstObject?_eq, hlists]
  exact (h.objects_perm s p).flatMap_right _

/-- The same operator is selected, with the same operands in another order. -/
theorem operands?_perm (node : String) :
    Option.Rel (fun r' r => r'.1 = r.1 ∧ r'.2.Perm r.2) (g'.operands? node) (g.operands? node) := by
  have hmembers : ∀ op : Operator, (g'.members node op.iri).Perm (g.members node op.iri) :=
    fun op => h.members_perm hfirst hrest node op.iri
  have hfind : ((g'.operators node).find? fun op => !(g'.members node op.iri).isEmpty) =
      (g.operators node).find? fun op => !(g.members node op.iri).isEmpty := by
    rw [h.operators_eq]
    refine congrArg (List.find? · _) (funext fun op => ?_)
    rw [(hmembers op).isEmpty_eq]
  rw [operands?, operands?, hfind, h.operators_eq]
  split
  · next op _ => exact .some ⟨rfl, hmembers op⟩
  · cases (g.operators node).head? with
    | none => exact .none
    | some op => exact .some ⟨rfl, .refl _⟩

theorem operands?_eq_none {node : String} (hop : g.operands? node = none) :
    g'.operands? node = none := by
  have hrel := h.operands?_perm hfirst hrest node
  rw [hop] at hrel
  generalize g'.operands? node = operands'? at hrel
  cases hrel
  rfl

theorem operands?_eq_some {node : String} {operator : Operator} {operands : List String}
    (hop : g.operands? node = some (operator, operands)) :
    ∃ operands', g'.operands? node = some (operator, operands') ∧ operands'.Perm operands := by
  have hrel := h.operands?_perm hfirst hrest node
  rw [hop] at hrel
  generalize g'.operands? node = operands'? at hrel
  cases hrel with
  | @some r' _ h =>
      obtain ⟨operator', operands'⟩ := r'
      obtain ⟨rfl, hperm⟩ := h
      exact ⟨operands', rfl, hperm⟩

end

end Reordered

end UsagePolicy.Graph
