import UsagePolicy.Proofs.Graph.Agreement
/-!
# Where operands come from

A member of a relation is an object of it or an item of a list, and so is an operand. What the list
looks like makes no difference: it can be cut off or run in a circle, but what it gives are objects
of `first`.
-/

namespace UsagePolicy.Graph

variable {g : Graph} {s p item member : String}

theorem exists_of_mem_follow {unvisited : List String} {cursor : String}
    (h : item ∈ g.follow unvisited cursor) : ∃ cell, item ∈ g.objects cell Vocabulary.first := by
  induction unvisited, cursor using follow.induct g with
  | case1 unvisited cursor hstop =>
      rw [follow, dif_pos hstop] at h
      cases h
  | case2 unvisited cursor hstop hitem =>
      rw [follow, dif_neg hstop, hitem] at h
      cases h
  | case3 unvisited cursor hstop first hitem hnext =>
      rw [follow, dif_neg hstop, hitem, hnext] at h
      rw [List.mem_singleton.1 h]
      exact ⟨cursor, mem_objects_of_firstObject? hitem⟩
  | case4 unvisited cursor hstop first hitem next hnext ih =>
      rw [follow, dif_neg hstop, hitem, hnext] at h
      simp only [List.unattach_filter, List.unattach_attach] at ih
      rcases List.mem_cons.1 h with rfl | h
      · exact ⟨cursor, mem_objects_of_firstObject? hitem⟩
      · exact ih h

theorem exists_of_mem_members (h : member ∈ g.members s p) :
    member ∈ g.objects s p ∨ ∃ cell, member ∈ g.objects cell Vocabulary.first := by
  obtain ⟨object, hobject, h⟩ := List.mem_flatMap.1 h
  split at h
  · cases h
  · split at h
    · exact .inr (exists_of_mem_follow h)
    · rw [List.mem_singleton.1 h]
      exact .inl hobject

theorem exists_of_mem_operands {operator : Operator} {operands : List String} {child : String}
    (h : g.operands? s = some (operator, operands)) (hchild : child ∈ operands) :
    child ∈ g.objects s operator.iri ∨ ∃ cell, child ∈ g.objects cell Vocabulary.first := by
  unfold operands? at h
  split at h
  · obtain ⟨rfl, rfl⟩ := Prod.mk.inj (Option.some.inj h)
    exact exists_of_mem_members hchild
  · obtain ⟨op, -, hpair⟩ := Option.map_eq_some_iff.1 h
    obtain ⟨-, rfl⟩ := Prod.mk.inj hpair
    cases hchild

/-- A node has no operands at all if no operator has an object there. -/
theorem operands?_eq_none_iff :
    g.operands? s = none ↔ ∀ operator : Operator, g.objects s operator.iri = [] := by
  have hoperators : g.operators s = [] ↔ ∀ operator : Operator, g.objects s operator.iri = [] := by
    rw [operators, List.filter_eq_nil_iff]
    refine ⟨fun h operator => ?_, fun h operator _ => ?_⟩
    · have hnone := h operator operator.mem_probeOrder
      rw [isSome_firstObject?] at hnone
      exact List.eq_nil_iff_forall_not_mem.2 fun o ho => hnone ⟨o, ho⟩
    · rw [isSome_firstObject?, h operator]
      simp
  rw [← hoperators, operands?]
  cases hrow : g.operators s with
  | nil => simp
  | cons operator operators =>
      split
      · simp
      · simp

theorem notMem_logicalNodes_iff {node : String} :
    node ∉ g.logicalNodes ↔
      ∀ t ∈ g.toList, t.subject = node → ∀ operator : Operator, t.predicate ≠ operator.iri := by
  rw [mem_logicalNodes_iff]
  simp only [not_exists, not_and, ne_eq]

theorem operands?_eq_none_iff_notMem {node : String} :
    g.operands? node = none ↔ node ∉ g.logicalNodes := by
  rw [operands?_eq_none_iff, notMem_logicalNodes_iff]
  constructor
  · rintro h t ht rfl operator hp
    have hobject : t.object ∈ g.objects t.subject operator.iri := by
      rw [mem_objects, ← hp]
      exact ht
    rw [h operator] at hobject
    cases hobject
  · intro h operator
    apply List.eq_nil_iff_forall_not_mem.2
    intro o ho
    exact h _ (mem_objects.1 ho) rfl operator rfl

end UsagePolicy.Graph
