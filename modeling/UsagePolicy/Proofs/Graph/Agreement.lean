import Mathlib.Data.List.Basic
import Mathlib.Data.Set.Defs
import UsagePolicy.Graph.Roles
import UsagePolicy.Proofs.Graph.Objects
/-!
# Graphs that agree on a region

A region is a set of nodes that is closed under the relations that are followed from its nodes. Two
graphs that agree on these relations give the same items to every list that begins in the region,
and the same operands to every constraint of it, and these belong to the region as well. Nothing is
assumed about other relations or about other nodes.
-/

namespace UsagePolicy

/-- The relations that lead along a list. -/
def Vocabulary.linking : List String := [Vocabulary.first, Vocabulary.rest]

/-- The relations that lead from a constraint to its operands. -/
def Vocabulary.nesting : List String :=
  [Vocabulary.or, Vocabulary.and, Vocabulary.xone, Vocabulary.andSequence, Vocabulary.first,
    Vocabulary.rest]

theorem Vocabulary.linking_subset_nesting : linking ⊆ nesting := by
  decide

theorem Operator.iri_mem_nesting (op : Operator) : op.iri ∈ Vocabulary.nesting := by
  cases op <;> decide

namespace Graph

variable {predicates : List String} {region : Set String} {g g' : Graph} {s p cursor : String}

theorem isSome_firstObject? : (g.firstObject? s p).isSome = true ↔ ∃ o, o ∈ g.objects s p := by
  rw [firstObject?_eq]
  cases g.objects s p with
  | nil => simp
  | cons o os => simp

theorem mem_cells : s ∈ g.cells ↔ (g.firstObject? s Vocabulary.first).isSome = true := by
  rw [isSome_firstObject?]
  simp only [cells, query, Pattern.admits, mem_objects, List.mem_map, List.mem_filter,
    Option.all_some, Option.all_none, Bool.and_true, beq_iff_eq]
  constructor
  · rintro ⟨⟨s, p, o⟩, ⟨hm, rfl⟩, rfl⟩
    exact ⟨o, hm⟩
  · rintro ⟨o, hm⟩
    exact ⟨_, ⟨hm, rfl⟩, rfl⟩

theorem mem_operators {op : Operator} :
    op ∈ g.operators s ↔ (g.firstObject? s op.iri).isSome = true := by
  rw [operators, List.mem_filter]
  exact and_iff_right op.mem_probeOrder

/-- The graphs agree on these relations of a region, and none of them leads out of it. -/
structure Agree (predicates : List String) (region : Set String) (g g' : Graph) : Prop where
  objects_eq : ∀ s ∈ region, ∀ p ∈ predicates, g'.objects s p = g.objects s p
  closed : ∀ s ∈ region, ∀ p ∈ predicates, ∀ o ∈ g.objects s p, o ∈ region

namespace Agree

/-- For graphs that have the same triples with these predicates about each node of the region. -/
theorem of_filter_eq
    (hclosed : ∀ t ∈ g.toList, t.subject ∈ region → t.predicate ∈ predicates → t.object ∈ region)
    (hsame : ∀ s ∈ region,
      g'.toList.filter (fun t => t.subject = s ∧ t.predicate ∈ predicates) =
        g.toList.filter fun t => t.subject = s ∧ t.predicate ∈ predicates) :
    Agree predicates region g g' := by
  constructor
  · intro s hs p hp
    refine objects_eq_of_filter_eq (fun o => ?_) (hsame s hs)
    exact decide_eq_true ⟨rfl, hp⟩
  · intro s hs p hp o ho
    exact hclosed _ (mem_objects.1 ho) hs hp

/-- For graphs that differ in other relations only. -/
theorem univ {keep : Triple → Bool} (hkeep : ∀ t, t.predicate ∈ predicates → keep t = true)
    (h : g'.toList.filter keep = g.toList.filter keep) : Agree predicates Set.univ g g' :=
  ⟨fun _ _ _ hp => objects_eq_of_filter_eq (fun _ => hkeep _ hp) h,
    fun _ _ _ _ _ _ => trivial⟩

theorem same (predicates : List String) (g : Graph) : Agree predicates Set.univ g g :=
  ⟨fun _ _ _ _ => rfl, fun _ _ _ _ _ _ => trivial⟩

theorem firstObject?_eq (h : Agree predicates region g g') (hs : s ∈ region)
    (hp : p ∈ predicates) : g'.firstObject? s p = g.firstObject? s p := by
  rw [Graph.firstObject?_eq, Graph.firstObject?_eq, h.objects_eq s hs p hp]

theorem mem_of_firstObject? {o : String} (h : Agree predicates region g g') (hs : s ∈ region)
    (hp : p ∈ predicates) (ho : g.firstObject? s p = some o) : o ∈ region :=
  h.closed s hs p hp o (mem_objects_of_firstObject? ho)

/-! ## Lists -/

section Linking

variable (h : Agree predicates region g g') (hl : Vocabulary.linking ⊆ predicates)
include h hl

theorem first_eq (hs : s ∈ region) :
    g'.firstObject? s Vocabulary.first = g.firstObject? s Vocabulary.first :=
  h.firstObject?_eq hs (hl (by decide))

theorem rest_eq (hs : s ∈ region) :
    g'.firstObject? s Vocabulary.rest = g.firstObject? s Vocabulary.rest :=
  h.firstObject?_eq hs (hl (by decide))

/-- A chain that begins in the region stays there, and so do its items. -/
theorem follow_mem {unvisited : List String} (hc : cursor ∈ region) :
    ∀ item ∈ g.follow unvisited cursor, item ∈ region := by
  induction unvisited, cursor using follow.induct g with
  | case1 unvisited cursor hstop =>
      rw [follow, dif_pos hstop]
      exact nofun
  | case2 unvisited cursor hstop hitem =>
      rw [follow, dif_neg hstop, hitem]
      exact nofun
  | case3 unvisited cursor hstop item hitem hnext =>
      rw [follow, dif_neg hstop, hitem, hnext]
      have hmem := h.mem_of_firstObject? hc (hl (by decide)) hitem
      simpa using hmem
  | case4 unvisited cursor hstop item hitem next hnext ih =>
      rw [follow, dif_neg hstop, hitem, hnext]
      simp only [List.unattach_filter, List.unattach_attach] at ih
      have hmem := h.mem_of_firstObject? hc (hl (by decide)) hitem
      have hnext' := h.mem_of_firstObject? hc (hl (by decide)) hnext
      exact List.forall_mem_cons.2 ⟨hmem, ih hnext'⟩

/-- What matters of the unvisited cells is which of them lie in the region. -/
theorem follow_eq {unvisited unvisited' : List String} (hc : cursor ∈ region)
    (hu : ∀ node ∈ region, node ∈ unvisited' ↔ node ∈ unvisited) :
    g'.follow unvisited' cursor = g.follow unvisited cursor := by
  induction unvisited, cursor using follow.induct g generalizing unvisited' with
  | case1 unvisited cursor hstop =>
      have hstop' : cursor = Vocabulary.nil ∨ cursor ∉ unvisited' := by rwa [hu cursor hc]
      rw [follow, follow, dif_pos hstop, dif_pos hstop']
  | case2 unvisited cursor hstop hitem =>
      have hstop' : ¬ (cursor = Vocabulary.nil ∨ cursor ∉ unvisited') := by rwa [hu cursor hc]
      rw [follow, follow, dif_neg hstop, dif_neg hstop', h.first_eq hl hc, hitem]
  | case3 unvisited cursor hstop item hitem hnext =>
      have hstop' : ¬ (cursor = Vocabulary.nil ∨ cursor ∉ unvisited') := by rwa [hu cursor hc]
      rw [follow, follow, dif_neg hstop, dif_neg hstop', h.first_eq hl hc, hitem,
        h.rest_eq hl hc, hnext]
  | case4 unvisited cursor hstop item hitem next hnext ih =>
      have hstop' : ¬ (cursor = Vocabulary.nil ∨ cursor ∉ unvisited') := by rwa [hu cursor hc]
      -- both visit the same cell, so the rows of unvisited ones still agree on the region
      simp only [List.unattach_filter, List.unattach_attach] at ih
      have hnext' := h.mem_of_firstObject? hc (hl (by decide)) hnext
      have hu' : ∀ node ∈ region, node ∈ unvisited'.filter (· != cursor) ↔
          node ∈ unvisited.filter (· != cursor) := by
        intro node hnode
        rw [List.mem_filter, List.mem_filter, hu node hnode]
      rw [follow, follow, dif_neg hstop, dif_neg hstop', h.first_eq hl hc, hitem,
        h.rest_eq hl hc, hnext]
      exact congrArg (item :: ·) (ih hnext' hu')

theorem listItems_eq (hs : s ∈ region) : g'.listItems s = g.listItems s := by
  refine h.follow_eq hl hs fun node hnode => ?_
  rw [mem_cells, mem_cells, h.first_eq hl hnode]

/-- Where lists agree, relations with the same objects have the same members. -/
theorem members_congr {s' p' : String} (hobjects : g'.objects s' p' = g.objects s p)
    (hregion : ∀ object ∈ g.objects s p, object ∈ region) :
    g'.members s' p' = g.members s p := by
  rw [members, members, hobjects]
  refine List.flatMap_congr fun object hobject => ?_
  rw [h.first_eq hl (hregion object hobject), h.listItems_eq hl (hregion object hobject)]

theorem members_eq (hs : s ∈ region) (hp : p ∈ predicates) :
    g'.members s p = g.members s p :=
  h.members_congr hl (h.objects_eq s hs p hp) (h.closed s hs p hp)

theorem members_mem (hs : s ∈ region) (hp : p ∈ predicates) :
    ∀ member ∈ g.members s p, member ∈ region := by
  rw [members, List.forall_mem_flatMap]
  intro object hobject
  have hregion := h.closed s hs p hp object hobject
  split
  · exact nofun
  · split
    · exact h.follow_mem hl hregion
    · simpa using hregion

end Linking

/-! ## Operands -/

section Nesting

variable (h : Agree predicates region g g') (hn : Vocabulary.nesting ⊆ predicates)
include h hn

theorem operands?_eq (hs : s ∈ region) : g'.operands? s = g.operands? s := by
  have hl := List.Subset.trans Vocabulary.linking_subset_nesting hn
  have hop : ∀ op : Operator, op.iri ∈ predicates := fun op => hn op.iri_mem_nesting
  have hmembers : ∀ op : Operator, g'.members s op.iri = g.members s op.iri :=
    fun op => h.members_eq hl hs (hop op)
  have hoperators : g'.operators s = g.operators s := by
    refine List.filter_congr fun op _ => ?_
    rw [h.firstObject?_eq hs (hop op)]
  simp only [operands?, hoperators, hmembers]

theorem operands?_mem {operator : Operator} {operands : List String} (hs : s ∈ region)
    (ho : g.operands? s = some (operator, operands)) : ∀ child ∈ operands, child ∈ region := by
  unfold operands? at ho
  split at ho
  · obtain ⟨rfl, rfl⟩ := Prod.mk.inj (Option.some.inj ho)
    have hl := List.Subset.trans Vocabulary.linking_subset_nesting hn
    exact h.members_mem hl hs (hn (Operator.iri_mem_nesting _))
  · obtain ⟨op, -, hpair⟩ := Option.map_eq_some_iff.1 ho
    obtain ⟨-, rfl⟩ := Prod.mk.inj hpair
    exact nofun

end Nesting

end Agree

end Graph

end UsagePolicy
