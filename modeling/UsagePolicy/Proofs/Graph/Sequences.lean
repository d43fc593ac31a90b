import Mathlib.Data.Set.Function
import UsagePolicy.Graph.Roles
import UsagePolicy.Proofs.Graph.Agreement
/-!
# Sequences as conjunctions

Each sequence of a graph becomes a conjunction of the same operands. A node that has no other
conjunction keeps its operands in that way, although it is asked for them at another place; and if
it has no exclusive disjunction either, no other operator comes between the two places.
-/

namespace UsagePolicy

namespace Operator

/-- The operator that a sequence is replaced by. -/
def asConjunction : Operator → Operator
  | andSequence => and
  | op => op

/-- A sequence does not look at the order of its operands. -/
theorem holds_asConjunction (op : Operator) : op.asConjunction.holds = op.holds := by
  cases op <;> rfl

end Operator

namespace Triple

def asConjunction (t : Triple) : Triple :=
  if t.predicate = Vocabulary.andSequence then { t with predicate := Vocabulary.and } else t

variable {t u : Triple} {p : String}

theorem subject_asConjunction (t : Triple) : t.asConjunction.subject = t.subject := by
  unfold asConjunction
  split <;> rfl

theorem object_asConjunction (t : Triple) : t.asConjunction.object = t.object := by
  unfold asConjunction
  split <;> rfl

theorem asConjunction_of_ne (h : t.predicate ≠ Vocabulary.andSequence) : t.asConjunction = t :=
  if_neg h

theorem predicate_asConjunction_of_eq (h : t.predicate = Vocabulary.andSequence) :
    t.asConjunction.predicate = Vocabulary.and := by
  rw [asConjunction, if_pos h]

/-- Only the predicates of sequences and conjunctions are concerned. -/
theorem predicate_asConjunction_iff (hsequence : p ≠ Vocabulary.andSequence)
    (hand : p ≠ Vocabulary.and) : t.asConjunction.predicate = p ↔ t.predicate = p := by
  by_cases h : t.predicate = Vocabulary.andSequence
  · rw [predicate_asConjunction_of_eq h, h]
    exact ⟨fun heq => absurd heq.symm hand, fun heq => absurd heq.symm hsequence⟩
  · rw [asConjunction_of_ne h]

theorem eq_of_asConjunction (h : t.asConjunction = u.asConjunction)
    (hpredicate : t.predicate = u.predicate) : t = u := by
  have hsubject := congrArg subject h
  have hobject := congrArg object h
  rw [subject_asConjunction, subject_asConjunction] at hsubject
  rw [object_asConjunction, object_asConjunction] at hobject
  cases t
  cases u
  rw [mk.injEq]
  exact ⟨hsubject, hpredicate, hobject⟩

end Triple

namespace Graph

/-- The graph in which all sequences are conjunctions, with its triples in the same order. -/
def withConjunctions (g : Graph) : Graph :=
  ofList (g.toList.map Triple.asConjunction)

/-- A node of a sequence has no conjunction and no exclusive disjunction of its own. -/
def SequencesApart (g : Graph) : Prop :=
  ∀ t ∈ g.toList, t.predicate = Vocabulary.andSequence →
    ∀ u ∈ g.toList, u.subject = t.subject →
      u.predicate ≠ Vocabulary.and ∧ u.predicate ≠ Vocabulary.xone

instance (g : Graph) : Decidable g.SequencesApart :=
  inferInstanceAs (Decidable (∀ t ∈ g.toList, t.predicate = Vocabulary.andSequence →
    ∀ u ∈ g.toList, u.subject = t.subject →
      u.predicate ≠ Vocabulary.and ∧ u.predicate ≠ Vocabulary.xone))

/-- A relation of one graph is a relation of the other where the same triples make them up. -/
theorem objects_withConjunctions {g : Graph} {s p q : String}
    (hlist : g.withConjunctions.toList = g.toList.map Triple.asConjunction)
    (h : ∀ t ∈ g.toList, t.subject = s → (t.asConjunction.predicate = p ↔ t.predicate = q)) :
    g.withConjunctions.objects s p = g.objects s q := by
  rw [objects_eq, objects_eq, hlist, List.filter_map, List.map_map]
  have hobject : (Triple.object ∘ Triple.asConjunction) = Triple.object :=
    funext Triple.object_asConjunction
  rw [hobject]
  refine congrArg _ (List.filter_congr fun t ht => Bool.eq_iff_iff.2 ?_)
  simp only [Function.comp_apply, Triple.subject_asConjunction, Bool.and_eq_true, beq_iff_eq]
  exact and_congr_right (h t ht)

namespace SequencesApart

variable {g : Graph} {s p rule : String} (h : g.SequencesApart)
include h

/-! ## Triples -/

theorem injOn_asConjunction : Set.InjOn Triple.asConjunction {t | t ∈ g.toList} := by
  -- the triple that becomes a conjunction could only meet one that its node does not have
  have hapart : ∀ t ∈ g.toList, ∀ u ∈ g.toList, t.asConjunction = u.asConjunction →
      t.predicate = Vocabulary.andSequence → u.predicate = Vocabulary.andSequence := by
    intro t ht u hu htu hsequence
    by_contra hother
    have hsubject : u.subject = t.subject := by
      rw [← u.subject_asConjunction, ← htu, t.subject_asConjunction]
    have hand : u.predicate = Vocabulary.and := by
      rw [← Triple.asConjunction_of_ne hother, ← htu]
      exact Triple.predicate_asConjunction_of_eq hsequence
    exact (h t ht hsequence u hu hsubject).1 hand
  intro t ht u hu htu
  by_cases hsequence : t.predicate = Vocabulary.andSequence
  · have hsequence' := hapart t ht u hu htu hsequence
    exact Triple.eq_of_asConjunction htu (hsequence.trans hsequence'.symm)
  · have hsequence' : u.predicate ≠ Vocabulary.andSequence :=
      fun heq => hsequence (hapart u hu t ht htu.symm heq)
    rwa [Triple.asConjunction_of_ne hsequence, Triple.asConjunction_of_ne hsequence'] at htu

/-- No two triples become one. -/
theorem toList_withConjunctions :
    g.withConjunctions.toList = g.toList.map Triple.asConjunction :=
  toList_ofList_of_nodup <| g.nodup.map_on fun _ ht _ hu htu => h.injOn_asConjunction ht hu htu

theorem objects_eq_of_ne (hsequence : p ≠ Vocabulary.andSequence) (hand : p ≠ Vocabulary.and) :
    g.withConjunctions.objects s p = g.objects s p :=
  objects_withConjunctions h.toList_withConjunctions fun _ _ _ =>
    Triple.predicate_asConjunction_iff hsequence hand

/-! ## Operands -/

/-- A node without sequences keeps all of its relations. -/
theorem objects_eq_of_no_sequence
    (hnone : ∀ t ∈ g.toList, t.subject = s → t.predicate ≠ Vocabulary.andSequence) :
    g.withConjunctions.objects s p = g.objects s p :=
  objects_withConjunctions h.toList_withConjunctions fun t ht hs => by
    rw [Triple.asConjunction_of_ne (hnone t ht hs)]

/-- A node with a sequence has its objects as those of a conjunction. -/
theorem objects_and_eq {t : Triple} (ht : t ∈ g.toList)
    (hsequence : t.predicate = Vocabulary.andSequence) :
    g.withConjunctions.objects t.subject Vocabulary.and =
      g.objects t.subject Vocabulary.andSequence := by
  refine objects_withConjunctions h.toList_withConjunctions fun u hu hs => ?_
  have hand := (h t ht hsequence u hu hs).1
  by_cases hu' : u.predicate = Vocabulary.andSequence
  · rw [Triple.predicate_asConjunction_of_eq hu']
    exact iff_of_true rfl hu'
  · rw [Triple.asConjunction_of_ne hu']
    exact iff_of_false hand hu'

theorem objects_andSequence_eq : g.withConjunctions.objects s Vocabulary.andSequence = [] := by
  rw [List.eq_nil_iff_forall_not_mem]
  intro o ho
  rw [mem_objects, h.toList_withConjunctions, List.mem_map] at ho
  obtain ⟨t, -, ht⟩ := ho
  have hpredicate : t.asConjunction.predicate = Vocabulary.andSequence := by rw [ht]
  by_cases hsequence : t.predicate = Vocabulary.andSequence
  · rw [Triple.predicate_asConjunction_of_eq hsequence] at hpredicate
    exact absurd hpredicate (by decide)
  · rw [Triple.asConjunction_of_ne hsequence] at hpredicate
    exact hsequence hpredicate

theorem agree {predicates : List String}
    (hp : ∀ p ∈ predicates, p ≠ Vocabulary.andSequence ∧ p ≠ Vocabulary.and) :
    Agree predicates Set.univ g g.withConjunctions where
  objects_eq := fun _ _ p hmem => h.objects_eq_of_ne (hp p hmem).1 (hp p hmem).2
  closed := fun _ _ _ _ _ _ => trivial

/-- The sequence of a node moves to the place of a conjunction. Between the two places is the
exclusive disjunction, which the node does not have. -/
theorem operators_eq_of_sequence (hsequence : Operator.andSequence ∈ g.operators s) :
    g.withConjunctions.operators s = (g.operators s).map Operator.asConjunction ∧
      ∀ op ∈ g.operators s,
        g.withConjunctions.objects s op.asConjunction.iri = g.objects s op.iri := by
  obtain ⟨o, ho⟩ := isSome_firstObject?.1 (mem_operators.1 hsequence)
  have ht := mem_objects.1 ho
  have hnone : ∀ op : Operator, op.iri = Vocabulary.and ∨ op.iri = Vocabulary.xone →
      op ∉ g.operators s := by
    intro op hop hmem
    obtain ⟨o', ho'⟩ := isSome_firstObject?.1 (mem_operators.1 hmem)
    obtain ⟨hand, hxone⟩ := h _ ht rfl _ (mem_objects.1 ho') rfl
    exact hop.elim hand hxone
  have hor : g.withConjunctions.objects s Operator.or.iri = g.objects s Operator.or.iri :=
    h.objects_eq_of_ne (by decide) (by decide)
  have hand : g.withConjunctions.objects s Operator.and.iri =
      g.objects s Operator.andSequence.iri := h.objects_and_eq ht rfl
  have hxone : g.withConjunctions.objects s Operator.xone.iri = g.objects s Operator.xone.iri :=
    h.objects_eq_of_ne (by decide) (by decide)
  have hmoved : g.withConjunctions.objects s Operator.andSequence.iri = [] :=
    h.objects_andSequence_eq
  constructor
  · have hno := hnone .and (.inl rfl)
    have hno' := hnone .xone (.inr rfl)
    simp only [mem_operators, firstObject?_eq] at hsequence hno hno'
    simp only [operators, Operator.probeOrder, List.filter_cons, firstObject?_eq, hor, hand, hxone,
      hmoved, hsequence, hno, hno']
    split <;> rfl
  · intro op hop
    cases op with
    | or => exact hor
    | and => exact absurd hop (hnone .and (.inl rfl))
    | xone => exact hxone
    | andSequence => exact hand

theorem operators_eq_of_no_sequence (hnone : Operator.andSequence ∉ g.operators s) :
    g.withConjunctions.operators s = (g.operators s).map Operator.asConjunction ∧
      ∀ op ∈ g.operators s,
        g.withConjunctions.objects s op.asConjunction.iri = g.objects s op.iri := by
  have hobjects : ∀ p, g.withConjunctions.objects s p = g.objects s p := by
    intro p
    refine h.objects_eq_of_no_sequence fun t ht hs hp => hnone ?_
    refine mem_operators.2 (isSome_firstObject?.2 ⟨t.object, mem_objects.2 ?_⟩)
    rw [← hs, Operator.iri, ← hp]
    exact ht
  have hkept : ∀ op ∈ g.operators s, op.asConjunction = op := by
    intro op hop
    cases op with
    | or => rfl
    | and => rfl
    | xone => rfl
    | andSequence => exact absurd hop hnone
  constructor
  · rw [List.map_congr_left hkept, List.map_id', operators, operators]
    simp only [firstObject?_eq, hobjects]
  · intro op hop
    rw [hkept op hop, hobjects]

/-- A node has the same operands, of a conjunction where they were those of a sequence. -/
theorem operands?_eq : g.withConjunctions.operands? s =
    (g.operands? s).map fun r => (r.1.asConjunction, r.2) := by
  obtain ⟨hoperators, hobjects⟩ :
      g.withConjunctions.operators s = (g.operators s).map Operator.asConjunction ∧
        ∀ op ∈ g.operators s,
          g.withConjunctions.objects s op.asConjunction.iri = g.objects s op.iri := by
    by_cases hsequence : Operator.andSequence ∈ g.operators s
    · exact h.operators_eq_of_sequence hsequence
    · exact h.operators_eq_of_no_sequence hsequence
  have hagree : Agree Vocabulary.linking Set.univ g g.withConjunctions := h.agree (by decide)
  have hmembers : ∀ op ∈ g.operators s,
      g.withConjunctions.members s op.asConjunction.iri = g.members s op.iri := fun op hop =>
    hagree.members_congr (List.Subset.refl _) (hobjects op hop) fun _ _ => trivial
  have hfound : ((g.operators s).find? fun op =>
        !(g.withConjunctions.members s op.asConjunction.iri).isEmpty) =
      (g.operators s).find? fun op => !(g.members s op.iri).isEmpty := by
    rw [← List.head?_filter, ← List.head?_filter]
    refine congrArg _ (List.filter_congr fun op hop => ?_)
    rw [hmembers op hop]
  rw [operands?, operands?, hoperators, List.find?_map]
  simp only [Function.comp_def, hfound]
  cases hop : (g.operators s).find? fun op => !(g.members s op.iri).isEmpty with
  | none => simp only [Option.map_none, List.head?_map, Option.map_map, Function.comp_def]
  | some op =>
      simp only [Option.map_some, hmembers op (List.mem_of_find?_eq_some hop)]

/-! ## Kinds of rules -/

theorem refersTo_eq_of_ne (hsequence : p ≠ Vocabulary.andSequence) (hand : p ≠ Vocabulary.and) :
    g.withConjunctions.refersTo p rule = g.refersTo p rule := by
  rw [Bool.eq_iff_iff, refersTo_iff, refersTo_iff, h.toList_withConjunctions]
  simp only [List.mem_map, exists_exists_and_eq_and, Triple.object_asConjunction,
    Triple.predicate_asConjunction_iff hsequence hand]

/-- No kind of rule is told by its sequences. -/
theorem classify?_eq : g.withConjunctions.classify? rule = g.classify? rule := by
  have hreferences : references.find? (fun r => g.withConjunctions.refersTo r.1 rule) =
      references.find? fun r => g.refersTo r.1 rule := by
    have hplain : ∀ r ∈ references, r.1 ≠ Vocabulary.andSequence ∧ r.1 ≠ Vocabulary.and := by
      decide
    rw [← List.head?_filter, ← List.head?_filter]
    exact congrArg _ (List.filter_congr fun r hr =>
      h.refersTo_eq_of_ne (hplain r hr).1 (hplain r hr).2)
  have htypes : g.withConjunctions.objects rule Vocabulary.type =
      g.objects rule Vocabulary.type := h.objects_eq_of_ne (by decide) (by decide)
  rw [classify?, classify?, hreferences, htypes]

end SequencesApart

end Graph

end UsagePolicy
