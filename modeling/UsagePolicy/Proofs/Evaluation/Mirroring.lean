import UsagePolicy.Proofs.Evaluation.Coinciding
import UsagePolicy.Proofs.Graph.Agreement
/-!
# Mirrored evaluations

What an evaluation of a rule meets are constraints, and actions that the oracle is asked about; it
gets there by relations between nodes. Where two evaluators follow the same relations, come to the
same with the constraints and get the same answers, one mirrors the other in all that they do.
-/

namespace UsagePolicy

namespace Vocabulary

/-- The relations that lead to what decides whether a rule or duty applies, and whether its action
exists. -/
def applying : List String := [constraint, refinement, target, assignee, action]

/-- The relations that lead to all that a rule meets, up to its constraints. -/
def meeting : List String := applying ++ [duty, remedy, consequence]

end Vocabulary

theorem ConstraintRelation.iri_mem_applying (relation : ConstraintRelation) :
    relation.iri ∈ Vocabulary.applying := by
  cases relation <;> decide

theorem Party.iri_mem_applying (party : Party) : party.iri ∈ Vocabulary.applying := by
  cases party <;> decide

namespace Evaluator

variable {R : Event → Event → Prop} [Std.Refl R]

/-- The graphs agree on these relations of a region, and the constraints and actions that are met
there come to the same. -/
structure Mirrors (R : Event → Event → Prop) (predicates : List String) (region : Set String)
    (e e' : Evaluator) : Prop where
  graph : Graph.Agree predicates region e.graph e'.graph
  node : ∀ relation : ConstraintRelation, relation.iri ∈ predicates → ∀ s ∈ region,
    ∀ n ∈ e.graph.objects s relation.iri,
      CoincideUpTo R e e' (e.constraintNode relation n) (e'.constraintNode relation n)
  answer : ∀ relation : ActionRelation, ∀ s ∈ region, ∀ action,
    e.graph.firstObject? s Vocabulary.action = some action →
      e'.oracle.answer? action relation.categories = e.oracle.answer? action relation.categories

namespace Mirrors

variable {predicates : List String} {region : Set String} {e e' : Evaluator}
  {node subject : String} (h : Mirrors R predicates region e e')
include h

/-! ## Constraints, actions and parties -/

theorem constraintSet {relation : ConstraintRelation} (hr : relation.iri ∈ predicates)
    (hs : subject ∈ region) :
    CoincideUpTo R e e' (e.constraintSet relation subject) (e'.constraintSet relation subject) :=
  coincide_constraintSet (h.graph.objects_eq subject hs _ hr) (h.node relation hr subject hs)

theorem actionExercised (relation : ActionRelation) (hr : Vocabulary.refinement ∈ predicates)
    (ha : Vocabulary.action ∈ predicates) (hs : subject ∈ region) :
    CoincideUpTo R e e' (e.actionExercised relation subject)
      (e'.actionExercised relation subject) := by
  refine coincide_actionExercised (h.graph.firstObject?_eq hs ha) fun action hsome => ⟨?_, ?_⟩
  · exact h.constraintSet hr (h.graph.mem_of_firstObject? hs ha hsome)
  · exact h.answer relation subject hs action hsome

theorem partyRefinements {party : Party} (hr : Vocabulary.refinement ∈ predicates)
    (hp : party.iri ∈ predicates) (hs : subject ∈ region) :
    CoincideUpTo R e e' (e.partyRefinements party subject)
      (e'.partyRefinements party subject) := by
  refine coincide_partyRefinements (h.graph.objects_eq subject hs _ hp) fun node hnode => ?_
  exact h.constraintSet hr (h.graph.closed subject hs _ hp node hnode)

/-! ## Duties and rules -/

section Applying

variable {rule : String} (ha : Vocabulary.applying ⊆ predicates)
include ha

theorem coincideAt (hs : node ∈ region) : CoincideAtUpTo R e e' node := by
  have hr : Vocabulary.refinement ∈ predicates := ha (by decide)
  constructor
  · exact h.constraintSet (ha (ConstraintRelation.iri_mem_applying .constraint)) hs
  · exact fun party => h.partyRefinements hr (ha party.iri_mem_applying) hs
  · exact fun relation => h.actionExercised relation hr (ha (by decide)) hs

/-- Consequences are looked at one by one, and only if they count. -/
theorem duty_of_objects_eq (relation : DutyRelation) {withConsequences : Bool} (hs : node ∈ region)
    (hobjects : withConsequences = true →
      e'.graph.objects node Vocabulary.consequence = e.graph.objects node Vocabulary.consequence ∧
        ∀ n ∈ e.graph.objects node Vocabulary.consequence, n ∈ region) :
    CoincideUpTo R e e' (e.duty relation withConsequences node)
      (e'.duty relation withConsequences node) := by
  refine (h.coincideAt ha hs).duty relation fun hwith => ?_
  obtain ⟨hsame, hclosed⟩ := hobjects hwith
  refine coincide_consequences hsame fun n hn => ?_
  exact (h.coincideAt ha (hclosed n hn)).dutyAlone .consequence

theorem duty (relation : DutyRelation) (withConsequences : Bool)
    (hq : withConsequences = true → Vocabulary.consequence ∈ predicates) (hs : node ∈ region) :
    CoincideUpTo R e e' (e.duty relation withConsequences node)
      (e'.duty relation withConsequences node) :=
  h.duty_of_objects_eq ha relation hs fun hwith =>
    ⟨h.graph.objects_eq node hs _ (hq hwith), h.graph.closed node hs _ (hq hwith)⟩

theorem gate (hs : rule ∈ region) : CoincideUpTo R e e' (e.gate rule) (e'.gate rule) :=
  (h.coincideAt ha hs).gate fun party => h.graph.firstObject?_eq hs (ha party.iri_mem_applying)

theorem dutyChildren (relation : DutyRelation) (withConsequences : Bool) {predicate : String}
    (hp : predicate ∈ predicates)
    (hq : withConsequences = true → Vocabulary.consequence ∈ predicates) (hs : rule ∈ region) :
    CoincideUpTo R e e' (e.dutyChildren relation predicate withConsequences rule)
      (e'.dutyChildren relation predicate withConsequences rule) := by
  refine coincide_dutyChildren (h.graph.objects_eq rule hs _ hp) fun n hn => ?_
  exact h.duty ha relation withConsequences hq (h.graph.closed rule hs _ hp n hn)

theorem actionRefinements {action : String} (hs : rule ∈ region)
    (hsome : e.graph.firstObject? rule Vocabulary.action = some action) :
    CoincideUpTo R e e' (e.constraintSet .refinement action)
      (e'.constraintSet .refinement action) :=
  h.constraintSet (ha (ConstraintRelation.iri_mem_applying .refinement))
    (h.graph.mem_of_firstObject? hs (ha (by decide)) hsome)

/-- Permissions are mirrored where their duties are. -/
theorem permission (hround : e'.round = e.round) (hs : rule ∈ region)
    (hduties : CoincideUpTo R e e' (e.allDuties rule) (e'.allDuties rule)) :
    CoincideUpTo R e e' (e.permission rule) (e'.permission rule) :=
  coincide_permission hround (h.gate ha hs) (h.graph.firstObject?_eq hs (ha (by decide)))
    (fun _ => h.actionRefinements ha hs) hduties

theorem prohibition (hr : Vocabulary.remedy ∈ predicates) (hs : rule ∈ region) :
    CoincideUpTo R e e' (e.prohibition rule) (e'.prohibition rule) := by
  have haction := h.graph.firstObject?_eq hs (ha (by decide : Vocabulary.action ∈ _))
  refine coincide_prohibition (h.gate ha hs) haction ((h.coincideAt ha hs).action .prohibition) ?_
  exact h.dutyChildren ha .remedy false hr Bool.false_ne_true.elim hs

end Applying

section Meeting

variable (hm : Vocabulary.meeting ⊆ predicates) (hround : e'.round = e.round)
include hm hround

theorem rule (kind : RuleKind) {rule : String} (hs : rule ∈ region) :
    CoincideUpTo R e e' (e.rule kind rule) (e'.rule kind rule) := by
  have ha : Vocabulary.applying ⊆ predicates := fun p hp => hm (List.mem_append_left _ hp)
  have hconsequence : Vocabulary.consequence ∈ predicates := hm (by decide)
  cases kind with
  | permission =>
      refine h.permission ha hround hs ?_
      unfold allDuties
      rw [hround]
      exact h.dutyChildren ha .duty _ (hm (by decide)) (fun _ => hconsequence) hs
  | prohibition => exact h.prohibition ha (hm (by decide)) hs
  | obligation =>
      unfold Evaluator.rule
      rw [hround]
      exact coincide_obligation e.round (h.duty ha _ _ (fun _ => hconsequence) hs)

theorem classifiedRule (kind : Option RuleKind) {rule : String} (hs : rule ∈ region)
    (hclass : e'.graph.classify? rule = e.graph.classify? rule) :
    CoincideUpTo R e e' (e.classifiedRule rule kind) (e'.classifiedRule rule kind) := by
  unfold Evaluator.classifiedRule
  rw [hclass]
  split
  · exact coincide_ruling _ (h.rule hm hround _ hs)
  · exact coincide_ruling _ (h.rule hm hround _ hs)
  · exact (CoincideUpTo.record _ _).bind fun _ => .pure _

end Meeting

end Mirrors

end Evaluator

end UsagePolicy
