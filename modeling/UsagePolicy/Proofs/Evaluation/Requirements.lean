import UsagePolicy.Proofs.Evaluation.Isolation
import UsagePolicy.Proofs.Evaluation.Yielding
/-!
# Further requirements

A rule can be given further constraints, duties, targets and assignees. Whatever they are, a
permission that was refused stays refused. The rule may be a duty or a consequence as well, even of
itself: its new conditions bear upon it there too, but behind its open gates they pass.
-/

namespace UsagePolicy

namespace Vocabulary

/-- The relations by which a permission requires something. -/
def requirements : List String := [constraint, duty, target, assignee]

/-- The relations that are followed from what is required. -/
def inherent : List String := [refinement, action, consequence] ++ nesting

end Vocabulary

namespace Evaluator

variable {e e' : Evaluator} {rule : String}

/-! ## What a further requirement leaves alone -/

theorem alike_foldl_insert {predicates : List String} (e : Evaluator) {added : List Triple}
    (h : ∀ t ∈ added, t.predicate ∉ predicates) :
    Alike predicates Set.univ e { e with graph := added.foldl Graph.insert e.graph } where
  graph := by
    refine ⟨fun s _ p hp => ?_, fun _ _ _ _ _ _ => Set.mem_univ _⟩
    refine Graph.objects_foldl_insert_of_ne fun t ht _ hpredicate => h t ht ?_
    rw [hpredicate]
    exact hp
  oracle := rfl

/-- The second evaluator sees the same policy, in which one rule has further requirements. -/
structure Requires (e e' : Evaluator) (rule : String) : Prop where
  inherent : Alike Vocabulary.inherent Set.univ e e'
  elsewhere : ∀ node ≠ rule, ∀ p, e'.graph.objects node p = e.graph.objects node p
  more : ∀ p, ∃ more, e'.graph.objects rule p = e.graph.objects rule p ++ more
  round : e'.round = e.round

theorem requires_foldl_insert (e : Evaluator) {added : List Triple}
    (h : ∀ t ∈ added, t.subject = rule ∧ t.predicate ∈ Vocabulary.requirements) :
    Requires e { e with graph := added.foldl Graph.insert e.graph } rule where
  inherent := by
    have hdisjoint : ∀ p ∈ Vocabulary.requirements, p ∉ Vocabulary.inherent := by decide
    exact e.alike_foldl_insert fun t ht => hdisjoint t.predicate (h t ht).2
  elsewhere := by
    intro node hnode p
    refine Graph.objects_foldl_insert_of_ne fun t ht hsubject => ?_
    exact absurd (hsubject.symm.trans (h t ht).1) hnode
  more := fun p => Graph.objects_foldl_insert e.graph added rule p
  round := rfl

namespace Requires

theorem constraintNode (h : Requires e e' rule) (relation : ConstraintRelation) (node : String) :
    Coincide e e' (e.constraintNode relation node) (e'.constraintNode relation node) :=
  h.inherent.constraintNode (by decide) relation (Set.mem_univ node)

theorem refinements (h : Requires e e' rule) (subject : String) :
    Coincide e e' (e.constraintSet .refinement subject) (e'.constraintSet .refinement subject) :=
  (h.inherent.mirrors (by decide)).constraintSet
    (by decide : ConstraintRelation.refinement.iri ∈ _) (Set.mem_univ subject)

theorem actionExercised (h : Requires e e' rule) (relation : ActionRelation) (subject : String) :
    Coincide e e' (e.actionExercised relation subject) (e'.actionExercised relation subject) :=
  (h.inherent.mirrors (by decide)).actionExercised relation (by decide) (by decide)
    (Set.mem_univ subject)

theorem coincideAt (h : Requires e e' rule) {node : String} (hnode : node ≠ rule) :
    CoincideAt e e' node where
  constraints := coincide_constraintSet (h.elsewhere node hnode _)
    fun n _ => h.constraintNode .constraint n
  parties := fun _ => coincide_partyRefinements (h.elsewhere node hnode _)
    fun n _ => h.refinements n
  action := fun relation => h.actionExercised relation node

/-! ## Gates -/

/-- A constraint that is not satisfied stops the row before the further ones are met. -/
theorem yields_constraints (h : Requires e e' rule) :
    Yields Outcome.Passes (e.fresh (e.constraintSet .constraint rule)).value
      (e'.fresh (e'.constraintSet .constraint rule)).value := by
  obtain ⟨more, hmore⟩ := h.more ConstraintRelation.constraint.iri
  have hnodes : ∀ node, e'.fresh (e'.constraintNode .constraint node) =
      e.fresh (e.constraintNode .constraint node) :=
    fun node => (h.constraintNode .constraint node).fresh_eq
  rw [(e.comesTo_constraintSet .constraint rule).value_eq,
    (e'.comesTo_constraintSet .constraint rule).value_eq, hmore]
  simp only [hnodes]
  exact yields_rowOutcome_append _ _ _ more

theorem gatesOpen (h : Requires e e' rule) (hopen : e'.GatesOpen rule) : e.GatesOpen rule := by
  have hsubset : ∀ p, ∀ node ∈ e.graph.objects rule p, node ∈ e'.graph.objects rule p := by
    intro p node hnode
    obtain ⟨more, hmore⟩ := h.more p
    rw [hmore]
    exact List.mem_append_left more hnode
  have hrefinements : ∀ subject, e'.fresh (e'.constraintSet .refinement subject) =
      e.fresh (e.constraintSet .refinement subject) :=
    fun subject => (h.refinements subject).fresh_eq
  constructor
  · exact h.yields_constraints.of_holds hopen.constraints
  · intro target htarget
    rw [← hrefinements]
    exact hopen.targets target (hsubset _ target htarget)
  · intro assignee hassignee
    rw [← hrefinements]
    exact hopen.assignees assignee (hsubset _ assignee hassignee)
  · obtain ⟨action, haction, hpasses⟩ := hopen.action
    have hfirst := h.inherent.graph.firstObject?_eq (Set.mem_univ rule)
      (by decide : Vocabulary.action ∈ _)
    rw [hfirst] at haction
    rw [hrefinements] at hpasses
    exact ⟨action, haction, hpasses⟩

end Requires

/-! ## Duties -/

/-- Behind open gates a rule that is a duty as well is decided by its action. -/
theorem GatesOpen.dutyOutcome_eq (h : e.GatesOpen rule) (relation : DutyRelation)
    (unexercised : Outcome) :
    e.dutyOutcome relation rule unexercised =
      (e.fresh (e.actionExercised relation.actionRelation rule)).value.exercisedOr unexercised := by
  refine dutyOutcome_of_passes h.constraints (fun party => partyRefinements_passes_iff.2 ?_) _ _
  cases party with
  | target => exact h.targets
  | assignee => exact h.assignees

namespace Requires

theorem dutyOutcome_eq (h : Requires e e' rule) (hopen : e'.GatesOpen rule)
    (relation : DutyRelation) (node : String) (unexercised : Outcome) :
    e'.dutyOutcome relation node unexercised = e.dutyOutcome relation node unexercised := by
  by_cases hnode : node = rule
  · -- the rule's own conditions have changed, but behind open gates they pass before and after
    rw [hnode, hopen.dutyOutcome_eq, (h.gatesOpen hopen).dutyOutcome_eq,
      (h.actionExercised _ rule).fresh_eq]
  · have hat := h.coincideAt hnode
    rw [dutyOutcome, dutyOutcome, hat.constraints.fresh_eq, (hat.parties .target).fresh_eq,
      (hat.parties .assignee).fresh_eq, (hat.action _).fresh_eq]

theorem value_duty (h : Requires e e' rule) (hopen : e'.GatesOpen rule)
    (relation : DutyRelation) (withConsequences : Bool) (node : String) :
    (e'.fresh (e'.duty relation withConsequences node)).value =
      (e.fresh (e.duty relation withConsequences node)).value := by
  have halone : ∀ node, (e'.fresh (e'.dutyAlone .consequence node)).value =
      (e.fresh (e.dutyAlone .consequence node)).value := by
    intro node
    rw [(e.comesTo_dutyAlone .consequence node).value_eq,
      (e'.comesTo_dutyAlone .consequence node).value_eq, h.dutyOutcome_eq hopen]
  have hconsequences : (e'.fresh (e'.consequences node)).value =
      (e.fresh (e.consequences node)).value := by
    have hobjects := h.inherent.graph.objects_eq node (Set.mem_univ node) Vocabulary.consequence
      (by decide)
    rw [(e.comesTo_consequences node).value_eq, (e'.comesTo_consequences node).value_eq, hobjects]
    simp only [halone]
  rw [(e.comesTo_duty relation withConsequences node).value_eq,
    (e'.comesTo_duty relation withConsequences node).value_eq, hconsequences,
    h.dutyOutcome_eq hopen]

/-- If each duty comes to the same, further ones can only fail where all duties pass. -/
theorem yields_allDuties (h : Requires e e' rule)
    (hduty : ∀ relation withConsequences node,
      (e'.fresh (e'.duty relation withConsequences node)).value =
        (e.fresh (e.duty relation withConsequences node)).value) :
    Yields Outcome.Passes (e.fresh (e.allDuties rule)).value
      (e'.fresh (e'.allDuties rule)).value := by
  obtain ⟨more, hmore⟩ := h.more Vocabulary.duty
  rw [allDuties, allDuties, (e.comesTo_dutyChildren _ _ _ rule).value_eq,
    (e'.comesTo_dutyChildren _ _ _ rule).value_eq, hmore, h.round]
  simp only [hduty]
  exact yields_rowOutcome_append _ _ _ more

end Requires

theorem Requires.permission_positive (h : Requires e e' rule)
    (hallowed : (e'.fresh (e'.permission rule)).value = .decided .positive) :
    (e.fresh (e.permission rule)).value = .decided .positive := by
  obtain ⟨hopen, hduties⟩ := permission_eq_positive_iff.1 hallowed
  exact permission_eq_positive_iff.2
    ⟨h.gatesOpen hopen, (h.yields_allDuties (h.value_duty hopen)).of_holds hduties⟩

/-- Where only duties are added, no gate is touched. -/
theorem yields_permission_duties (h : Requires e e' rule)
    (hconditions : Alike (Vocabulary.consequence :: Vocabulary.conditions) Set.univ e e') :
    Yields (· = .decided .positive) (e.fresh (e.permission rule)).value
      (e'.fresh (e'.permission rule)).value := by
  have hmirrors := hconditions.mirrors (by decide)
  have hsubset : Vocabulary.applying ⊆ Vocabulary.consequence :: Vocabulary.conditions := by
    decide
  have hgate := hmirrors.gate hsubset (Set.mem_univ rule)
  have hduty : ∀ relation withConsequences node,
      (e'.fresh (e'.duty relation withConsequences node)).value =
        (e.fresh (e.duty relation withConsequences node)).value := by
    intro relation withConsequences node
    rw [(hmirrors.duty hsubset relation withConsequences (fun _ => List.mem_cons_self)
      (Set.mem_univ node)).fresh_eq]
  refine yields_permission (by rw [hgate.fresh_eq]) ?_ ?_ ?_
  · exact hconditions.graph.firstObject?_eq (Set.mem_univ rule) (by decide)
  · intro action _
    rw [(h.refinements action).fresh_eq]
  · intro hrefused
    rw [h.yields_allDuties hduty fun hpasses => hrefused (ofDuties_eq_positive_iff.2 hpasses)]

end Evaluator

/-- Further constraints, duties, targets and assignees never make a permission allowed that was
not, and further duties alone leave its verdict as it was. -/
theorem permission_not_loosened (g : Graph) (oracle : Oracle) (round : Round) (rule : String)
    (added : List Triple)
    (hadded : ∀ t ∈ added, t.subject = rule ∧ t.predicate ∈ Vocabulary.requirements) :
    let verdict (g : Graph) := (evaluateAs .permission (some g) oracle round rule).value
    let g' := added.foldl Graph.insert g
    verdict g ≠ .decided .positive →
      verdict g' ≠ .decided .positive ∧
      ((∀ t ∈ added, t.predicate = Vocabulary.duty) → verdict g' = verdict g) := by
  intro verdict g' hrefused
  let e : Evaluator := ⟨g, oracle, round⟩
  have hrequires := e.requires_foldl_insert hadded
  refine ⟨fun hallowed => hrefused (hrequires.permission_positive hallowed), fun honly => ?_⟩
  have hconditions := e.alike_foldl_insert fun t ht =>
    (by rw [honly t ht]; decide : t.predicate ∉ Vocabulary.consequence :: Vocabulary.conditions)
  exact Evaluator.yields_permission_duties hrequires hconditions hrefused

/-- A permission that is a consequence of its duty becomes a duty of its own as well. -/
theorem permission_not_loosened_ownDuty :
    let g : Graph := .ofList
      [⟨"urn:p", Vocabulary.action, "urn:use"⟩, ⟨"urn:p", Vocabulary.duty, "urn:d"⟩,
        ⟨"urn:d", Vocabulary.action, "urn:pay"⟩, ⟨"urn:d", Vocabulary.consequence, "urn:p"⟩]
    let added : List Triple :=
      [⟨"urn:p", Vocabulary.duty, "urn:p"⟩, ⟨"urn:p", Vocabulary.duty, "urn:d"⟩]
    let oracle := (Presets.uniform .negative).oracle
    let verdict (g : Graph) := (evaluateAs .permission (some g) oracle .second "urn:p").value
    let g' := added.foldl Graph.insert g
    (∀ t ∈ added, t.subject = "urn:p" ∧ t.predicate ∈ Vocabulary.requirements) ∧
    verdict g ≠ .decided .positive ∧
    verdict g' ≠ .decided .positive ∧ verdict g' = verdict g := by
  intro g added oracle verdict g'
  have hadded : ∀ t ∈ added, t.subject = "urn:p" ∧ t.predicate ∈ Vocabulary.requirements := by
    decide
  have hrefused : verdict g ≠ .decided .positive := by decide +kernel
  obtain ⟨hstill, hsame⟩ :=
    permission_not_loosened g oracle .second "urn:p" added hadded hrefused
  exact ⟨hadded, hrefused, hstill, hsame (by decide)⟩

end UsagePolicy
