import UsagePolicy.Proofs.Evaluation.Duties
import UsagePolicy.Proofs.Evaluation.Isolation
import UsagePolicy.Proofs.Evaluation.Verdicts
/-!
# Consequences of a duty

Consequences stand in for a duty whose conditions pass but whose action was not exercised. Together
they come to the first failure among them, and without one they are fulfilled if one of them is.
Everywhere else the duty is decided before they are met.
-/

namespace UsagePolicy

namespace Evaluator

/-! ## Consequences together -/

section Together

variable {v : String → Outcome} {nodes : List String}

theorem consequencesOutcome_eq_positive_iff :
    consequencesOutcome v nodes = .positive ↔
      (∃ n ∈ nodes, v n = .positive) ∧ ∀ n ∈ nodes, (v n).Passes := by
  cases nodes with
  | nil => simp [consequencesOutcome]
  | cons n ns => exact anyOutcome_eq_positive_iff

theorem consequencesOutcome_eq_notExisting_iff :
    consequencesOutcome v nodes = .notExisting ↔
      nodes ≠ [] ∧ ∀ n ∈ nodes, v n = .notExisting := by
  cases nodes with
  | nil => simp [consequencesOutcome]
  | cons n ns =>
      rw [and_iff_right (List.cons_ne_nil n ns)]
      exact anyOutcome_eq_notExisting_iff

/-- The first failure decides, and no consequences at all are one. -/
theorem consequencesOutcome_of_not_passes (hfails : ¬ (consequencesOutcome v nodes).Passes) :
    nodes = [] ∧ consequencesOutcome v nodes = .negative ∨
      ∃ before n after, nodes = before ++ n :: after ∧
        (∀ earlier ∈ before, (v earlier).Passes) ∧ ¬ (v n).Passes ∧
        consequencesOutcome v nodes = v n := by
  cases nodes with
  | nil => exact .inl ⟨rfl, rfl⟩
  | cons n ns => exact .inr (decides_anyOutcome.exists_of_not_passes hfails)

end Together

/-! ## Conditions of a duty -/

/-- What decides about a duty before its consequences do comes to the same. -/
structure SameConditions (relation : DutyRelation) (node : String) (e e' : Evaluator) : Prop where
  constraints : (e'.fresh (e'.constraintSet .constraint node)).value =
    (e.fresh (e.constraintSet .constraint node)).value
  parties : ∀ party, (e'.fresh (e'.partyRefinements party node)).value =
    (e.fresh (e.partyRefinements party node)).value
  action : (e'.fresh (e'.actionExercised relation.actionRelation node)).value =
    (e.fresh (e.actionExercised relation.actionRelation node)).value

variable {e e' : Evaluator} {relation : DutyRelation} {node : String}

theorem SameConditions.dutyOutcome_eq (h : SameConditions relation node e e')
    (unexercised : Outcome) :
    e'.dutyOutcome relation node unexercised = e.dutyOutcome relation node unexercised := by
  rw [dutyOutcome, dutyOutcome, h.constraints, h.parties, h.parties, h.action]

theorem dutyOutcome_of_exercised
    (h : (e.fresh (e.actionExercised relation.actionRelation node)).value = .positive)
    (unexercised unexercised' : Outcome) :
    e.dutyOutcome relation node unexercised' = e.dutyOutcome relation node unexercised := by
  rw [dutyOutcome, dutyOutcome, h]
  rfl

/-- Only a duty whose action was not exercised needs its consequences to come to the same. -/
theorem SameConditions.value_duty (h : SameConditions relation node e e') :
    (e'.fresh (e'.duty relation false node)).value = (e.fresh (e.duty relation false node)).value ∧
    ((e.fresh (e.actionExercised relation.actionRelation node)).value = .positive →
      (e'.fresh (e'.duty relation true node)).value =
        (e.fresh (e.duty relation true node)).value) := by
  simp only [(comesTo_duty _ relation _ node).value_eq, h.dutyOutcome_eq]
  exact ⟨rfl, fun hexercised => dutyOutcome_of_exercised hexercised _ _⟩

/-- A duty of two graphs that differ in consequences only. -/
theorem fresh_duty_consequences {g' : Graph}
    (h : g'.toList.filter (·.predicate ≠ Vocabulary.consequence) =
      e.graph.toList.filter (·.predicate ≠ Vocabulary.consequence)) :
    let e' : Evaluator := { e with graph := g' }
    e'.fresh (e'.duty relation false node) = e.fresh (e.duty relation false node) ∧
    ((e.fresh (e.actionExercised relation.actionRelation node)).value = .positive →
      e'.fresh (e'.duty relation true node) = e.fresh (e.duty relation true node)) := by
  intro e'
  have hkept : ∀ p ∈ Vocabulary.conditions, p ≠ Vocabulary.consequence := by decide
  have halike : Alike Vocabulary.conditions Set.univ e e' :=
    ⟨.univ (fun t ht => decide_eq_true (hkept t.predicate ht)) h, rfl⟩
  have hat : CoincideAt e e' node := (halike.mirrors (by decide)).coincideAt (by decide)
    (Set.mem_univ node)
  refine ⟨(hat.dutyAlone relation).fresh_eq, fun hexercised => ?_⟩
  refine (hat.dutyWithConsequences relation fun hunexercised => ?_).fresh_eq
  rw [hexercised] at hunexercised
  exact Outcome.noConfusion hunexercised

end Evaluator

/-- Consequences decide about a duty whose conditions pass and whose action was not exercised: the
first that fails, and else whether one is fulfilled. Nothing else about a duty depends on them. -/
theorem duty_consequences (e : Evaluator) (relation : DutyRelation) (node : String) :
    let consequences := e.graph.objects node Vocabulary.consequence
    let state (n : String) := (e.fresh (e.duty .consequence false n)).value
    let outcome := (e.fresh (e.duty relation true node)).value
    let exercised := (e.fresh (e.actionExercised relation.actionRelation node)).value
    ((e.fresh (e.constraintSet .constraint node)).value.Passes →
      (∀ party, e.PartyPasses party node) → exercised = .negative →
      (outcome = .positive ↔
        (∃ n ∈ consequences, state n = .positive) ∧ ∀ n ∈ consequences, (state n).Passes) ∧
      (outcome = .notExisting ↔ consequences ≠ [] ∧ ∀ n ∈ consequences, state n = .notExisting) ∧
      (outcome ≠ .positive → outcome ≠ .notExisting →
        consequences = [] ∧ outcome = .negative ∨
        ∃ before n after, consequences = before ++ n :: after ∧
          (∀ earlier ∈ before, (state earlier).Passes) ∧ ¬ (state n).Passes ∧
          outcome = state n)) ∧
    (∀ g' : Graph, g'.toList.filter (·.predicate ≠ Vocabulary.consequence) =
        e.graph.toList.filter (·.predicate ≠ Vocabulary.consequence) →
      let e' : Evaluator := { e with graph := g' }
      e'.fresh (e'.duty relation false node) = e.fresh (e.duty relation false node) ∧
      (exercised = .positive →
        e'.fresh (e'.duty relation true node) = e.fresh (e.duty relation true node))) ∧
    ∀ e', Evaluator.SameConditions relation node e e' →
      (e'.fresh (e'.duty relation false node)).value =
        (e.fresh (e.duty relation false node)).value ∧
      (exercised = .positive → (e'.fresh (e'.duty relation true node)).value = outcome) := by
  intro consequences state outcome exercised
  refine ⟨fun hconstraints hparties hunexercised => ?_,
    fun g' h => Evaluator.fresh_duty_consequences h, fun e' h => h.value_duty⟩
  have houtcome : outcome = Evaluator.consequencesOutcome state consequences := by
    have hrefinements := fun party => Evaluator.partyRefinements_passes_iff.2 (hparties party)
    have hduty := (e.comesTo_duty relation true node).value_eq
    rw [Evaluator.dutyOutcome_of_passes hconstraints hrefinements] at hduty
    show (e.fresh (e.duty relation true node)).value = _
    rw [hduty]
    show exercised.exercisedOr _ = _
    rw [hunexercised]
    exact (e.comesTo_consequences node).value_eq
  rw [houtcome]
  refine ⟨Evaluator.consequencesOutcome_eq_positive_iff,
    Evaluator.consequencesOutcome_eq_notExisting_iff, fun hpositive hexists => ?_⟩
  apply Evaluator.consequencesOutcome_of_not_passes
  rintro (h | h)
  · exact hpositive h
  · exact hexists h

/-- The first consequence does not exist, and the second has the duty as its own consequence. -/
theorem duty_consequences_shared :
    let g : Graph := .ofList
      [⟨"urn:d", Vocabulary.action, "urn:pay"⟩, ⟨"urn:d", Vocabulary.consequence, "urn:c"⟩,
        ⟨"urn:d", Vocabulary.consequence, "urn:k"⟩, ⟨"urn:c", Vocabulary.constraint, "urn:never"⟩,
        ⟨"urn:k", Vocabulary.action, "urn:fine"⟩, ⟨"urn:k", Vocabulary.consequence, "urn:d"⟩]
    let oracle : Oracle :=
      { ofInstance := fun node => if node = "urn:fine" then some .positive else some .negative
        ofCategory := fun _ => none }
    let e : Evaluator := ⟨g, oracle, .second⟩
    (e.fresh (e.constraintSet .constraint "urn:d")).value.Passes ∧
    (∀ party, e.PartyPasses party "urn:d") ∧
    (e.fresh (e.actionExercised .duty "urn:d")).value = .negative ∧
    (e.fresh (e.duty .duty true "urn:d")).value = .positive := by
  intro g oracle e
  have hconstraints : (e.fresh (e.constraintSet .constraint "urn:d")).value.Passes :=
    .inr (by decide +kernel)
  have hparties : ∀ party, e.PartyPasses party "urn:d" := by
    have hnone : ∀ party : Party, e.graph.objects "urn:d" party.iri = [] := by
      rintro (_ | _) <;> decide +kernel
    intro party node hnode
    rw [hnone party] at hnode
    cases hnode
  have hunexercised : (e.fresh (e.actionExercised .duty "urn:d")).value = .negative := by
    decide +kernel
  obtain ⟨hdecide, -, -⟩ := duty_consequences e .duty "urn:d"
  obtain ⟨hpositive, -, -⟩ := hdecide hconstraints hparties hunexercised
  have hconsequences : e.graph.objects "urn:d" Vocabulary.consequence = ["urn:c", "urn:k"] := by
    decide +kernel
  refine ⟨hconstraints, hparties, hunexercised, hpositive.2 ?_⟩
  rw [hconsequences]
  have hfirst : (e.fresh (e.duty .consequence false "urn:c")).value = .notExisting := by
    decide +kernel
  have hsecond : (e.fresh (e.duty .consequence false "urn:k")).value = .positive := by
    decide +kernel
  simp [hfirst, hsecond, Outcome.Passes]

end UsagePolicy
