import UsagePolicy.Proofs.Evaluation.Duties
import UsagePolicy.Proofs.Evaluation.Verdicts
/-!
# Verdicts of prohibitions

Behind open gates a prohibition is decided by the answer for its action: it is not violated as long
as the action was not exercised, and by its remedies once it was.
-/

namespace UsagePolicy

namespace Oracle

variable {o : Oracle} {node : String} {categories : List Category}

theorem map_fst_answer? :
    (o.answer? node categories).map Prod.fst =
      (o.ofInstance node).or (categories.findSome? o.ofCategory) := by
  unfold answer?
  cases o.ofInstance node with
  | none =>
      rw [Option.none_or, List.map_findSome?]
      refine congrArg (List.findSome? · categories) (funext fun c => ?_)
      simp [Function.comp_def]
  | some outcome => rfl

theorem outcome_eq_iff {outcome : Outcome} (h : outcome ≠ .error) :
    o.outcome node categories = outcome ↔
      (o.ofInstance node).or (categories.findSome? o.ofCategory) = some outcome := by
  rw [Oracle.outcome, map_fst_answer?]
  cases (o.ofInstance node).or (categories.findSome? o.ofCategory) with
  | none => simp [h.symm]
  | some answer => simp

/-- An error is answered, or there is no answer. -/
theorem outcome_eq_error_iff :
    o.outcome node categories = .error ↔
      (o.ofInstance node).or (categories.findSome? o.ofCategory) = some .error ∨
        o.ofInstance node = none ∧ categories.findSome? o.ofCategory = none := by
  rw [← Option.or_eq_none_iff, Oracle.outcome, map_fst_answer?]
  cases (o.ofInstance node).or (categories.findSome? o.ofCategory) with
  | none => simp
  | some answer => simp

/-- The category of a relation alone comes before that of all actions. -/
theorem findSome?_categories (o : Oracle) (relation : ActionRelation) :
    relation.categories.findSome? o.ofCategory =
      (relation.category?.bind o.ofCategory).or (o.ofCategory .action) := by
  have haction : [Category.action].findSome? o.ofCategory = o.ofCategory .action := by
    cases hdefault : o.ofCategory .action with
    | none => simp [hdefault]
    | some outcome => simp [hdefault]
  rw [ActionRelation.categories, List.findSome?_append, haction]
  cases relation.category? with
  | none => rfl
  | some category =>
      cases hdefault : o.ofCategory category with
      | none => simp [hdefault]
      | some outcome => simp [hdefault]

end Oracle

namespace Evaluator

variable {e : Evaluator} {rule action : String} {outcome : Outcome}

theorem comesTo_prohibitionRemedies (e : Evaluator) (rule : String) :
    e.ComesTo (e.prohibitionRemedies rule) (ofDuties (e.fresh (e.allRemedies rule)).value) := by
  have hremedies : e.Settled (e.allRemedies rule) := e.settled_dutyChildren _ _ _ _
  exact .record _ _ (hremedies.comesTo.bind (.pure _))

/-- The verdict by whether the prohibited action was exercised, given that of the remedies. -/
def ofExercised (action : String) (remedies : Verdict) : Outcome → Verdict
  | .positive => remedies
  | .negative => .decided .positive
  | .notExisting => .aborted ⟨.actionNotExisting, action⟩
  | .error => .decided .error

theorem ofExercised_eq_decided_iff {remedies : Verdict} {exercised : Outcome}
    (ho : outcome ≠ .error) :
    ofExercised action remedies exercised = .decided outcome ↔
      exercised = .negative ∧ outcome = .positive ∨
        exercised = .positive ∧ remedies = .decided outcome := by
  cases exercised with
  | positive => simp [ofExercised]
  | negative => simp [ofExercised, eq_comm]
  | notExisting => simp [ofExercised]
  | error => simp [ofExercised, ho.symm]

theorem comesTo_prohibitionAction (e : Evaluator) (rule action : String) :
    e.ComesTo (e.prohibitionAction rule action)
      (ofExercised action (ofDuties (e.fresh (e.allRemedies rule)).value)
        (e.fresh (e.actionExercised .prohibition rule)).value) := by
  refine (e.settled_actionExercised .prohibition rule).comesTo.bind ?_
  cases (e.fresh (e.actionExercised .prohibition rule)).value with
  | positive => exact e.comesTo_prohibitionRemedies rule
  | negative => exact .pure _
  | notExisting => exact .pure _
  | error => exact .pure _

theorem prohibitionAction_eq_decided_iff
    (haction : e.graph.firstObject? rule Vocabulary.action = some action)
    (ho : outcome ≠ .error) :
    (e.fresh (e.prohibitionAction rule action)).value = .decided outcome ↔
      (e.fresh (e.constraintSet .refinement action)).value.Passes ∧
        (e.oracle.outcome action ActionRelation.prohibition.categories = .negative ∧
            outcome = .positive ∨
          e.oracle.outcome action ActionRelation.prohibition.categories = .positive ∧
            ofDuties (e.fresh (e.allRemedies rule)).value = .decided outcome) := by
  have hexercised := comesTo_actionExercised .prohibition haction
  rw [(e.comesTo_prohibitionAction rule action).value_eq, hexercised.value_eq,
    ofExercised_eq_decided_iff ho,
    Outcome.conditioned_eq_iff Outcome.noConfusion Outcome.noConfusion,
    Outcome.conditioned_eq_iff Outcome.noConfusion Outcome.noConfusion, and_assoc, and_assoc,
    ← and_or_left]

theorem comesTo_prohibition (e : Evaluator) (rule : String) :
    e.ComesTo (e.prohibition rule)
      (e.fresh (e.behindGates rule (e.prohibitionAction rule))).value := by
  have hgates := settled_behindGates rule (e.settled_prohibitionAction rule)
  exact .record _ _ (hgates.comesTo.bind (e.comesTo_conclude _ _ _))

/-- The answer for the first action of a prohibition. -/
def Answered (e : Evaluator) (rule : String) (answer : Outcome) : Prop :=
  ∃ action, e.graph.firstObject? rule Vocabulary.action = some action ∧
    e.oracle.outcome action ActionRelation.prohibition.categories = answer

theorem answered_iff {answer : Outcome} (h : answer ≠ .error) :
    e.Answered rule answer ↔
      ((e.graph.firstObject? rule Vocabulary.action).bind fun action =>
        (e.oracle.ofInstance action).or
          ((e.oracle.ofCategory .prohibitionAction).or (e.oracle.ofCategory .action))) =
        some answer := by
  rw [Option.bind_eq_some_iff]
  refine exists_congr fun action => and_congr_right fun _ => ?_
  rw [Oracle.outcome_eq_iff h, Oracle.findSome?_categories]
  rfl

theorem prohibition_eq_decided_iff (ho : outcome ≠ .error) :
    (e.fresh (e.prohibition rule)).value = .decided outcome ↔
      e.GatesOpen rule ∧
        (e.Answered rule .negative ∧ outcome = .positive ∨
          e.Answered rule .positive ∧
            ofDuties (e.fresh (e.allRemedies rule)).value = .decided outcome) := by
  rw [(e.comesTo_prohibition rule).value_eq,
    behindGates_eq_decided_iff (e.settled_prohibitionAction rule) ho]
  refine (and_congr_right fun _ => exists_congr fun action => and_congr_right fun haction =>
    prohibitionAction_eq_decided_iff haction ho).trans ?_
  rw [gatesOpen_and_iff]
  simp only [Answered, and_or_left, exists_or, ← and_assoc, exists_and_right]

theorem prohibition_eq_negative_iff :
    (e.fresh (e.prohibition rule)).value = .decided .negative ↔
      e.GatesOpen rule ∧ e.Answered rule .positive ∧
        (e.fresh (e.allRemedies rule)).value = .negative := by
  rw [prohibition_eq_decided_iff Outcome.noConfusion, ofDuties_eq_negative_iff]
  simp

theorem prohibition_eq_positive_iff :
    (e.fresh (e.prohibition rule)).value = .decided .positive ↔
      e.GatesOpen rule ∧ (e.Answered rule .negative ∨
        e.Answered rule .positive ∧ (e.fresh (e.allRemedies rule)).value.Passes) := by
  rw [prohibition_eq_decided_iff Outcome.noConfusion, ofDuties_eq_positive_iff]
  simp

end Evaluator

/-- A prohibition whose gates are open is violated if its action was exercised and the first remedy
that does not pass is unfulfilled. It is not violated if its action was not exercised, or if it was
and all remedies pass. -/
theorem prohibition_verdict (g : Graph) (oracle : Oracle) (round : Round) (rule : String) :
    let e : Evaluator := ⟨g, oracle, round⟩
    let verdict := (evaluateAs .prohibition (some g) oracle round rule).value
    let remedies := g.objects rule Vocabulary.remedy
    let remedy node := (e.fresh (e.duty .remedy false node)).value
    let answer := (g.firstObject? rule Vocabulary.action).bind fun action =>
      (oracle.ofInstance action).or
        ((oracle.ofCategory .prohibitionAction).or (oracle.ofCategory .action))
    (verdict = .decided .negative ↔ e.GatesOpen rule ∧ answer = some .positive ∧
      ∃ before node after, remedies = before ++ node :: after ∧
        (∀ earlier ∈ before, (remedy earlier).Passes) ∧ remedy node = .negative) ∧
    (verdict = .decided .positive ↔ e.GatesOpen rule ∧
      (answer = some .negative ∨
        answer = some .positive ∧ ∀ node ∈ remedies, (remedy node).Passes)) := by
  intro e verdict remedies remedy answer
  have hremedies : Evaluator.Decides (Evaluator.surveyOf Outcome.isFailure remedy remedies)
      (e.fresh (e.allRemedies rule)).value := by
    rw [Evaluator.allRemedies,
      (e.comesTo_dutyChildren .remedy Vocabulary.remedy false rule).value_eq]
    exact Evaluator.decides_rowOutcome
  have hnegative : e.Answered rule .negative ↔ answer = some .negative :=
    Evaluator.answered_iff Outcome.noConfusion
  have hpositive : e.Answered rule .positive ↔ answer = some .positive :=
    Evaluator.answered_iff Outcome.noConfusion
  constructor
  · rw [← hremedies.eq_negative_iff, ← hpositive]
    exact Evaluator.prohibition_eq_negative_iff
  · rw [← hremedies.passes_iff, ← hpositive, ← hnegative]
    exact Evaluator.prohibition_eq_positive_iff

end UsagePolicy
