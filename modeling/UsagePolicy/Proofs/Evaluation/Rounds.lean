import UsagePolicy.Proofs.Evaluation.Isolation
import UsagePolicy.Proofs.Evaluation.Yielding
/-!
# Rounds

The round of an evaluator is read in one place: whether the duties of a permission count with their
consequences. An obligation is told a round of its own. Consequences are looked at only where an
action was not exercised, so the second round can change nothing but a negative outcome.
-/

namespace UsagePolicy.Evaluator

variable {e : Evaluator}

/-! ## Consequences -/

theorem yields_dutyOutcome (relation : DutyRelation) (node : String) (outcome : Outcome) :
    Yields (· = .negative) (e.dutyOutcome relation node .negative)
      (e.dutyOutcome relation node outcome) := by
  refine .conditioned (.conditioned (.conditioned ?_ _) _) _
  cases (e.fresh (e.actionExercised relation.actionRelation node)).value with
  | positive => exact .refl _
  | negative => exact fun hnegative => absurd rfl hnegative
  | notExisting => exact .refl _
  | error => exact .refl _

/-- Consequences only count for an unfulfilled duty. -/
theorem yields_duty (e : Evaluator) (relation : DutyRelation) (node : String) :
    Yields (· = .negative) (e.fresh (e.duty relation false node)).value
      (e.fresh (e.duty relation true node)).value := by
  rw [(e.comesTo_duty relation false node).value_eq, (e.comesTo_duty relation true node).value_eq]
  exact yields_dutyOutcome relation node _

theorem yields_dutyChildren (e : Evaluator) (relation : DutyRelation) (predicate rule : String) :
    Yields (· = .negative) (e.fresh (e.dutyChildren relation predicate false rule)).value
      (e.fresh (e.dutyChildren relation predicate true rule)).value := by
  rw [(e.comesTo_dutyChildren relation predicate false rule).value_eq,
    (e.comesTo_dutyChildren relation predicate true rule).value_eq]
  exact yields_rowOutcome fun node _ => e.yields_duty relation node

theorem yields_ofDuties {o o' : Outcome} (h : Yields (· = .negative) o o') :
    Yields (· = .decided .negative) (ofDuties o) (ofDuties o') := by
  intro hnegative
  rw [h fun ho => hnegative (ofDuties_eq_negative_iff.2 ho)]

theorem yields_obligation (e : Evaluator) (rule : String) :
    Yields (· = .decided .negative) (e.fresh (e.obligation .first rule)).value
      (e.fresh (e.obligation .second rule)).value := by
  intro hnegative
  rw [(e.comesTo_obligation .first rule).value_eq] at hnegative ⊢
  rw [(e.comesTo_obligation .second rule).value_eq]
  have hduty := e.yields_duty .obligation rule fun ho => hnegative (congrArg _ ho)
  exact congrArg _ hduty

/-! ## Rounds of an evaluator -/

section OneGraph

variable (g : Graph) (oracle : Oracle)

theorem mirrors_rounds (round round' : Round) :
    Mirrors Eq Vocabulary.evaluated Set.univ ⟨g, oracle, round⟩ ⟨g, oracle, round'⟩ :=
  have halike : Alike Vocabulary.evaluated Set.univ ⟨g, oracle, round⟩ ⟨g, oracle, round'⟩ :=
    ⟨.same _ g, rfl⟩
  halike.mirrors (by decide)

theorem fresh_obligation_rounds (round stored stored' : Round) (rule : String) :
    let e : Evaluator := ⟨g, oracle, stored⟩
    let e' : Evaluator := ⟨g, oracle, stored'⟩
    e'.fresh (e'.obligation round rule) = e.fresh (e.obligation round rule) := by
  have hmirrors := mirrors_rounds g oracle stored stored'
  have hduty := hmirrors.duty (by decide) .obligation round.evaluatesConsequences
    (fun _ => by decide) (Set.mem_univ rule)
  exact (coincide_obligation round hduty).fresh_eq

theorem fresh_prohibition_rounds (round round' : Round) (rule : String) :
    let e : Evaluator := ⟨g, oracle, round⟩
    let e' : Evaluator := ⟨g, oracle, round'⟩
    e'.fresh (e'.prohibition rule) = e.fresh (e.prohibition rule) := by
  have hmirrors := mirrors_rounds g oracle round round'
  exact (hmirrors.prohibition (by decide) (by decide) (Set.mem_univ rule)).fresh_eq

theorem yields_permission_rounds (rule : String) :
    let e : Evaluator := ⟨g, oracle, .first⟩
    let e' : Evaluator := ⟨g, oracle, .second⟩
    Yields (· = .decided .negative) (e.fresh (e.permission rule)).value
      (e'.fresh (e'.permission rule)).value := by
  intro e e'
  have hmirrors : Mirrors Eq Vocabulary.evaluated Set.univ e e' :=
    mirrors_rounds g oracle .first .second
  have happlying : Vocabulary.applying ⊆ Vocabulary.evaluated := by decide
  have hgate := hmirrors.gate happlying (Set.mem_univ rule)
  have hduties := hmirrors.dutyChildren happlying .duty true (by decide : Vocabulary.duty ∈ _)
    (fun _ => by decide) (Set.mem_univ rule)
  refine yields_permission (by rw [hgate.fresh_eq]) rfl ?_ (yields_ofDuties ?_)
  · intro action haction
    rw [(hmirrors.actionRefinements happlying (Set.mem_univ rule) haction).fresh_eq]
  · show Yields _ (e.fresh (e.dutyChildren .duty Vocabulary.duty false rule)).value
      (e'.fresh (e'.dutyChildren .duty Vocabulary.duty true rule)).value
    rw [hduties.fresh_eq]
    exact e.yields_dutyChildren .duty Vocabulary.duty rule

end OneGraph

end UsagePolicy.Evaluator

namespace UsagePolicy

/-- Prohibitions do not know rounds. The second round of a permission or obligation differs from
the first only where that was negative, and obligations do not ask for the evaluator's round. -/
theorem second_round_reopens_negative (g : Graph) (oracle : Oracle) (rule : String) :
    let permission (round : Round) := (evaluateAs .permission (some g) oracle round rule).value
    let obligation (round stored : Round) :=
      let e : Evaluator := ⟨g, oracle, stored⟩
      (e.fresh (e.obligation round rule)).value
    evaluateAs .prohibition (some g) oracle .second rule =
        evaluateAs .prohibition (some g) oracle .first rule ∧
    (permission .first ≠ .decided .negative → permission .second = permission .first) ∧
    (∀ stored, obligation .first stored ≠ .decided .negative →
      obligation .second stored = obligation .first stored) ∧
    ∀ round stored stored', obligation round stored' = obligation round stored := by
  intro permission obligation
  refine ⟨?_, ?_, ?_, ?_⟩
  · exact Evaluator.fresh_prohibition_rounds g oracle .first .second rule
  · exact Evaluator.yields_permission_rounds g oracle rule
  · exact fun stored => Evaluator.yields_obligation ⟨g, oracle, stored⟩ rule
  · intro round stored stored'
    have hfresh := Evaluator.fresh_obligation_rounds g oracle round stored stored' rule
    exact congrArg Traced.value hfresh

end UsagePolicy
