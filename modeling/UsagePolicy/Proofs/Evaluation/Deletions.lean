import UsagePolicy.Proofs.Evaluation.Isolation
/-!
# Deleted consequences

Consequences are read only where they count: those of a permission's duties and those of an
obligation itself, in the second round. Deleting all others changes neither what a rule comes to
nor how it is evaluated, so the consequences of a consequence are never met.
-/

namespace UsagePolicy

/-- All relations that evaluations of rules follow, but that to consequences. -/
def Vocabulary.immediate : List String :=
  Vocabulary.conditions ++ [Vocabulary.duty, Vocabulary.remedy]

namespace Graph

/-- The graph in which these nodes have no consequences. -/
def withoutConsequences (g : Graph) (dropped : String → Bool) : Graph :=
  g.without fun t => t.predicate = Vocabulary.consequence && dropped t.subject

variable {dropped : String → Bool}

theorem objects_withoutConsequences {g : Graph} {node : String} (h : dropped node = false) :
    (g.withoutConsequences dropped).objects node Vocabulary.consequence =
      g.objects node Vocabulary.consequence :=
  objects_without fun _ => by rw [h, Bool.and_false]

theorem agree_withoutConsequences (g : Graph) (dropped : String → Bool) :
    Agree Vocabulary.immediate Set.univ g (g.withoutConsequences dropped) := by
  have hkept : ∀ p ∈ Vocabulary.immediate, p ≠ Vocabulary.consequence := by decide
  refine .univ (fun t ht => ?_) (g.filter_toList_without _)
  rw [decide_eq_false (hkept t.predicate ht), Bool.false_and, Bool.not_false]

end Graph

namespace Evaluator

/-- The evaluator of a policy in which these nodes have no consequences. -/
def withoutConsequences (e : Evaluator) (dropped : String → Bool) : Evaluator :=
  { e with graph := e.graph.withoutConsequences dropped }

variable {dropped : String → Bool} {rule node : String}

theorem mirrors_withoutConsequences (e : Evaluator) (dropped : String → Bool) :
    Mirrors Eq Vocabulary.immediate Set.univ e (e.withoutConsequences dropped) :=
  have halike : Alike Vocabulary.immediate Set.univ e (e.withoutConsequences dropped) :=
    ⟨e.graph.agree_withoutConsequences dropped, rfl⟩
  halike.mirrors (by decide)

/-- Of all consequences a duty reads its own only, and only if they count. -/
theorem coincide_duty_withoutConsequences (e : Evaluator) (relation : DutyRelation)
    {withConsequences : Bool} (h : withConsequences = true → dropped node = false) :
    Coincide e (e.withoutConsequences dropped) (e.duty relation withConsequences node)
      ((e.withoutConsequences dropped).duty relation withConsequences node) := by
  refine (e.mirrors_withoutConsequences dropped).duty_of_objects_eq (by decide) relation
    (Set.mem_univ node) ?_
  exact fun hwith => ⟨Graph.objects_withoutConsequences (h hwith), fun n _ => Set.mem_univ n⟩

theorem coincide_permission_withoutConsequences (e : Evaluator)
    (h : e.round.evaluatesConsequences = true →
      ∀ duty ∈ e.graph.objects rule Vocabulary.duty, dropped duty = false) :
    Coincide e (e.withoutConsequences dropped) (e.permission rule)
      ((e.withoutConsequences dropped).permission rule) := by
  have hmirrors := e.mirrors_withoutConsequences dropped
  refine hmirrors.permission (by decide) rfl (Set.mem_univ rule) ?_
  refine coincide_dutyChildren (hmirrors.graph.objects_eq rule (Set.mem_univ rule) _ (by decide)) ?_
  exact fun duty hduty => e.coincide_duty_withoutConsequences .duty fun hwith => h hwith duty hduty

theorem coincide_prohibition_withoutConsequences (e : Evaluator) (dropped : String → Bool)
    (rule : String) :
    Coincide e (e.withoutConsequences dropped) (e.prohibition rule)
      ((e.withoutConsequences dropped).prohibition rule) :=
  (e.mirrors_withoutConsequences dropped).prohibition (by decide) (by decide) (Set.mem_univ rule)

theorem coincide_obligation_withoutConsequences (e : Evaluator) (round : Round)
    (h : round.evaluatesConsequences = true → dropped rule = false) :
    Coincide e (e.withoutConsequences dropped) (e.obligation round rule)
      ((e.withoutConsequences dropped).obligation round rule) :=
  coincide_obligation round (e.coincide_duty_withoutConsequences .obligation h)

end Evaluator

/-- Consequences that do not count may be deleted: all of them for a prohibition and in the first
round, all but those of its duties for a permission, and all but its own for an obligation. A duty
never reads the consequences of other nodes, and a consequence reads none. -/
theorem consequences_deletable (g : Graph) (oracle : Oracle) (rule : String) :
    let bare := g.withoutConsequences fun _ => true
    let ofDuties := g.withoutConsequences fun node => node ∉ g.objects rule Vocabulary.duty
    let own (node : String) := g.withoutConsequences fun other => other ≠ node
    let evaluated (kind : RuleKind) (round : Round) (g : Graph) :=
      evaluateAs kind (some g) oracle round rule
    let obligation (round stored : Round) (g : Graph) :=
      let e : Evaluator := ⟨g, oracle, stored⟩
      e.fresh (e.obligation round rule)
    let duty (relation : DutyRelation) (withConsequences : Bool) (node : String) (round : Round)
        (g : Graph) :=
      let e : Evaluator := ⟨g, oracle, round⟩
      e.fresh (e.duty relation withConsequences node)
    (∀ round, evaluated .prohibition round bare = evaluated .prohibition round g) ∧
    evaluated .permission .first bare = evaluated .permission .first g ∧
    (∀ stored, obligation .first stored bare = obligation .first stored g) ∧
    evaluated .permission .second ofDuties = evaluated .permission .second g ∧
    (∀ stored, obligation .second stored (own rule) = obligation .second stored g) ∧
    ∀ round node,
      (∀ relation, duty relation true node round (own node) = duty relation true node round g) ∧
      duty .consequence false node round bare = duty .consequence false node round g := by
  intro bare ofDuties own evaluated obligation duty
  have hown : ∀ node : String, decide (node ≠ node) = false :=
    fun node => decide_eq_false (absurd rfl)
  refine ⟨fun round => ?_, ?_, fun stored => ?_, ?_, fun stored => ?_, fun round node => ⟨?_, ?_⟩⟩
  · let e : Evaluator := ⟨g, oracle, round⟩
    exact (e.coincide_prohibition_withoutConsequences _ rule).fresh_eq
  · let e : Evaluator := ⟨g, oracle, .first⟩
    exact (e.coincide_permission_withoutConsequences nofun).fresh_eq
  · let e : Evaluator := ⟨g, oracle, stored⟩
    exact (e.coincide_obligation_withoutConsequences .first nofun).fresh_eq
  · let e : Evaluator := ⟨g, oracle, .second⟩
    have hkept : ∀ node ∈ g.objects rule Vocabulary.duty,
        decide (node ∉ g.objects rule Vocabulary.duty) = false :=
      fun node hnode => decide_eq_false fun hnot => hnot hnode
    exact (e.coincide_permission_withoutConsequences fun _ => hkept).fresh_eq
  · let e : Evaluator := ⟨g, oracle, stored⟩
    exact (e.coincide_obligation_withoutConsequences .second fun _ => hown rule).fresh_eq
  · let e : Evaluator := ⟨g, oracle, round⟩
    intro relation
    exact (e.coincide_duty_withoutConsequences relation fun _ => hown node).fresh_eq
  · let e : Evaluator := ⟨g, oracle, round⟩
    exact (e.coincide_duty_withoutConsequences .consequence Bool.false_ne_true.elim).fresh_eq

end UsagePolicy
