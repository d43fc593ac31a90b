import UsagePolicy.Proofs.Evaluation.Lookups
/-!
# Conclusions

What a run comes to if the oracle answers positively or negatively whenever it is asked. Then rules
and duties ask for the same whatever the order of their nodes is: constraints that hold, actions
that were exercised, duties that are discharged. Only how a row of duties fails, unfulfilled or with
an error, depends on which of them is met first.
-/

namespace UsagePolicy

/-- An outcome that passes under a condition, and is negative without it. -/
structure Outcome.Judges (condition : Prop) (o : Outcome) : Prop where
  passes_iff : o.Passes ↔ condition
  ne_error : o ≠ .error

namespace Evaluator

variable {α β : Type} {e : Evaluator}

/-! ## Requirements -/

def Holds (e : Evaluator) (relation : ConstraintRelation) (node : String) : Prop :=
  (e.fresh (e.constraintNode relation node)).value = .positive

/-- All constraints or refinements of a node hold. -/
def AllHold (e : Evaluator) (relation : ConstraintRelation) (subject : String) : Prop :=
  ∀ node ∈ e.graph.objects subject relation.iri, e.Holds relation node

/-- The refinements of all parties of one sort hold. -/
def PartiesHold (e : Evaluator) (party : Party) (subject : String) : Prop :=
  ∀ node ∈ e.graph.objects subject party.iri, e.AllHold .refinement node

/-- The constraints of a duty hold, and the refinements of its parties. -/
structure Applies (e : Evaluator) (node : String) : Prop where
  constraints : e.AllHold .constraint node
  targets : e.PartiesHold .target node
  assignees : e.PartiesHold .assignee node

/-- How the first action of a node turns out. -/
inductive Exercised (e : Evaluator) (relation : ActionRelation) (subject : String) : Outcome → Prop
  | missing (h : e.graph.firstObject? subject Vocabulary.action = none) :
      Exercised e relation subject .error
  | refused {action : String} (h : e.graph.firstObject? subject Vocabulary.action = some action)
      (hrefinements : ¬ e.AllHold .refinement action) : Exercised e relation subject .notExisting
  | answered {action : String} (h : e.graph.firstObject? subject Vocabulary.action = some action)
      (hrefinements : e.AllHold .refinement action)
      (hdecisive : (e.oracle.outcome action relation.categories).Decisive) :
      Exercised e relation subject (e.oracle.outcome action relation.categories)

/-- A duty does not apply, or its action was exercised, or else something makes up for it. -/
def Discharged (e : Evaluator) (relation : DutyRelation) (node : String) (otherwise : Prop) :
    Prop :=
  e.Applies node → ∃ action, e.graph.firstObject? node Vocabulary.action = some action ∧
    e.AllHold .refinement action ∧
    (e.oracle.outcome action relation.actionRelation.categories = .positive ∨ otherwise)

/-- There are consequences, and all of them are discharged. -/
def ConsequencesDischarged (e : Evaluator) (node : String) : Prop :=
  e.graph.objects node Vocabulary.consequence ≠ [] ∧
    ∀ n ∈ e.graph.objects node Vocabulary.consequence, e.Discharged .consequence n False

/-- What a duty needs to pass, with or without its consequences. -/
def DutyDischarged (e : Evaluator) (relation : DutyRelation) (withConsequences : Bool)
    (node : String) : Prop :=
  e.Discharged relation node (withConsequences = true ∧ e.ConsequencesDischarged node)

/-- All duties that a rule has by a predicate are discharged. -/
def AllDischarged (e : Evaluator) (relation : DutyRelation) (predicate : String)
    (withConsequences : Bool) (rule : String) : Prop :=
  ∀ node ∈ e.graph.objects rule predicate, e.DutyDischarged relation withConsequences node

namespace Concludes

/-- Behind a gate the condition of the gate is known. -/
theorem gate {x : Evaluation Outcome} {f : Outcome → Evaluation β} {condition : Prop}
    {r : β → Prop} (hx : e.Concludes x (Outcome.Judges condition))
    (hclosed : e.Concludes (f .negative) fun b => ¬ condition → r b)
    (herror : e.Settled (f .error)) (hsame : f .notExisting = f .positive)
    (hopen : e.Concludes (f .positive) fun b => condition → r b) :
    e.Concludes (x >>= f) r := by
  refine Warrants.guard hx ?_ ?_ hsame ?_
  · refine hclosed.mono fun b hb hjudges => hb ?_
    rw [← hjudges.passes_iff]
    exact Outcome.not_passes_iff.2 rfl
  · exact ⟨herror, fun _ hjudges => absurd rfl hjudges.ne_error⟩
  · refine hopen.mono fun b hb hjudges => hb ?_
    rcases hjudges with hjudges | hjudges
    · exact hjudges.passes_iff.1 (.inl rfl)
    · exact hjudges.passes_iff.1 (.inr rfl)

end Concludes

/-! ## Constraints -/

theorem concludes_constraintNode (relation : ConstraintRelation) (node : String) :
    e.Concludes (e.constraintNode relation node) Outcome.Decisive :=
  .constraintNode (concludes_atomicConstraint relation node) Operator.outcome_eq_or

theorem concludes_constraintSet (relation : ConstraintRelation) (subject : String) :
    e.Concludes (e.constraintSet relation subject)
      (Outcome.Judges (e.AllHold relation subject)) := by
  unfold constraintSet AllHold
  cases e.graph.objects subject relation.iri with
  | nil => exact .record (.pure fun _ => ⟨by simp [Outcome.Passes], Outcome.noConfusion⟩)
  | cons node nodes =>
      let told (n : String) (o : Outcome) : Prop :=
        o = (e.fresh (e.constraintNode relation n)).value ∧ o.Decisive
      have hnode : ∀ n, e.Concludes (e.constraintNode relation n) (told n) := fun n =>
        (concludes_constraintNode relation n).known
      have hholds : ∀ n o, told n o → ((o != .positive) = false ↔ e.Holds relation n) := by
        rintro n o ⟨rfl, -⟩
        simp [Holds]
      refine (Warrants.survey fun n _ => hnode n).bind fun s _ => ?_
      split
      · next n outcome hstop =>
        refine .record (.pure fun _ htells => ?_)
        obtain ⟨-, hfail, -, hdecisive⟩ := htells.of_stop n outcome hstop
        have hnegative : outcome = .negative := by
          rcases hdecisive with rfl | hnegative
          · exact absurd hfail (by decide)
          · exact hnegative
        rw [← htells.stop_eq_none_iff hholds, hstop, hnegative]
        exact ⟨by simp [Outcome.Passes], Outcome.noConfusion⟩
      · next hstop =>
        refine .record (.pure fun _ htells => ?_)
        rw [← htells.stop_eq_none_iff hholds]
        exact ⟨iff_of_true (.inl rfl) hstop, Outcome.noConfusion⟩

/-- One node that stops a row decides, and otherwise one positive node. -/
theorem concludes_any (s : Survey) :
    e.Concludes (do
        match s.stop with
        | some (_, outcome) => return outcome
        | none => return if .positive ∈ s.passed then .positive else .notExisting)
      (Decides s) := by
  split
  · next hstop => exact .pure (.stopped hstop)
  · next hstop =>
    split
    · exact .pure (.passed hstop (.inl rfl))
    · exact .pure (.passed hstop (.inr rfl))

theorem concludes_partyRefinements (party : Party) (subject : String) :
    e.Concludes (e.partyRefinements party subject)
      (Outcome.Judges (e.PartiesHold party subject)) := by
  refine (Warrants.row (fun n _ => concludes_constraintSet .refinement n)
    (fun n o h => h.passes_iff) concludes_any).mono fun o ho => ⟨ho.1, ?_⟩
  rcases ho.2 with hpasses | ⟨n, hjudges⟩
  · rintro rfl
    exact Outcome.not_passes_iff.2 rfl hpasses
  · exact hjudges.ne_error

/-! ## Actions and duties -/

theorem concludes_actionExercised (relation : ActionRelation) (subject : String) :
    e.Concludes (e.actionExercised relation subject) (e.Exercised relation subject) := by
  unfold actionExercised
  split
  · next hmissing => exact .fault fun _ => .missing hmissing
  · next action haction =>
    refine .record (Concludes.gate (concludes_constraintSet .refinement action) ?_ (.pure _) rfl ?_)
    · exact .record (.pure fun _ hrefused _ => .refused haction hrefused)
    · let l := Lookup.action relation subject action
      have hexercised : ∀ o, o = l.outcome e.oracle ∧ o.Decisive →
          e.AllHold .refinement action → e.Exercised relation subject o := by
        rintro _ ⟨rfl, hdecisive⟩ hall
        exact .answered haction hall hdecisive
      dsimp only
      split
      · next hanswer => exact Concludes.miss (l := l) hanswer
      · next hanswer =>
        have hlookup := Concludes.answer (l := l) hanswer
        rw [Lookup.report_action] at hlookup
        exact hlookup.mono fun o ho hall _ => hexercised o ho hall

theorem Exercised.of_action {relation : ActionRelation} {subject action : String}
    {outcome : Outcome} (h : e.Exercised relation subject outcome)
    (haction : e.graph.firstObject? subject Vocabulary.action = some action) :
    ¬ e.AllHold .refinement action ∧ outcome = .notExisting ∨
      e.AllHold .refinement action ∧ outcome.Decisive ∧
        outcome = e.oracle.outcome action relation.categories := by
  cases h with
  | missing hmissing =>
      rw [haction] at hmissing
      cases hmissing
  | refused haction' hrefused =>
      obtain rfl := Option.some.inj (haction.symm.trans haction')
      exact .inl ⟨hrefused, rfl⟩
  | answered haction' hall hdecisive =>
      obtain rfl := Option.some.inj (haction.symm.trans haction')
      exact .inr ⟨hall, hdecisive, rfl⟩

/-- A duty that applies depends on its action. -/
theorem Exercised.discharged_iff {relation : DutyRelation} {node : String} {outcome : Outcome}
    {otherwise : Prop} (h : e.Exercised relation.actionRelation node outcome)
    (happlies : e.Applies node) :
    e.Discharged relation node otherwise ↔
      outcome = .positive ∨ outcome = .negative ∧ otherwise := by
  unfold Discharged
  cases h with
  | missing hmissing => simp [happlies, hmissing]
  | refused haction hrefused => simp [happlies, haction, hrefused]
  | answered haction hall hdecisive =>
      rcases hdecisive with hpositive | hnegative
      · simp [happlies, haction, hall, hpositive]
      · simp [happlies, haction, hall, hnegative]

theorem concludes_dutyUnless (relation : DutyRelation) (node : String)
    {unexercised : Evaluation Outcome} {otherwise : Prop}
    (h : e.Concludes unexercised (·.Passes ↔ otherwise)) :
    e.Concludes (e.dutyUnless relation node unexercised)
      (·.Passes ↔ e.Discharged relation node otherwise) := by
  have hnone : ∀ reason, e.Concludes (dutyResult relation node .notExisting reason)
      fun o => ¬ e.Applies node → (o.Passes ↔ e.Discharged relation node otherwise) := by
    intro reason
    refine .record (.pure fun _ hnot => iff_of_true (.inr rfl) ?_)
    exact fun happlies => absurd happlies hnot
  refine .gate (concludes_constraintSet .constraint node) ?_ (.pure _) rfl ?_
  · exact (hnone _).mono fun o ho hclosed => ho fun happlies => hclosed happlies.constraints
  refine .gate (concludes_partyRefinements .target node) ?_ (.pure _) rfl ?_
  · exact (hnone _).mono fun o ho hclosed _ => ho fun happlies => hclosed happlies.targets
  refine .gate (concludes_partyRefinements .assignee node) ?_ (.pure _) rfl ?_
  · exact (hnone _).mono fun o ho hclosed _ _ => ho fun happlies => hclosed happlies.assignees
  refine (concludes_actionExercised relation.actionRelation node).bind fun action _ => ?_
  -- behind its conditions the duty passes exactly if its action makes it
  have hbehind : ∀ {x : Evaluation Outcome},
      e.Concludes x (·.Passes ↔ action = .positive ∨ action = .negative ∧ otherwise) →
        e.Concludes x fun o => e.Exercised relation.actionRelation node action →
          e.PartiesHold .assignee node → e.PartiesHold .target node →
          e.AllHold .constraint node → (o.Passes ↔ e.Discharged relation node otherwise) := by
    intro x hx
    refine hx.mono fun o ho hexercised hassignees htargets hconstraints => ?_
    rw [ho, hexercised.discharged_iff ⟨hconstraints, htargets, hassignees⟩]
  cases action with
  | positive => exact hbehind (.record (.pure fun _ => by simp [Outcome.Passes]))
  | negative => exact hbehind (h.mono fun o ho => by simpa using ho)
  | notExisting => exact hbehind (.record (.pure fun _ => by simp [Outcome.Passes]))
  | error => exact hbehind (.pure (by simp [Outcome.Passes]))

theorem concludes_dutyAlone (relation : DutyRelation) (node : String) :
    e.Concludes (e.dutyAlone relation node) (·.Passes ↔ e.Discharged relation node False) := by
  have hunexercised : e.Concludes (dutyResult relation node .negative "action not exercised")
      (·.Passes ↔ False) := .record (.pure fun _ => by simp [Outcome.Passes])
  exact .record ((concludes_dutyUnless relation node hunexercised).mono fun _ ho _ => ho)

theorem concludes_consequences (node : String) :
    e.Concludes (e.consequences node) (·.Passes ↔ e.ConsequencesDischarged node) := by
  unfold consequences ConsequencesDischarged
  cases e.graph.objects node Vocabulary.consequence with
  | nil => exact .record (.pure fun _ => by simp [Outcome.Passes])
  | cons n ns =>
      refine (Warrants.row (fun n _ => concludes_dutyAlone .consequence n)
        (fun _ _ h => h) concludes_any).mono fun o ho => ?_
      rw [ho.1]
      simp

theorem concludes_duty (relation : DutyRelation) (withConsequences : Bool) (node : String) :
    e.Concludes (e.duty relation withConsequences node)
      (·.Passes ↔ e.DutyDischarged relation withConsequences node) := by
  cases withConsequences with
  | false =>
      refine (concludes_dutyAlone relation node).mono fun o ho => ?_
      rw [ho, DutyDischarged]
      simp
  | true =>
      have hunexercised : e.Concludes (do
            let outcome ← e.consequences node
            dutyResult relation node outcome "action not exercised, consequences evaluated")
          (·.Passes ↔ e.ConsequencesDischarged node) :=
        (concludes_consequences node).bind fun _ _ => .record (.pure fun _ ho => ho)
      refine .record ((concludes_dutyUnless relation node hunexercised).mono fun o ho _ => ?_)
      rw [ho, DutyDischarged]
      simp

theorem concludes_dutyChildren (relation : DutyRelation) (predicate : String)
    (withConsequences : Bool) (rule : String) :
    e.Concludes (e.dutyChildren relation predicate withConsequences rule)
      (·.Passes ↔ e.AllDischarged relation predicate withConsequences rule) := by
  unfold dutyChildren AllDischarged
  cases e.graph.objects rule predicate with
  | nil => exact .record (.pure fun _ => by simp [Outcome.Passes])
  | cons n ns =>
      refine (Warrants.row (fun n _ => concludes_duty relation withConsequences n)
        (fun _ _ h => h) fun s => ?_).mono fun o ho => ho.1
      split
      · next hstop => exact .record (.pure fun _ => .stopped hstop)
      · next hstop => exact .record (.pure fun _ => .passed hstop (.inl rfl))

end Evaluator

end UsagePolicy
