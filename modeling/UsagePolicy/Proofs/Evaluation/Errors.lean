import UsagePolicy.Proofs.Evaluation.Warranting
/-!
# Recorded errors

Where an error begins, it is recorded: a relation is missing, the oracle has no answer, or a
constraint is met while it is open. What is decided as an error can be traced back to such an entry,
with one exception. A duty whose action does not exist is an error, and is recorded as a result.
-/

namespace UsagePolicy

/-- The entry for a duty whose action does not exist. -/
def absentActionEntry (relation : DutyRelation) (node : String) : TraceEntry :=
  let status := Facet.duty.label .error
  let reason := "action does not exist"
  ⟨.result, s!"Evaluation of {relation.name} instance '{node}', status = {status} ({reason})"⟩

namespace Evaluator

variable {α : Type} {e : Evaluator}

/-- An entry for an error, or for a duty whose action does not exist. -/
def Shows (e : Evaluator) (entry : TraceEntry) : Prop :=
  entry.kind = .error ∨
    ∃ relation node, entry = absentActionEntry relation node ∧
      (e.fresh (e.actionExercised relation.actionRelation node)).value = .notExisting

/-- A computation that comes to this value has recorded why. -/
def Accounts (e : Evaluator) (x : Evaluation α) (failed : α) : Prop :=
  e.Warrants (¬ e.Shows ·) x (· ≠ failed)

namespace Accounts

theorem shown {x : Evaluation α} {failed : α} (hx : e.Accounts x failed)
    (hfailed : (e.fresh x).value = failed) : ∃ entry ∈ (e.fresh x).trace, e.Shows entry := by
  by_contra hnone
  exact hx.holds (fun entry hentry hshows => hnone ⟨entry, hentry, hshows⟩) hfailed

theorem pure {a failed : α} (h : a ≠ failed) : e.Accounts (Pure.pure a) failed :=
  Warrants.pure h

theorem fault (f : EvaluationFault) (failed : Outcome) :
    e.Accounts (.fault f) failed :=
  Warrants.fault fun hsilent => absurd (.inl rfl) hsilent

theorem record {kind : TraceKind} {message : String} {f : Unit → Evaluation α} {failed : α}
    (hf : e.Accounts (f ()) failed) : e.Accounts (Evaluation.record kind message >>= f) failed :=
  Warrants.record (hf.mono fun _ h _ => h)

/-- The error of a part is the only way to the error of the whole. -/
theorem guard {x : Evaluation Outcome} {f : Outcome → Evaluation α} {failed : α}
    (hx : e.Accounts x .error) (hnegative : e.Accounts (f .negative) failed)
    (herror : e.Settled (f .error)) (hsame : f .notExisting = f .positive)
    (hpositive : e.Accounts (f .positive) failed) : e.Accounts (x >>= f) failed :=
  Warrants.guard hx (hnegative.mono fun _ h _ => h) ⟨herror, fun _ h => absurd rfl h⟩ hsame
    (hpositive.mono fun _ h _ => h)

/-- Only the outcome of a node that stops a survey can be an error. -/
theorem survey {stops : Outcome → Bool} {f : String → Evaluation Outcome} {nodes : List String}
    (hf : ∀ node ∈ nodes, e.Accounts (f node) .error) {g : Survey → Evaluation α} {failed : α}
    (hg : ∀ s : Survey, e.Warrants (¬ e.Shows ·) (g s) fun a =>
      (∀ node outcome, s.stop = some (node, outcome) → outcome ≠ .error) → a ≠ failed) :
    e.Accounts (.survey stops f nodes >>= g) failed := by
  refine (Warrants.survey hf).bind fun s _ => (hg s).mono fun a ha htells => ha ?_
  intro node outcome hstop
  exact (htells.of_stop node outcome hstop).2.2

end Accounts

/-! ## Constraints and actions -/

section

variable (h : e.oracle.NeverAnswers .error)
include h

theorem accounts_atomicConstraint (relation : ConstraintRelation) (node : String) :
    e.Accounts (e.atomicConstraint relation node) .error := by
  unfold atomicConstraint
  split
  · exact .fault _ _
  · next hanswer => exact .record (.pure (h.answer_ne hanswer))

theorem accounts_constraintNode (relation : ConstraintRelation) (node : String) :
    e.Accounts (e.constraintNode relation node) .error := by
  refine Warrants.constraintNode (accounts_atomicConstraint h relation node) ?_
  exact fun operator operands =>
    operator.outcome_ne Outcome.noConfusion Outcome.noConfusion operands

theorem accounts_constraintSet (relation : ConstraintRelation) (subject : String) :
    e.Accounts (e.constraintSet relation subject) .error := by
  unfold constraintSet
  cases e.graph.objects subject relation.iri with
  | nil => exact .record (.pure Outcome.noConfusion)
  | cons node nodes =>
      refine .survey (fun n _ => accounts_constraintNode h relation n) fun s => ?_
      split
      · next hstop =>
        exact Warrants.record (.pure fun _ hs => hs _ _ hstop)
      · exact Warrants.record (.pure fun _ _ => Outcome.noConfusion)

theorem accounts_partyRefinements (party : Party) (subject : String) :
    e.Accounts (e.partyRefinements party subject) .error := by
  refine .survey (fun n _ => accounts_constraintSet h .refinement n) fun s => ?_
  split
  · next hstop => exact .pure fun hs => hs _ _ hstop
  · split
    · exact .pure fun _ => Outcome.noConfusion
    · exact .pure fun _ => Outcome.noConfusion

theorem accounts_actionExercised (relation : ActionRelation) (subject : String) :
    e.Accounts (e.actionExercised relation subject) .error := by
  unfold actionExercised
  split
  · exact .fault _ _
  · next action _ =>
    refine .record (.guard (accounts_constraintSet h .refinement action) ?_ (.pure _) rfl ?_)
    · exact .record (.pure Outcome.noConfusion)
    · dsimp only
      split
      · exact .fault _ _
      · next hanswer => exact .record (.pure (h.answer_ne hanswer))

/-! ## Duties -/

theorem accounts_dutyUnless (relation : DutyRelation) (node : String)
    {unexercised : Evaluation Outcome} (hunexercised : e.Accounts unexercised .error) :
    e.Accounts (e.dutyUnless relation node unexercised) .error := by
  have hresult : ∀ outcome reason, outcome ≠ .error →
      e.Accounts (dutyResult relation node outcome reason) .error :=
    fun outcome reason ho => .record (.pure ho)
  refine .guard (accounts_constraintSet h .constraint node)
    (hresult _ _ Outcome.noConfusion) (.pure _) rfl ?_
  refine .guard (accounts_partyRefinements h .target node)
    (hresult _ _ Outcome.noConfusion) (.pure _) rfl ?_
  refine .guard (accounts_partyRefinements h .assignee node)
    (hresult _ _ Outcome.noConfusion) (.pure _) rfl ?_
  refine (accounts_actionExercised h relation.actionRelation node).bind fun action haction => ?_
  cases action with
  | positive => exact (hresult _ _ Outcome.noConfusion).mono fun _ ho _ => ho
  | negative => exact hunexercised.mono fun _ ho _ => ho
  | notExisting =>
      -- the one error without an entry of its kind
      have hshows : e.Shows (absentActionEntry relation node) :=
        .inr ⟨relation, node, rfl, haction⟩
      exact Warrants.record (.pure fun hsilent => absurd hshows hsilent)
  | error => exact .pure fun herror => absurd rfl herror

theorem accounts_dutyAlone (relation : DutyRelation) (node : String) :
    e.Accounts (e.dutyAlone relation node) .error :=
  .record (accounts_dutyUnless h relation node (.record (.pure Outcome.noConfusion)))

theorem accounts_consequences (node : String) : e.Accounts (e.consequences node) .error := by
  unfold consequences
  cases e.graph.objects node Vocabulary.consequence with
  | nil => exact .record (.pure Outcome.noConfusion)
  | cons n ns =>
      refine .survey (fun n _ => accounts_dutyAlone h .consequence n) fun s => ?_
      split
      · next hstop => exact .pure fun hs => hs _ _ hstop
      · split
        · exact .pure fun _ => Outcome.noConfusion
        · exact .pure fun _ => Outcome.noConfusion

theorem accounts_duty (relation : DutyRelation) (withConsequences : Bool) (node : String) :
    e.Accounts (e.duty relation withConsequences node) .error := by
  cases withConsequences with
  | false => exact accounts_dutyAlone h relation node
  | true =>
      refine .record (accounts_dutyUnless h relation node ?_)
      exact (accounts_consequences h node).bind fun _ _ => Warrants.record (.pure fun _ ho => ho)

theorem accounts_dutyChildren (relation : DutyRelation) (predicate : String)
    (withConsequences : Bool) (rule : String) :
    e.Accounts (e.dutyChildren relation predicate withConsequences rule) .error := by
  unfold dutyChildren
  cases e.graph.objects rule predicate with
  | nil => exact .record (.pure Outcome.noConfusion)
  | cons node nodes =>
      refine .survey (fun n _ => accounts_duty h relation withConsequences n) fun s => ?_
      split
      · next hstop => exact Warrants.record (.pure fun _ hs => hs _ _ hstop)
      · exact Warrants.record (.pure fun _ _ => Outcome.noConfusion)

/-! ## Rules -/

omit h in
theorem accounts_ofDuties {duties : Evaluation Outcome} (hduties : e.Accounts duties .error) :
    e.Accounts (do return ofDuties (← duties)) (.decided .error) := by
  refine hduties.bind fun outcome _ => .pure fun ho => ?_
  cases outcome with
  | positive => simp [ofDuties]
  | negative => simp [ofDuties]
  | notExisting => simp [ofDuties]
  | error => exact absurd rfl ho

theorem accounts_partyGate (party : Party) (rule : String) :
    e.Accounts (e.partyGate party rule) (some (.decided .error)) :=
  .guard (accounts_partyRefinements h party rule) (.pure (by simp)) (.pure _) rfl
    (.pure (by simp))

theorem accounts_gate (rule : String) : e.Accounts (e.gate rule) (some (.decided .error)) := by
  refine .guard (accounts_constraintSet h .constraint rule) (.pure (by simp)) (.pure _) rfl ?_
  refine (accounts_partyGate h .target rule).bind fun verdict? _ => ?_
  split
  · exact .pure id
  · exact (accounts_partyGate h .assignee rule).mono fun _ hv _ => hv

theorem accounts_behindGates {rule : String} {continue_ : String → Evaluation Verdict}
    (hcontinue : ∀ action, e.Accounts (continue_ action) (.decided .error)) :
    e.Accounts (e.behindGates rule continue_) (.decided .error) := by
  refine (accounts_gate h rule).bind fun verdict? _ => ?_
  split
  · exact .pure fun hv herror => hv (by rw [herror])
  · split
    · exact Warrants.record (.pure fun _ _ => Verdict.noConfusion)
    · exact (hcontinue _).mono fun _ hv _ => hv

theorem accounts_permission (rule : String) :
    e.Accounts (e.permission rule) (.decided .error) := by
  refine .record ((accounts_behindGates h fun action => ?_).conclude _ _)
  refine .guard (accounts_constraintSet h .refinement action) (.pure Verdict.noConfusion)
    (.pure _) rfl ?_
  exact .record (accounts_ofDuties (accounts_dutyChildren h _ _ _ _))

theorem accounts_prohibition (rule : String) :
    e.Accounts (e.prohibition rule) (.decided .error) := by
  refine .record ((accounts_behindGates h fun action => ?_).conclude _ _)
  refine (accounts_actionExercised h .prohibition rule).bind fun exercised _ => ?_
  cases exercised with
  | positive =>
      have hremedies : e.Accounts (e.prohibitionRemedies rule) (.decided .error) :=
        .record (accounts_ofDuties (accounts_dutyChildren h _ _ _ _))
      exact hremedies.mono fun _ hv _ => hv
  | negative => exact .pure fun _ => by simp
  | notExisting => exact .pure fun _ => Verdict.noConfusion
  | error => exact .pure fun herror => absurd rfl herror

theorem accounts_obligation (round : Round) (rule : String) :
    e.Accounts (e.obligation round rule) (.decided .error) := by
  refine .record ((accounts_duty h _ _ _).bind fun outcome _ => ?_)
  have hconclude := e.comesTo_conclude .obligation rule (.decided outcome)
  refine .of_value hconclude.settled fun ho => ?_
  rw [hconclude.value_eq]
  simpa using ho

end

end Evaluator

/-- An oracle that does not answer with errors leaves an entry behind every rule that is decided as
an error: one for an error, or one for a duty whose action does not exist. -/
theorem error_recorded (g : Graph) (oracle : Oracle) (round : Round) (rule : String)
    (h : oracle.NeverAnswers .error) :
    let e : Evaluator := ⟨g, oracle, round⟩
    ∀ x ∈ [e.permission rule, e.prohibition rule, e.obligation .first rule,
        e.obligation .second rule],
      (e.fresh x).value = .decided .error →
        (∃ entry ∈ (e.fresh x).trace, entry.kind = .error) ∨
        ∃ relation node, absentActionEntry relation node ∈ (e.fresh x).trace ∧
          (e.fresh (e.actionExercised relation.actionRelation node)).value = .notExisting := by
  intro e x hx herror
  have haccounts : e.Accounts x (.decided .error) := by
    simp only [List.mem_cons, List.not_mem_nil, or_false] at hx
    rcases hx with rfl | rfl | rfl | rfl
    · exact Evaluator.accounts_permission h rule
    · exact Evaluator.accounts_prohibition h rule
    · exact Evaluator.accounts_obligation h .first rule
    · exact Evaluator.accounts_obligation h .second rule
  obtain ⟨entry, hentry, hkind | ⟨relation, node, rfl, habsent⟩⟩ := haccounts.shown herror
  · exact .inl ⟨entry, hentry, hkind⟩
  · exact .inr ⟨relation, node, hentry, habsent⟩

/-- A permission whose duty has no action. -/
theorem error_recorded_missingAction :
    let g : Graph := .ofList
      [⟨"urn:p", Vocabulary.action, "urn:use"⟩, ⟨"urn:p", Vocabulary.duty, "urn:d"⟩]
    let oracle := (Presets.uniform .positive).oracle
    let e : Evaluator := ⟨g, oracle, .first⟩
    let t := e.fresh (e.permission "urn:p")
    oracle.NeverAnswers .error ∧ t.value = .decided .error ∧
    ((∃ entry ∈ t.trace, entry.kind = .error) ∨
      ∃ relation node, absentActionEntry relation node ∈ t.trace ∧
        (e.fresh (e.actionExercised relation.actionRelation node)).value = .notExisting) := by
  intro g oracle e t
  have hanswers : oracle.NeverAnswers .error := by
    constructor
    · simp [oracle, Presets.uniform]
    · simp [oracle, Presets.uniform]
  have herror : t.value = .decided .error := by decide +kernel
  exact ⟨hanswers, herror,
    error_recorded g oracle .first "urn:p" hanswers _ List.mem_cons_self herror⟩

/-- An obligation whose action is refined, and the refinement is not satisfied: it is decided as an
error, and no entry says so by its kind. -/
theorem error_without_error_entry :
    let g : Graph := .ofList
      [⟨"urn:ob", Vocabulary.action, "urn:pay"⟩, ⟨"urn:pay", Vocabulary.refinement, "urn:r"⟩]
    let oracle := (Presets.empty.setInstance "urn:r" .negative).oracle
    let e : Evaluator := ⟨g, oracle, .first⟩
    let t := e.fresh (e.obligation .first "urn:ob")
    oracle.NeverAnswers .error ∧ t.value = .decided .error ∧
      ∀ entry ∈ t.trace, entry.kind ≠ .error := by
  intro g oracle e t
  have hanswers : oracle.NeverAnswers .error := by
    refine ⟨fun node => ?_, nofun⟩
    rw [Presets.oracle_ofInstance, Presets.instances_setInstance]
    split
    · simp
    · simp [Presets.empty]
  have herror : t.value = .decided .error := by decide +kernel
  have htrace : ∀ entry ∈ t.trace, entry.kind ≠ .error := by decide +kernel
  exact ⟨hanswers, herror, htrace⟩

end UsagePolicy
