import UsagePolicy.Proofs.Evaluation.Duties
import UsagePolicy.Proofs.Evaluation.Warranting
import UsagePolicy.Proofs.Text.Appending
import UsagePolicy.Proofs.Text.Labels
/-!
# Lookups

An evaluator asks its oracle about atomic constraints and about actions, and each time it records an
entry that tells the answer. Whatever the nodes are called, the outcome can be read off the entry.
So the trace of a run tells whether the oracle answered positively or negatively throughout.
-/

namespace UsagePolicy

/-- A positive or negative outcome. -/
def Outcome.Decisive (o : Outcome) : Prop :=
  o = .positive ∨ o = .negative

/-- A question to the oracle: about a constraint, or about the action of a subject. -/
inductive Lookup
  | constraint (relation : ConstraintRelation) (node : String)
  | action (relation : ActionRelation) (subject node : String)

namespace Lookup

def node : Lookup → String
  | constraint _ node => node
  | action _ _ node => node

def categories : Lookup → List Category
  | constraint relation _ => [relation.category]
  | action relation _ _ => relation.categories

/-- The category that is named when no answer is found. -/
def leadingCategory : Lookup → Category
  | constraint relation _ => relation.category
  | action relation _ _ => relation.leadingCategory

def facet : Lookup → Facet
  | constraint _ _ => .constraint
  | action _ _ _ => .action

def answer? (o : Oracle) (l : Lookup) : Option (Outcome × AnswerSource) :=
  o.answer? l.node l.categories

/-- The answer's outcome, or an error if there is none. -/
def outcome (o : Oracle) (l : Lookup) : Outcome :=
  o.outcome l.node l.categories

/-- How the entry for an answer begins. -/
def heading : Lookup → String
  | constraint relation node =>
    s!"Evaluation of Constraint instance '{node}' (a {relation.name}), " ++ "status = "
  | action relation subject node => s!"Action '{node}' of {relation.name} '{subject}', status = "

def report (l : Lookup) (outcome : Outcome) (source : AnswerSource) : String :=
  l.heading ++ l.facet.label outcome ++ " (" ++ (source.text ++ ")")

/-- The entry for a lookup and its answer. -/
def entry (o : Oracle) (l : Lookup) : TraceEntry :=
  match l.answer? o with
  | none => ⟨.error, (EvaluationFault.oracleMiss l.node l.leadingCategory).message⟩
  | some (outcome, source) => ⟨.result, l.report outcome source⟩

theorem report_constraint (relation : ConstraintRelation) (node : String) (outcome : Outcome)
    (source : AnswerSource) :
    let status := Facet.constraint.label outcome
    (constraint relation node).report outcome source =
      s!"Evaluation of Constraint instance '{node}' (a {relation.name}), " ++
        s!"status = {status} ({source.text})" := by
  unfold report heading
  simp only [String.append_assoc]
  rfl

theorem report_action (relation : ActionRelation) (subject node : String) (outcome : Outcome)
    (source : AnswerSource) :
    let status := Facet.action.label outcome
    (action relation subject node).report outcome source =
      s!"Action '{node}' of {relation.name} '{subject}', status = {status} " ++
        s!"({source.text})" := by
  unfold report heading
  simp only [String.append_assoc]
  rfl

end Lookup

/-- Whatever lookup an entry is about, it was answered positively or negatively. -/
def Oracle.Conclusive (o : Oracle) (entry : TraceEntry) : Prop :=
  ∀ l : Lookup, l.entry o = entry → (l.outcome o).Decisive

/-! ## Entries tell answers -/

namespace Lookup

variable {o o' : Oracle} {l l' : Lookup}

theorem outcome_eq (o : Oracle) (l : Lookup) :
    l.outcome o = ((l.answer? o).map Prod.fst).getD .error :=
  rfl

theorem getLast?_heading (l : Lookup) : l.heading.toList.getLast? = some ' ' := by
  cases l with
  | constraint relation node =>
      show (_ ++ "status = ").toList.getLast? = some ' '
      simp
  | action relation subject node =>
      show (_ ++ "', status = ").toList.getLast? = some ' '
      simp

/-- Answers about constraints begin unlike answers about actions. -/
theorem facet_eq_of_heading_eq (h : l.heading = l'.heading) : l.facet = l'.facet := by
  have hne : ∀ relation node relation' subject' node',
      (constraint relation node).heading ≠ (action relation' subject' node').heading := by
    intro relation node relation' subject' node' h
    unfold heading at h
    dsimp only at h
    simp only [String.append_assoc] at h
    exact Text.append_ne_append (by decide) (by decide) _ _ h
  cases l with
  | constraint relation node =>
      cases l' with
      | constraint => rfl
      | action => exact absurd h (hne _ _ _ _ _)
  | action relation subject node =>
      cases l' with
      | constraint => exact absurd h.symm (hne _ _ _ _ _)
      | action => rfl

/-- An entry tells the outcome of the lookup that it is about. -/
theorem outcome_eq_of_entry_eq (h : l.entry o = l'.entry o') : l.outcome o = l'.outcome o' := by
  rw [outcome_eq, outcome_eq]
  unfold entry at h
  split at h
  · next hanswer =>
    split at h
    · next hanswer' => rw [hanswer, hanswer']
    · exact TraceKind.noConfusion (congrArg TraceEntry.kind h)
  · next outcome source hanswer =>
    split at h
    · exact TraceKind.noConfusion (congrArg TraceEntry.kind h)
    · next outcome' source' hanswer' =>
      -- behind the last parenthesis is the source, and before it the label behind a blank
      have hparen : ∀ x : String, (x ++ " (").toList.getLast? = some '(' := by simp
      have hstatus := (Text.append_inj_of_lastMark source.paren_not_mem_text
        source'.paren_not_mem_text (hparen _) (hparen _) (congrArg TraceEntry.message h)).1
      obtain ⟨hheading, hlabel⟩ := Text.append_inj_of_lastMark (l.facet.blank_not_mem_label outcome)
        (l'.facet.blank_not_mem_label outcome') l.getLast?_heading l'.getLast?_heading
        ((String.append_left_inj _).1 hstatus)
      rw [facet_eq_of_heading_eq hheading] at hlabel
      rw [hanswer, hanswer']
      exact l'.facet.label_injective hlabel

end Lookup

theorem Oracle.conclusive_entry_iff {o : Oracle} {l : Lookup} :
    o.Conclusive (l.entry o) ↔ (l.outcome o).Decisive := by
  constructor
  · intro h
    exact h l rfl
  · intro h l' hentry
    rw [Lookup.outcome_eq_of_entry_eq hentry]
    exact h

/-- An oracle that is decisive about all nodes and categories is conclusive. -/
theorem Oracle.conclusive_of_decisive {o : Oracle}
    (hinstance : ∀ node outcome, o.ofInstance node = some outcome → outcome.Decisive)
    (hcategory : ∀ c, ∃ outcome, o.ofCategory c = some outcome ∧ outcome.Decisive)
    (entry : TraceEntry) : o.Conclusive entry := by
  rintro l -
  have hcategories : ∃ c cs, l.categories = c :: cs := by
    cases l with
    | constraint relation _ => exact ⟨_, _, rfl⟩
    | action relation _ _ => cases relation <;> exact ⟨_, _, rfl⟩
  obtain ⟨c, cs, hcs⟩ := hcategories
  obtain ⟨outcome, hdefault, hdecisive⟩ := hcategory c
  rw [Lookup.outcome, Oracle.outcome, Oracle.answer?]
  cases hnode : o.ofInstance l.node with
  | some outcome => exact hinstance _ _ hnode
  | none =>
      rw [hcs, List.findSome?_cons, hdefault]
      exact hdecisive

/-! ## Conclusive runs -/

namespace Evaluator

variable {α : Type} {e : Evaluator} {l : Lookup}

/-- The condition holds of the value if all lookups are answered positively or negatively. -/
abbrev Concludes (e : Evaluator) (x : Evaluation α) (condition : α → Prop) : Prop :=
  e.Warrants e.oracle.Conclusive x condition

namespace Concludes

/-- A lookup without an answer is never conclusive. -/
theorem miss (h : l.answer? e.oracle = none) {p : Outcome → Prop} :
    e.Concludes (.fault (.oracleMiss l.node l.leadingCategory)) p := by
  refine .fault fun hconclusive => ?_
  have hentry : l.entry e.oracle =
      ⟨.error, (EvaluationFault.oracleMiss l.node l.leadingCategory).message⟩ := by
    rw [Lookup.entry, h]
  rw [← hentry, Oracle.conclusive_entry_iff, Lookup.outcome_eq, h] at hconclusive
  rcases hconclusive with hpositive | hnegative
  · exact Outcome.noConfusion hpositive
  · exact Outcome.noConfusion hnegative

theorem answer {outcome : Outcome} {source : AnswerSource}
    (h : l.answer? e.oracle = some (outcome, source)) :
    e.Concludes (do
        .result (l.report outcome source)
        return outcome)
      fun o => o = l.outcome e.oracle ∧ o.Decisive := by
  refine .record (.pure fun hconclusive => ?_)
  have houtcome : l.outcome e.oracle = outcome := by
    rw [Lookup.outcome_eq, h]
    rfl
  have hentry : l.entry e.oracle = ⟨.result, l.report outcome source⟩ := by
    rw [Lookup.entry, h]
  rw [← hentry, Oracle.conclusive_entry_iff, houtcome] at hconclusive
  rw [houtcome]
  exact ⟨rfl, hconclusive⟩

end Concludes

theorem concludes_atomicConstraint (relation : ConstraintRelation) (node : String) :
    e.Concludes (e.atomicConstraint relation node) Outcome.Decisive := by
  let l := Lookup.constraint relation node
  unfold atomicConstraint
  split
  · next hanswer => exact Concludes.miss (l := l) hanswer
  · next outcome source hanswer =>
    have hlookup := Concludes.answer (l := l) hanswer
    rw [Lookup.report_constraint] at hlookup
    exact hlookup.mono fun _ h => h.2

end Evaluator

end UsagePolicy
