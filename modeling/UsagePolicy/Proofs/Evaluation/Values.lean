import Mathlib.Data.List.TakeWhile
import UsagePolicy.Proofs.Evaluation.Operations
/-!
# Values of operations

What an operation comes to on a new evaluator, in terms of what its parts come to on new evaluators
of their own. Rows of nodes are evaluated up to the first that decides, but which one that is does
not depend on how the others were evaluated.
-/

namespace UsagePolicy

/-- Satisfied, fulfilled or exercised, or nothing to be that. -/
def Outcome.Passes (o : Outcome) : Prop :=
  o = .positive ∨ o = .notExisting

theorem Outcome.passes_iff {o : Outcome} : o.Passes ↔ o.isFailure = false := by
  cases o <;> simp [Passes, isFailure]

theorem Outcome.not_passes_iff {o : Outcome} : ¬ o.Passes ↔ o.isFailure = true := by
  cases o <;> simp [Passes, isFailure]

/-- This outcome is never the oracle's answer. -/
structure Oracle.NeverAnswers (o : Oracle) (outcome : Outcome) : Prop where
  ofInstance : ∀ node, o.ofInstance node ≠ some outcome
  ofCategory : ∀ category, o.ofCategory category ≠ some outcome

theorem Oracle.NeverAnswers.answer_ne {o : Oracle} {never outcome : Outcome}
    (h : o.NeverAnswers never) {node : String} {categories : List Category}
    {source : AnswerSource} (ha : o.answer? node categories = some (outcome, source)) :
    outcome ≠ never := by
  rintro rfl
  unfold Oracle.answer? at ha
  split at ha
  · next hinstance =>
    obtain ⟨rfl, -⟩ := Prod.mk.inj (Option.some.inj ha)
    exact h.ofInstance node hinstance
  · obtain ⟨category, -, hcategory⟩ := List.exists_of_findSome?_eq_some ha
    obtain ⟨_, hdefault, heq⟩ := Option.map_eq_some_iff.1 hcategory
    obtain ⟨rfl, -⟩ := Prod.mk.inj heq
    exact h.ofCategory category hdefault

/-- The oracle answers for what exists only. -/
structure Oracle.AnswersExist (o : Oracle) : Prop where
  ofInstance : ∀ node, o.ofInstance node ≠ some .notExisting
  ofCategory : ∀ category, o.ofCategory category ≠ some .notExisting

theorem Oracle.AnswersExist.neverAnswers {o : Oracle} (h : o.AnswersExist) :
    o.NeverAnswers .notExisting :=
  ⟨h.ofInstance, h.ofCategory⟩

namespace Evaluator

/-- The value of a computation on a new evaluator. -/
structure ComesTo {α : Type} (e : Evaluator) (x : Evaluation α) (a : α) : Prop where
  settled : e.Settled x
  value_eq : (e.fresh x).value = a

variable {α β : Type} {e : Evaluator}

theorem Settled.comesTo {x : Evaluation α} (h : e.Settled x) : e.ComesTo x (e.fresh x).value :=
  ⟨h, rfl⟩

namespace ComesTo

theorem pure (a : α) : e.ComesTo (Pure.pure a) a :=
  ⟨.pure a, rfl⟩

theorem bind {x : Evaluation α} {f : α → Evaluation β} {a : α} {b : β} (hx : e.ComesTo x a)
    (hf : e.ComesTo (f a) b) : e.ComesTo (x >>= f) b := by
  obtain ⟨hx, rfl⟩ := hx
  obtain ⟨hf, rfl⟩ := hf
  have h := Evaluation.Settles.then_ hx hf
  refine ⟨.of_settles h, ?_⟩
  rw [fresh_eq h]

theorem record (kind : TraceKind) (message : String) {f : Unit → Evaluation α} {a : α}
    (hf : e.ComesTo (f ()) a) : e.ComesTo (Evaluation.record kind message >>= f) a :=
  (Settled.record kind message).comesTo.bind hf

end ComesTo

/-! ## Rows of nodes -/

/-- The survey of nodes, given the outcome of each. -/
def surveyOf (stops : Outcome → Bool) (outcome : String → Outcome) (nodes : List String) : Survey :=
  ⟨(nodes.takeWhile fun node => !stops (outcome node)).map outcome,
    (nodes.find? fun node => stops (outcome node)).map fun node => (node, outcome node)⟩

theorem comesTo_survey {stops : Outcome → Bool} {f : String → Evaluation Outcome}
    (hf : ∀ node, e.Settled (f node)) (nodes : List String) :
    e.ComesTo (.survey stops f nodes)
      (surveyOf stops (fun node => (e.fresh (f node)).value) nodes) := by
  induction nodes with
  | nil => exact .pure _
  | cons node nodes ih =>
      refine (hf node).comesTo.bind ?_
      rw [surveyOf, List.takeWhile_cons, List.find?_cons]
      cases hstop : stops (e.fresh (f node)).value with
      | true => exact .pure _
      | false => exact ih.bind (.pure _)

section Survey

variable {stops : Outcome → Bool} {v : String → Outcome} {nodes : List String}

theorem stop_surveyOf_eq_none :
    (surveyOf stops v nodes).stop = none ↔ ∀ node ∈ nodes, stops (v node) = false := by
  rw [surveyOf, Option.map_eq_none_iff, List.find?_eq_none]
  simp only [Bool.not_eq_true]

theorem stop_surveyOf_eq_some {node : String} {outcome : Outcome} :
    (surveyOf stops v nodes).stop = some (node, outcome) ↔
      v node = outcome ∧ stops outcome = true ∧
        ∃ before after, nodes = before ++ node :: after ∧
          ∀ x ∈ before, stops (v x) = false := by
  rw [surveyOf, Option.map_eq_some_iff]
  simp only [List.find?_eq_some_iff_append, Bool.not_eq_true', Prod.mk.injEq]
  constructor
  · rintro ⟨n, ⟨hstop, hsplit⟩, rfl, rfl⟩
    exact ⟨rfl, hstop, hsplit⟩
  · rintro ⟨rfl, hstop, hsplit⟩
    exact ⟨node, ⟨hstop, hsplit⟩, rfl, rfl⟩

/-- The outcome of a row that is positive unless a node stops it. -/
def rowOutcome (stops : Outcome → Bool) (v : String → Outcome) : List String → Outcome
  | [] => .notExisting
  | node :: nodes =>
    match (surveyOf stops v (node :: nodes)).stop with
    | some (_, outcome) => outcome
    | none => .positive

/-- The outcome of a row that exists if one of its nodes is positive, unless a node stops it. -/
def anyOutcome (stops : Outcome → Bool) (v : String → Outcome) (nodes : List String) : Outcome :=
  match (surveyOf stops v nodes).stop with
  | some (_, outcome) => outcome
  | none => if .positive ∈ (surveyOf stops v nodes).passed then .positive else .notExisting

/-- The node that stops a survey decides, and without one the outcome passes. -/
structure Decides (s : Survey) (o : Outcome) : Prop where
  of_stop : ∀ node outcome, s.stop = some (node, outcome) → o = outcome
  of_none : s.stop = none → o.Passes

theorem decides_rowOutcome : Decides (surveyOf stops v nodes) (rowOutcome stops v nodes) := by
  cases nodes with
  | nil => exact ⟨nofun, fun _ => .inr rfl⟩
  | cons node nodes =>
      rw [rowOutcome]
      constructor
      · intro _ _ hstop
        rw [hstop]
      · intro hstop
        rw [hstop]
        exact .inl rfl

theorem rowOutcome_eq_positive_iff (hstops : stops .positive = false) :
    rowOutcome stops v nodes = .positive ↔
      nodes ≠ [] ∧ ∀ node ∈ nodes, stops (v node) = false := by
  rw [← stop_surveyOf_eq_none]
  cases nodes with
  | nil => simp [rowOutcome]
  | cons node nodes =>
      rw [rowOutcome]
      cases hstop : (surveyOf stops v (node :: nodes)).stop with
      | none => simp
      | some s =>
          obtain ⟨n, outcome⟩ := s
          obtain ⟨-, hfail, -⟩ := stop_surveyOf_eq_some.1 hstop
          have hne : outcome ≠ .positive := by
            rintro rfl
            exact Bool.false_ne_true (hstops.symm.trans hfail)
          simp [hne]

theorem decides_anyOutcome : Decides (surveyOf stops v nodes) (anyOutcome stops v nodes) := by
  rw [anyOutcome]
  constructor
  · intro _ _ hstop
    rw [hstop]
  · intro hstop
    rw [hstop]
    dsimp only
    split
    · exact .inl rfl
    · exact .inr rfl

end Survey

namespace Decides

variable {v : String → Outcome} {nodes : List String} {o : Outcome}

theorem passes_iff (h : Decides (surveyOf Outcome.isFailure v nodes) o) :
    o.Passes ↔ ∀ node ∈ nodes, (v node).Passes := by
  have hall : (∀ node ∈ nodes, (v node).Passes) ↔
      (surveyOf Outcome.isFailure v nodes).stop = none := by
    rw [stop_surveyOf_eq_none]
    simp only [Outcome.passes_iff]
  rw [hall]
  constructor
  · intro ho
    by_contra hne
    obtain ⟨⟨node, outcome⟩, hstop⟩ := Option.ne_none_iff_exists'.1 hne
    obtain ⟨-, hfail, -⟩ := stop_surveyOf_eq_some.1 hstop
    rw [h.of_stop node outcome hstop] at ho
    exact Outcome.not_passes_iff.2 hfail ho
  · exact h.of_none

/-- A row comes to a failure if that is the first outcome to stop it. -/
theorem eq_failure_iff {stops : Outcome → Bool} {failure : Outcome}
    (h : Decides (surveyOf stops v nodes) o) (hstops : stops failure = true)
    (hfails : ¬ failure.Passes) :
    o = failure ↔
      ∃ before node after, nodes = before ++ node :: after ∧
        (∀ x ∈ before, stops (v x) = false) ∧ v node = failure := by
  constructor
  · rintro rfl
    have hne : (surveyOf stops v nodes).stop ≠ none := fun hstop => hfails (h.of_none hstop)
    obtain ⟨⟨node, outcome⟩, hstop⟩ := Option.ne_none_iff_exists'.1 hne
    obtain ⟨hv, -, before, after, hsplit, hbefore⟩ := stop_surveyOf_eq_some.1 hstop
    exact ⟨before, node, after, hsplit, hbefore, hv.trans (h.of_stop node outcome hstop).symm⟩
  · rintro ⟨before, node, after, hsplit, hbefore, hv⟩
    have hstop := stop_surveyOf_eq_some.2 ⟨hv, hstops, before, after, hsplit, hbefore⟩
    exact h.of_stop node failure hstop

theorem exists_of_not_passes (h : Decides (surveyOf Outcome.isFailure v nodes) o)
    (hfails : ¬ o.Passes) :
    ∃ before node after, nodes = before ++ node :: after ∧
      (∀ x ∈ before, (v x).Passes) ∧ ¬ (v node).Passes ∧ o = v node := by
  obtain ⟨before, node, after, hsplit, hbefore, hv⟩ :=
    (h.eq_failure_iff (Outcome.not_passes_iff.1 hfails) hfails).1 rfl
  subst hv
  exact ⟨before, node, after, hsplit, fun x hx => Outcome.passes_iff.2 (hbefore x hx), hfails, rfl⟩

theorem eq_negative_iff (h : Decides (surveyOf Outcome.isFailure v nodes) o) :
    o = .negative ↔
      ∃ before node after, nodes = before ++ node :: after ∧
        (∀ x ∈ before, (v x).Passes) ∧ v node = .negative := by
  rw [h.eq_failure_iff rfl (Outcome.not_passes_iff.2 rfl)]
  simp only [Outcome.passes_iff]

end Decides

section Passing

variable {v : String → Outcome} {nodes : List String}

theorem anyOutcome_of_passes (h : ∀ node ∈ nodes, (v node).Passes) :
    anyOutcome Outcome.isFailure v nodes =
      if ∃ node ∈ nodes, v node = .positive then .positive else .notExisting := by
  have hgoes : ∀ node ∈ nodes, (v node).isFailure = false :=
    fun node hnode => Outcome.passes_iff.1 (h node hnode)
  have hpassed : (surveyOf Outcome.isFailure v nodes).passed = nodes.map v := by
    rw [surveyOf, List.takeWhile_eq_self_iff.2 fun node hnode => by rw [hgoes node hnode]; rfl]
  rw [anyOutcome, stop_surveyOf_eq_none.2 hgoes]
  simp only [hpassed, List.mem_map]

theorem anyOutcome_eq_positive_iff :
    anyOutcome Outcome.isFailure v nodes = .positive ↔
      (∃ node ∈ nodes, v node = .positive) ∧ ∀ node ∈ nodes, (v node).Passes := by
  constructor
  · intro hpositive
    have hpasses := decides_anyOutcome.passes_iff.1 (.inl hpositive)
    rw [anyOutcome_of_passes hpasses] at hpositive
    split at hpositive
    · next hsome => exact ⟨hsome, hpasses⟩
    · cases hpositive
  · rintro ⟨hsome, hpasses⟩
    rw [anyOutcome_of_passes hpasses, if_pos hsome]

theorem anyOutcome_eq_notExisting_iff :
    anyOutcome Outcome.isFailure v nodes = .notExisting ↔
      ∀ node ∈ nodes, v node = .notExisting := by
  constructor
  · intro hnone
    have hpasses := decides_anyOutcome.passes_iff.1 (.inr hnone)
    rw [anyOutcome_of_passes hpasses] at hnone
    split at hnone
    · cases hnone
    · next hno =>
      intro node hnode
      exact (hpasses node hnode).resolve_left fun hpositive => hno ⟨node, hnode, hpositive⟩
  · intro hall
    rw [anyOutcome_of_passes fun node hnode => .inr (hall node hnode), if_neg]
    rintro ⟨node, hnode, hpositive⟩
    rw [hall node hnode] at hpositive
    cases hpositive

end Passing

/-! ## Constraints -/

/-- Nothing but an atomic constraint can be non-existing, and only by an answer of the oracle. -/
theorem constraintNode_ne_notExisting (relation : ConstraintRelation)
    (h : e.oracle.AnswersExist) (node : String) :
    (e.fresh (e.constraintNode relation node)).value ≠ .notExisting := by
  rw [fresh_constraintNode]
  cases hop : e.graph.operands? node with
  | none =>
      rw [below_atomic hop]
      unfold atomicConstraint
      split
      · exact Outcome.noConfusion
      · next hanswer => exact h.neverAnswers.answer_ne hanswer
  | some r =>
      obtain ⟨operator, operands⟩ := r
      rw [below_logical hop List.not_mem_nil]
      exact operator.outcome_ne Outcome.noConfusion Outcome.noConfusion _

theorem comesTo_constraintSet (e : Evaluator) (relation : ConstraintRelation) (subject : String) :
    e.ComesTo (e.constraintSet relation subject)
      (rowOutcome (· != .positive) (fun node => (e.fresh (e.constraintNode relation node)).value)
        (e.graph.objects subject relation.iri)) := by
  unfold constraintSet
  cases e.graph.objects subject relation.iri with
  | nil => exact .record _ _ (.pure _)
  | cons node nodes =>
      refine (comesTo_survey (e.settled_constraintNode relation) (node :: nodes)).bind ?_
      rw [rowOutcome]
      cases (surveyOf _ _ (node :: nodes)).stop with
      | none => exact .record _ _ (.pure _)
      | some s => exact .record _ _ (.pure _)

/-- A set that passes has satisfied nodes only, or one that does not exist. -/
theorem positive_of_constraintSet_passes {relation : ConstraintRelation} {subject : String}
    (hexist : ∀ node, (e.fresh (e.constraintNode relation node)).value ≠ .notExisting)
    (h : (e.fresh (e.constraintSet relation subject)).value.Passes) :
    ∀ node ∈ e.graph.objects subject relation.iri,
      (e.fresh (e.constraintNode relation node)).value = .positive := by
  rw [(e.comesTo_constraintSet relation subject).value_eq] at h
  have hstop : (surveyOf (· != .positive)
      (fun node => (e.fresh (e.constraintNode relation node)).value)
      (e.graph.objects subject relation.iri)).stop = none := by
    by_contra hne
    obtain ⟨⟨node, outcome⟩, hstop⟩ := Option.ne_none_iff_exists'.1 hne
    rw [decides_rowOutcome.of_stop node outcome hstop] at h
    obtain ⟨hv, hneg, -⟩ := stop_surveyOf_eq_some.1 hstop
    rcases h with h | h
    · exact bne_iff_ne.1 hneg h
    · exact hexist node (hv.trans h)
  intro node hnode
  simpa using stop_surveyOf_eq_none.1 hstop node hnode

/-! ## Parties and duties -/

theorem comesTo_partyRefinements (e : Evaluator) (party : Party) (subject : String) :
    e.ComesTo (e.partyRefinements party subject)
      (anyOutcome Outcome.isFailure
        (fun node => (e.fresh (e.constraintSet .refinement node)).value)
        (e.graph.objects subject party.iri)) := by
  refine (comesTo_survey (e.settled_constraintSet .refinement) _).bind ?_
  rw [anyOutcome]
  cases (surveyOf _ _ (e.graph.objects subject party.iri)).stop with
  | none => exact .pure _
  | some s => exact .pure _

theorem comesTo_dutyChildren (e : Evaluator) (relation : DutyRelation) (predicate : String)
    (withConsequences : Bool) (rule : String) :
    e.ComesTo (e.dutyChildren relation predicate withConsequences rule)
      (rowOutcome Outcome.isFailure
        (fun node => (e.fresh (e.duty relation withConsequences node)).value)
        (e.graph.objects rule predicate)) := by
  unfold dutyChildren
  cases e.graph.objects rule predicate with
  | nil => exact .record _ _ (.pure _)
  | cons node nodes =>
      refine (comesTo_survey (e.settled_duty relation withConsequences) (node :: nodes)).bind ?_
      rw [rowOutcome]
      cases (surveyOf _ _ (node :: nodes)).stop with
      | none => exact .record _ _ (.pure _)
      | some s => exact .record _ _ (.pure _)

end Evaluator

end UsagePolicy
