import Mathlib.Data.List.Forall2
import Mathlib.Data.Set.Defs
import UsagePolicy.Evaluation.Session
import UsagePolicy.Proofs.Evaluation.Nesting
/-!
# Coinciding evaluations

Two computations coincide if on new evaluators they come to the same value by the same events, or
by events that correspond to each other in order. An operation is determined by what it reads and by
its parts: where two evaluators read the same and the parts coincide, so does the operation. How
each part comes to coincide is left open, and so is which events correspond, as long as each event
corresponds to itself.
-/

namespace UsagePolicy

variable {R : Event → Event → Prop} {α β : Type}

/-! ## Corresponding traces -/

/-- The same value by events that correspond in order. -/
structure Traced.Corresponds (R : Event → Event → Prop) (t t' : Traced α) : Prop where
  value_eq : t'.value = t.value
  events : List.Forall₂ R t.journal t'.journal

namespace Traced.Corresponds

theorem eq {t t' : Traced α} (h : t.Corresponds Eq t') : t' = t := by
  have hevents := h.events
  rw [List.forall₂_eq_eq_eq] at hevents
  obtain ⟨value, journal⟩ := t
  obtain ⟨value', journal'⟩ := t'
  exact congrArg₂ Traced.mk h.value_eq hevents.symm

theorem same [Std.Refl R] (t : Traced α) : t.Corresponds R t :=
  ⟨rfl, List.forall₂_refl _⟩

theorem record {kind : TraceKind} {message message' : String}
    (h : R (.entry ⟨kind, message⟩) (.entry ⟨kind, message'⟩)) :
    (Traced.record kind message).Corresponds R (Traced.record kind message') :=
  ⟨rfl, .cons h .nil⟩

theorem bind {t t' : Traced α} {f f' : α → Traced β} (h : t.Corresponds R t')
    (hf : (f t.value).Corresponds R (f' t.value)) : (t >>= f).Corresponds R (t' >>= f') := by
  have hlater : (f t.value).Corresponds R (f' t'.value) := by
    rw [h.value_eq]
    exact hf
  exact ⟨hlater.value_eq, List.rel_append hlater.events h.events⟩

theorem mapM {t t' : String → Traced α} {xs : List String}
    (h : ∀ x ∈ xs, (t x).Corresponds R (t' x)) : (xs.mapM t).Corresponds R (xs.mapM t') := by
  induction xs with
  | nil => exact ⟨rfl, .nil⟩
  | cons x xs ih =>
      rw [List.mapM_cons, List.mapM_cons]
      have hrest := ih fun y hy => h y (List.mem_cons_of_mem x hy)
      exact (h x List.mem_cons_self).bind (hrest.bind ⟨rfl, .nil⟩)

theorem enclosed [Std.Refl R] {t t' : Traced α} (h : t.Corresponds R t') (node : String) :
    (t.enclosed node).Corresponds R (t'.enclosed node) :=
  ⟨h.value_eq, .cons (refl Event.closed) (List.rel_append h.events (List.forall₂_refl _))⟩

end Traced.Corresponds
/-- The operators make the same of all operands, and what is written about them corresponds. -/
structure Operator.Corresponds (R : Event → Event → Prop) (op op' : Operator) : Prop where
  outcome_eq : ∀ outcomes, op'.outcome outcomes = op.outcome outcomes
  heading : ∀ node total,
    R (.entry ⟨.nextStep, op.heading node total⟩) (.entry ⟨.nextStep, op'.heading node total⟩)
  summary : ∀ node outcomes,
    R (.entry ⟨.result, op.summary node outcomes⟩) (.entry ⟨.result, op'.summary node outcomes⟩)

theorem Operator.Corresponds.same [Std.Refl R] (op : Operator) : op.Corresponds R op :=
  ⟨fun _ => rfl, fun _ _ => refl _, fun _ _ => refl _⟩

namespace Evaluator

/-- On a new evaluator each, the computations come to the same value by corresponding events. -/
def CoincideUpTo (R : Event → Event → Prop) (e e' : Evaluator) (x x' : Evaluation α) : Prop :=
  ∃ t t', x.Settles e.graph e.graph.allowance [] t ∧
    x'.Settles e'.graph e'.graph.allowance [] t' ∧ t.Corresponds R t'

/-- On a new evaluator each, the computations come to the same value by the same events. -/
abbrev Coincide (e e' : Evaluator) (x x' : Evaluation α) : Prop :=
  CoincideUpTo Eq e e' x x'

variable {e e' : Evaluator}

theorem logicalTraced_corresponds {node : String} {operator operator' : Operator}
    {operands : List String} {evaluate evaluate' : String → Traced Outcome}
    (hoperator : operator.Corresponds R operator')
    (hevaluate : ∀ child ∈ operands, (evaluate child).Corresponds R (evaluate' child)) :
    (logicalTraced node operator operands evaluate).Corresponds R
      (logicalTraced node operator' operands evaluate') := by
  refine (Traced.Corresponds.record (hoperator.heading _ _)).bind ?_
  refine (Traced.Corresponds.mapM hevaluate).bind ?_
  refine (Traced.Corresponds.record (hoperator.summary _ _)).bind ?_
  exact ⟨hoperator.outcome_eq _, .nil⟩

namespace CoincideUpTo

theorem fresh_corresponds {x x' : Evaluation α} (h : CoincideUpTo R e e' x x') :
    (e.fresh x).Corresponds R (e'.fresh x') := by
  obtain ⟨t, t', hx, hx', ht⟩ := h
  have hfresh : e.fresh x = t := hx.traced_eq (Nat.le_refl _)
  have hfresh' : e'.fresh x' = t' := hx'.traced_eq (Nat.le_refl _)
  rw [hfresh, hfresh']
  exact ht

theorem fresh_eq {x x' : Evaluation α} (h : Coincide e e' x x') : e'.fresh x' = e.fresh x :=
  h.fresh_corresponds.eq

/-- What follows has to coincide only after the value that the first part comes to. -/
theorem bind_fresh {x x' : Evaluation α} {f f' : α → Evaluation β}
    (hx : CoincideUpTo R e e' x x')
    (hf : CoincideUpTo R e e' (f (e.fresh x).value) (f' (e.fresh x).value)) :
    CoincideUpTo R e e' (x >>= f) (x' >>= f') := by
  obtain ⟨t, t', hsettles, hsettles', ht⟩ := hx
  have hfresh : e.fresh x = t := hsettles.traced_eq (Nat.le_refl _)
  rw [hfresh] at hf
  obtain ⟨u, u', hu, hu', hfollows⟩ := hf
  rw [← ht.value_eq] at hu'
  have hboth : (t >>= fun _ => u).Corresponds R (t' >>= fun _ => u') := ht.bind hfollows
  exact ⟨_, _, hsettles.then_ hu, hsettles'.then_ hu', hboth⟩

theorem bind {x x' : Evaluation α} {f f' : α → Evaluation β} (hx : CoincideUpTo R e e' x x')
    (hf : ∀ a, CoincideUpTo R e e' (f a) (f' a)) : CoincideUpTo R e e' (x >>= f) (x' >>= f') :=
  hx.bind_fresh (hf _)

theorem map {x x' : Evaluation α} (f : α → β) (hx : CoincideUpTo R e e' x x') :
    CoincideUpTo R e e' (f <$> x) (f <$> x') := by
  obtain ⟨t, t', hsettles, hsettles', ht⟩ := hx
  exact ⟨_, _, hsettles.map f, hsettles'.map f, congrArg f ht.value_eq, ht.events⟩

/-- Without a failure an evaluation goes on, whether the outcome exists or not. -/
theorem guard {x x' : Evaluation Outcome} {f f' : Outcome → Evaluation α}
    (hx : CoincideUpTo R e e' x x') (hnegative : CoincideUpTo R e e' (f .negative) (f' .negative))
    (herror : CoincideUpTo R e e' (f .error) (f' .error))
    (hsame : f .notExisting = f .positive) (hsame' : f' .notExisting = f' .positive)
    (hpositive : CoincideUpTo R e e' (f .positive) (f' .positive)) :
    CoincideUpTo R e e' (x >>= f) (x' >>= f') := by
  refine hx.bind fun outcome => ?_
  cases outcome with
  | positive => exact hpositive
  | negative => exact hnegative
  | notExisting =>
      rw [hsame, hsame']
      exact hpositive
  | error => exact herror

variable [Std.Refl R]

theorem pure (a : α) : CoincideUpTo R e e' (Pure.pure a) (Pure.pure a) :=
  ⟨_, _, .pure a, .pure a, .same _⟩

theorem record (kind : TraceKind) (message : String) :
    CoincideUpTo R e e' (Evaluation.record kind message) (Evaluation.record kind message) :=
  ⟨_, _, .record kind message, .record kind message, .same _⟩

theorem fault (f : EvaluationFault) :
    CoincideUpTo R e e' (Evaluation.fault f) (Evaluation.fault f) :=
  ⟨_, _, .fault f, .fault f, .same _⟩

theorem survey {f f' : String → Evaluation Outcome} (stops : Outcome → Bool) {nodes : List String}
    (hf : ∀ node ∈ nodes, CoincideUpTo R e e' (f node) (f' node)) :
    CoincideUpTo R e e' (Evaluation.survey stops f nodes) (Evaluation.survey stops f' nodes) := by
  induction nodes with
  | nil => exact pure _
  | cons node nodes ih =>
      have hrest := ih fun n hn => hf n (List.mem_cons_of_mem node hn)
      refine (hf node List.mem_cons_self).bind fun outcome => ?_
      split
      · exact pure _
      · exact hrest.bind fun _ => pure _

end CoincideUpTo

/-! ## Constraints -/

section Constraints

variable {relation : ConstraintRelation} {nodes : List String} {node subject : String}

theorem atomicConstraint_congr
    (h : e'.oracle.answer? node [relation.category] = e.oracle.answer? node [relation.category]) :
    e'.atomicConstraint relation node = e.atomicConstraint relation node := by
  unfold atomicConstraint
  rw [h]

variable [Std.Refl R]

/-- Over a set of nodes that is closed under operands, constraints come to the same if there the
operands and the answers are the same and the operators correspond. -/
theorem below_corresponds {region : Set String}
    (hatomic : ∀ n ∈ region, e.graph.operands? n = none → e'.graph.operands? n = none ∧
      e'.oracle.answer? n [relation.category] = e.oracle.answer? n [relation.category])
    (hlogical : ∀ n ∈ region, ∀ operator operands,
      e.graph.operands? n = some (operator, operands) → (∀ child ∈ operands, child ∈ region) ∧
        ∃ operator', e'.graph.operands? n = some (operator', operands) ∧
          operator.Corresponds R operator')
    (hnode : node ∈ region) :
    (e.below relation nodes node).Corresponds R (e'.below relation nodes node) := by
  -- the nodes that are open are the same for both, and so is the way in which the recursion ends
  induction nodes, node using below.induct e with
  | case1 nodes node hop =>
      obtain ⟨hop', hanswer⟩ := hatomic node hnode hop
      rw [below_atomic hop, below_atomic hop', atomicConstraint_congr hanswer]
      exact .same _
  | case2 nodes node operator operands hop hn =>
      obtain ⟨-, operator', hop', -⟩ := hlogical node hnode _ _ hop
      rw [below_open hop hn, below_open hop' hn]
      exact .same _
  | case3 nodes node operator operands hop hn _ ih =>
      obtain ⟨hclosed, operator', hop', hoperator⟩ := hlogical node hnode _ _ hop
      rw [below_logical hop hn, below_logical hop' hn]
      refine Traced.Corresponds.enclosed ?_ node
      exact logicalTraced_corresponds hoperator fun child hchild => ih child (hclosed child hchild)

theorem below_congr {region : Set String}
    (hoperands : ∀ n ∈ region, e'.graph.operands? n = e.graph.operands? n)
    (hclosed : ∀ n ∈ region, ∀ operator operands,
      e.graph.operands? n = some (operator, operands) → ∀ child ∈ operands, child ∈ region)
    (hatomic : ∀ n ∈ region, e.graph.operands? n = none →
      e'.oracle.answer? n [relation.category] = e.oracle.answer? n [relation.category])
    (hnode : node ∈ region) :
    (e.below relation nodes node).Corresponds R (e'.below relation nodes node) := by
  refine below_corresponds (fun n hn hop => ⟨?_, hatomic n hn hop⟩)
    (fun n hn operator operands hop => ⟨hclosed n hn _ _ hop, operator, ?_, .same operator⟩) hnode
  · exact (hoperands n hn).trans hop
  · exact (hoperands n hn).trans hop

omit [Std.Refl R] in
theorem coincide_constraintNode
    (h : (e.below relation [] node).Corresponds R (e'.below relation [] node)) :
    CoincideUpTo R e e' (e.constraintNode relation node) (e'.constraintNode relation node) :=
  ⟨_, _, e.settles_constraintNode relation node, e'.settles_constraintNode relation node, h⟩

theorem coincide_constraintSet
    (hobjects : e'.graph.objects subject relation.iri = e.graph.objects subject relation.iri)
    (hnodes : ∀ node ∈ e.graph.objects subject relation.iri,
      CoincideUpTo R e e' (e.constraintNode relation node) (e'.constraintNode relation node)) :
    CoincideUpTo R e e' (e.constraintSet relation subject) (e'.constraintSet relation subject) := by
  unfold constraintSet
  rw [hobjects]
  cases hrow : e.graph.objects subject relation.iri with
  | nil => exact (CoincideUpTo.record _ _).bind fun _ => .pure _
  | cons node nodes =>
      rw [hrow] at hnodes
      refine (CoincideUpTo.survey _ hnodes).bind fun survey => ?_
      split
      · exact (CoincideUpTo.record _ _).bind fun _ => .pure _
      · exact (CoincideUpTo.record _ _).bind fun _ => .pure _

end Constraints

/-! ## Actions and parties -/

variable [Std.Refl R]

theorem coincide_actionExercised {relation : ActionRelation} {subject : String}
    (hfirst : e'.graph.firstObject? subject Vocabulary.action =
      e.graph.firstObject? subject Vocabulary.action)
    (haction : ∀ action, e.graph.firstObject? subject Vocabulary.action = some action →
      CoincideUpTo R e e' (e.constraintSet .refinement action)
          (e'.constraintSet .refinement action) ∧
        e'.oracle.answer? action relation.categories =
          e.oracle.answer? action relation.categories) :
    CoincideUpTo R e e' (e.actionExercised relation subject)
      (e'.actionExercised relation subject) := by
  unfold actionExercised
  rw [hfirst]
  cases hsome : e.graph.firstObject? subject Vocabulary.action with
  | none => exact .fault _
  | some action =>
      obtain ⟨hrefinements, hanswer⟩ := haction action hsome
      refine (CoincideUpTo.record _ _).bind fun _ => ?_
      refine hrefinements.guard ?_ (.pure _) rfl rfl ?_
      · exact (CoincideUpTo.record _ _).bind fun _ => .pure _
      · dsimp only
        rw [hanswer]
        split
        · exact .fault _
        · exact (CoincideUpTo.record _ _).bind fun _ => .pure _

theorem coincide_partyRefinements {party : Party} {subject : String}
    (hobjects : e'.graph.objects subject party.iri = e.graph.objects subject party.iri)
    (hrefinements : ∀ node ∈ e.graph.objects subject party.iri,
      CoincideUpTo R e e' (e.constraintSet .refinement node) (e'.constraintSet .refinement node)) :
    CoincideUpTo R e e' (e.partyRefinements party subject) (e'.partyRefinements party subject) := by
  unfold partyRefinements
  rw [hobjects]
  refine (CoincideUpTo.survey _ hrefinements).bind fun survey => ?_
  split
  · exact .pure _
  · exact .pure _

/-! ## Duties -/

section Duties

variable {relation : DutyRelation} {node rule predicate : String}

theorem coincide_dutyResult (relation : DutyRelation) (node : String) (outcome : Outcome)
    (reason : String) :
    CoincideUpTo R e e' (dutyResult relation node outcome reason)
      (dutyResult relation node outcome reason) :=
  (CoincideUpTo.record _ _).bind fun _ => .pure _

/-- What decides about a duty or rule before its consequences, duties or remedies do. -/
structure CoincideAtUpTo (R : Event → Event → Prop) (e e' : Evaluator) (node : String) : Prop where
  constraints :
    CoincideUpTo R e e' (e.constraintSet .constraint node) (e'.constraintSet .constraint node)
  parties : ∀ party,
    CoincideUpTo R e e' (e.partyRefinements party node) (e'.partyRefinements party node)
  action : ∀ relation,
    CoincideUpTo R e e' (e.actionExercised relation node) (e'.actionExercised relation node)

abbrev CoincideAt (e e' : Evaluator) (node : String) : Prop :=
  CoincideAtUpTo Eq e e' node

/-- What becomes of an unexercised duty matters only for one whose action was not exercised. -/
theorem CoincideAtUpTo.dutyUnless (h : CoincideAtUpTo R e e' node)
    {unexercised unexercised' : Evaluation Outcome}
    (hunexercised : (e.fresh (e.actionExercised relation.actionRelation node)).value = .negative →
      CoincideUpTo R e e' unexercised unexercised') :
    CoincideUpTo R e e' (e.dutyUnless relation node unexercised)
      (e'.dutyUnless relation node unexercised') := by
  refine h.constraints.guard (coincide_dutyResult _ _ _ _) (.pure _) rfl rfl ?_
  refine (h.parties .target).guard (coincide_dutyResult _ _ _ _) (.pure _) rfl rfl ?_
  refine (h.parties .assignee).guard (coincide_dutyResult _ _ _ _) (.pure _) rfl rfl ?_
  refine (h.action relation.actionRelation).bind_fresh ?_
  cases hvalue : (e.fresh (e.actionExercised relation.actionRelation node)).value with
  | positive => exact coincide_dutyResult _ _ _ _
  | negative => exact hunexercised hvalue
  | notExisting => exact coincide_dutyResult _ _ _ _
  | error => exact .pure _

theorem CoincideAtUpTo.dutyAlone (h : CoincideAtUpTo R e e' node) (relation : DutyRelation) :
    CoincideUpTo R e e' (e.dutyAlone relation node) (e'.dutyAlone relation node) :=
  (CoincideUpTo.record _ _).bind fun _ => h.dutyUnless fun _ => coincide_dutyResult _ _ _ _

theorem coincide_consequences
    (hobjects : e'.graph.objects node Vocabulary.consequence =
      e.graph.objects node Vocabulary.consequence)
    (hconsequences : ∀ n ∈ e.graph.objects node Vocabulary.consequence,
      CoincideUpTo R e e' (e.dutyAlone .consequence n) (e'.dutyAlone .consequence n)) :
    CoincideUpTo R e e' (e.consequences node) (e'.consequences node) := by
  unfold consequences
  rw [hobjects]
  cases hrow : e.graph.objects node Vocabulary.consequence with
  | nil => exact (CoincideUpTo.record _ _).bind fun _ => .pure _
  | cons n ns =>
      rw [hrow] at hconsequences
      refine (CoincideUpTo.survey _ hconsequences).bind fun survey => ?_
      split
      · exact .pure _
      · exact .pure _

theorem CoincideAtUpTo.dutyWithConsequences (h : CoincideAtUpTo R e e' node)
    (relation : DutyRelation)
    (hconsequences : (e.fresh (e.actionExercised relation.actionRelation node)).value = .negative →
      CoincideUpTo R e e' (e.consequences node) (e'.consequences node)) :
    CoincideUpTo R e e' (e.dutyWithConsequences relation node)
      (e'.dutyWithConsequences relation node) := by
  refine (CoincideUpTo.record _ _).bind fun _ => h.dutyUnless fun hunexercised => ?_
  exact (hconsequences hunexercised).bind fun _ => coincide_dutyResult _ _ _ _

theorem CoincideAtUpTo.duty (h : CoincideAtUpTo R e e' node) (relation : DutyRelation)
    {withConsequences : Bool}
    (hconsequences : withConsequences = true →
      CoincideUpTo R e e' (e.consequences node) (e'.consequences node)) :
    CoincideUpTo R e e' (e.duty relation withConsequences node)
      (e'.duty relation withConsequences node) := by
  cases withConsequences with
  | false => exact h.dutyAlone relation
  | true => exact h.dutyWithConsequences relation fun _ => hconsequences rfl

theorem coincide_dutyChildren {withConsequences : Bool}
    (hobjects : e'.graph.objects rule predicate = e.graph.objects rule predicate)
    (hduties : ∀ n ∈ e.graph.objects rule predicate,
      CoincideUpTo R e e' (e.duty relation withConsequences n)
        (e'.duty relation withConsequences n)) :
    CoincideUpTo R e e' (e.dutyChildren relation predicate withConsequences rule)
      (e'.dutyChildren relation predicate withConsequences rule) := by
  unfold dutyChildren
  rw [hobjects]
  cases hrow : e.graph.objects rule predicate with
  | nil => exact (CoincideUpTo.record _ _).bind fun _ => .pure _
  | cons n ns =>
      rw [hrow] at hduties
      refine (CoincideUpTo.survey _ hduties).bind fun survey => ?_
      split
      · exact (CoincideUpTo.record _ _).bind fun _ => .pure _
      · exact (CoincideUpTo.record _ _).bind fun _ => .pure _

end Duties

/-! ## Rules -/

section Rules

variable {rule : String}

theorem CoincideAtUpTo.partyGate (h : CoincideAtUpTo R e e' rule) (party : Party)
    (hfirst : e'.graph.firstObject? rule party.iri = e.graph.firstObject? rule party.iri) :
    CoincideUpTo R e e' (e.partyGate party rule) (e'.partyGate party rule) := by
  unfold Evaluator.partyGate
  rw [hfirst]
  exact (h.parties party).guard (.pure _) (.pure _) rfl rfl (.pure _)

theorem CoincideAtUpTo.partyGates (h : CoincideAtUpTo R e e' rule)
    (hfirst : ∀ party : Party,
      e'.graph.firstObject? rule party.iri = e.graph.firstObject? rule party.iri) :
    CoincideUpTo R e e' (e.partyGates rule) (e'.partyGates rule) := by
  refine (h.partyGate .target (hfirst .target)).bind fun verdict? => ?_
  split
  · exact .pure _
  · exact h.partyGate .assignee (hfirst .assignee)

theorem CoincideAtUpTo.gate (h : CoincideAtUpTo R e e' rule)
    (hfirst : ∀ party : Party,
      e'.graph.firstObject? rule party.iri = e.graph.firstObject? rule party.iri) :
    CoincideUpTo R e e' (e.gate rule) (e'.gate rule) :=
  h.constraints.guard (.pure _) (.pure _) rfl rfl (h.partyGates hfirst)

theorem coincide_behindGates {continue_ continue_' : String → Evaluation Verdict}
    (hgate : CoincideUpTo R e e' (e.gate rule) (e'.gate rule))
    (hfirst : e'.graph.firstObject? rule Vocabulary.action =
      e.graph.firstObject? rule Vocabulary.action)
    (hcontinue : ∀ action, e.graph.firstObject? rule Vocabulary.action = some action →
      CoincideUpTo R e e' (continue_ action) (continue_' action)) :
    CoincideUpTo R e e' (e.behindGates rule continue_) (e'.behindGates rule continue_') := by
  unfold behindGates
  rw [hfirst]
  refine hgate.bind fun verdict? => ?_
  split
  · exact .pure _
  · cases hsome : e.graph.firstObject? rule Vocabulary.action with
    | none => exact (CoincideUpTo.record _ _).bind fun _ => .pure _
    | some action => exact hcontinue action hsome

theorem coincide_conclude (kind : RuleKind) (rule : String) (verdict : Verdict) :
    CoincideUpTo R e e' (conclude kind rule verdict) (conclude kind rule verdict) := by
  unfold conclude
  split
  · exact (CoincideUpTo.record _ _).bind fun _ => .pure _
  · exact (CoincideUpTo.record _ _).bind fun _ => .pure _

theorem coincide_permissionDuties (hround : e'.round = e.round)
    (hduties : CoincideUpTo R e e' (e.allDuties rule) (e'.allDuties rule)) :
    CoincideUpTo R e e' (e.permissionDuties rule) (e'.permissionDuties rule) := by
  unfold permissionDuties
  rw [hround]
  exact (CoincideUpTo.record _ _).bind fun _ => hduties.bind fun _ => .pure _

theorem coincide_permissionAction (action : String) (hround : e'.round = e.round)
    (hrefinements :
      CoincideUpTo R e e' (e.constraintSet .refinement action)
        (e'.constraintSet .refinement action))
    (hduties : CoincideUpTo R e e' (e.allDuties rule) (e'.allDuties rule)) :
    CoincideUpTo R e e' (e.permissionAction rule action) (e'.permissionAction rule action) :=
  hrefinements.guard (.pure _) (.pure _) rfl rfl (coincide_permissionDuties hround hduties)

theorem coincide_permission (hround : e'.round = e.round)
    (hgate : CoincideUpTo R e e' (e.gate rule) (e'.gate rule))
    (hfirst : e'.graph.firstObject? rule Vocabulary.action =
      e.graph.firstObject? rule Vocabulary.action)
    (hrefinements : ∀ action, e.graph.firstObject? rule Vocabulary.action = some action →
      CoincideUpTo R e e' (e.constraintSet .refinement action)
        (e'.constraintSet .refinement action))
    (hduties : CoincideUpTo R e e' (e.allDuties rule) (e'.allDuties rule)) :
    CoincideUpTo R e e' (e.permission rule) (e'.permission rule) := by
  have hbehind := coincide_behindGates hgate hfirst fun action hsome =>
    coincide_permissionAction action hround (hrefinements action hsome) hduties
  exact (CoincideUpTo.record _ _).bind fun _ => hbehind.bind fun _ => coincide_conclude _ _ _

theorem coincide_prohibitionRemedies
    (hremedies : CoincideUpTo R e e' (e.allRemedies rule) (e'.allRemedies rule)) :
    CoincideUpTo R e e' (e.prohibitionRemedies rule) (e'.prohibitionRemedies rule) :=
  (CoincideUpTo.record _ _).bind fun _ => hremedies.bind fun _ => .pure _

theorem coincide_prohibitionAction (action : String)
    (hexercised :
      CoincideUpTo R e e' (e.actionExercised .prohibition rule)
        (e'.actionExercised .prohibition rule))
    (hremedies : CoincideUpTo R e e' (e.allRemedies rule) (e'.allRemedies rule)) :
    CoincideUpTo R e e' (e.prohibitionAction rule action) (e'.prohibitionAction rule action) := by
  refine hexercised.bind fun outcome => ?_
  cases outcome with
  | positive => exact coincide_prohibitionRemedies hremedies
  | negative => exact .pure _
  | notExisting => exact .pure _
  | error => exact .pure _

theorem coincide_prohibition (hgate : CoincideUpTo R e e' (e.gate rule) (e'.gate rule))
    (hfirst : e'.graph.firstObject? rule Vocabulary.action =
      e.graph.firstObject? rule Vocabulary.action)
    (hexercised :
      CoincideUpTo R e e' (e.actionExercised .prohibition rule)
        (e'.actionExercised .prohibition rule))
    (hremedies : CoincideUpTo R e e' (e.allRemedies rule) (e'.allRemedies rule)) :
    CoincideUpTo R e e' (e.prohibition rule) (e'.prohibition rule) := by
  have hbehind := coincide_behindGates hgate hfirst fun action _ =>
    coincide_prohibitionAction action hexercised hremedies
  exact (CoincideUpTo.record _ _).bind fun _ => hbehind.bind fun _ => coincide_conclude _ _ _

theorem coincide_obligation (round : Round)
    (hduty : CoincideUpTo R e e' (e.duty .obligation round.evaluatesConsequences rule)
      (e'.duty .obligation round.evaluatesConsequences rule)) :
    CoincideUpTo R e e' (e.obligation round rule) (e'.obligation round rule) :=
  (CoincideUpTo.record _ _).bind fun _ => hduty.bind fun _ => coincide_conclude _ _ _

theorem coincide_ruling {kind : RuleKind} (source : String)
    (hrule : CoincideUpTo R e e' (e.rule kind rule) (e'.rule kind rule)) :
    CoincideUpTo R e e' (e.ruling source kind rule) (e'.ruling source kind rule) :=
  (CoincideUpTo.record _ _).bind fun _ => hrule.bind fun _ => .pure _

end Rules

end Evaluator

end UsagePolicy
