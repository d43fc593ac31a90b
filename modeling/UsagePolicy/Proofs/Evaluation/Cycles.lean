import UsagePolicy.Proofs.Evaluation.Operations
import UsagePolicy.Proofs.Text.Appending
import Mathlib.Logic.Relation
/-!
# Cycles of operands

A constraint is reported as cyclic when it is met again while it is open. Along the way from an
open node to the one that is met each node is an operand of the one before, so what is reported
lies on a cycle. Conversely the way around a cycle cannot be followed without meeting a node that
is open. Where nothing is reported the open nodes decide nothing, and the evaluation comes to what
the recursion over operands alone comes to.
-/

namespace UsagePolicy

open Relation

namespace Graph

/-- One node is among the operands that another one selects. -/
def HasOperand (g : Graph) (node child : String) : Prop :=
  ∃ operator operands, g.operands? node = some (operator, operands) ∧ child ∈ operands

def OnCycle (g : Graph) (node : String) : Prop :=
  TransGen g.HasOperand node node

/-- From `start` on, following operands can lead into a cycle. -/
def ReachesCycle (g : Graph) (start : String) : Prop :=
  ∃ node, ReflTransGen g.HasOperand start node ∧ g.OnCycle node

end Graph

/-! ## Entries for cycles -/

/-- The entry for a constraint that is one of its own operands. -/
def cyclicEntry (node : String) : TraceEntry :=
  ⟨.error, (EvaluationFault.cyclicConstraint node).message⟩

theorem cyclicEntry_inj {n m : String} (h : cyclicEntry n = cyclicEntry m) : n = m := by
  have hmessage := congrArg TraceEntry.message h
  unfold cyclicEntry EvaluationFault.message at hmessage
  exact (String.append_right_inj _).1 ((String.append_left_inj _).1 hmessage)

theorem oracleMiss_message_ne (n m : String) (c : Category) :
    (EvaluationFault.oracleMiss n c).message ≠ (EvaluationFault.cyclicConstraint m).message := by
  intro h
  unfold EvaluationFault.message at h
  simp only [String.append_assoc] at h
  exact Text.append_ne_append (by decide) (by decide) _ _ h

namespace Evaluator

variable {e : Evaluator} {relation : ConstraintRelation} {nodes : List String} {node : String}

theorem cyclicEntry_not_mem_atomicConstraint (n : String) :
    cyclicEntry n ∉ ((e.atomicConstraint relation node).traced 0).trace := by
  unfold atomicConstraint
  split
  · intro h
    have hmessage := congrArg TraceEntry.message (List.mem_singleton.1 h)
    exact oracleMiss_message_ne _ _ _ hmessage.symm
  · intro h
    have hkind := congrArg TraceEntry.kind (List.mem_singleton.1 h)
    cases hkind

end Evaluator

/-! ## What is reported -/

namespace Traced

theorem value_mapM {α : Type} (f : String → Traced α) (xs : List String) :
    (xs.mapM f).value = xs.map fun x => (f x).value := by
  induction xs with
  | nil => rfl
  | cons x xs ih =>
      rw [List.mapM_cons, List.map_cons, ← ih]
      rfl

theorem trace_mapM {α : Type} (f : String → Traced α) (xs : List String) :
    (xs.mapM f).trace = xs.flatMap fun x => (f x).trace := by
  induction xs with
  | nil => rfl
  | cons x xs ih =>
      rw [List.mapM_cons, List.flatMap_cons, ← ih, trace_bind, trace_bind, trace_pure,
        List.append_nil]

theorem trace_enclosed {α : Type} (node : String) (t : Traced α) :
    (t.enclosed node).trace = t.trace := by
  show Journal.trace ([.closed] ++ (t.journal ++ [.opened node])) = t.journal.trace
  rw [Journal.trace_append, Journal.trace_append]
  exact List.append_nil _

end Traced

namespace Evaluator

variable {e : Evaluator} {relation : ConstraintRelation} {nodes : List String} {node n : String}

theorem value_logicalTraced (node : String) (operator : Operator) (operands : List String)
    (t : String → Traced Outcome) :
    (logicalTraced node operator operands t).value =
      operator.outcome (operands.map fun child => (t child).value) := by
  rw [← Traced.value_mapM]
  rfl

theorem value_below_logical {operator : Operator} {operands : List String}
    (h : e.graph.operands? node = some (operator, operands)) (hn : node ∉ nodes) :
    (e.below relation nodes node).value = operator.outcome
      (operands.map fun child => (e.below relation (node :: nodes) child).value) := by
  rw [below_logical h hn]
  exact value_logicalTraced node operator operands _

theorem cyclicEntry_mem_logicalTraced (operator : Operator) (operands : List String)
    (t : String → Traced Outcome) :
    cyclicEntry n ∈ (logicalTraced node operator operands t).trace ↔
      ∃ child ∈ operands, cyclicEntry n ∈ (t child).trace := by
  have htrace : (logicalTraced node operator operands t).trace =
      ⟨.nextStep, operator.heading node operands.length⟩ ::
        ((operands.flatMap fun child => (t child).trace) ++
          [⟨.result, operator.summary node (operands.mapM t).value⟩]) := by
    rw [← Traced.trace_mapM]
    simp only [logicalTraced, Traced.trace_bind, Traced.trace_pure]
    rfl
  rw [htrace]
  simp [cyclicEntry]

/-- Whether `n` is reported as cyclic during the evaluation of `node`. -/
def Reports (e : Evaluator) (relation : ConstraintRelation) (nodes : List String)
    (node n : String) : Prop :=
  cyclicEntry n ∈ (e.below relation nodes node).trace

theorem not_reports_atomic (h : e.graph.operands? node = none) :
    ¬ e.Reports relation nodes node n := by
  rw [Reports, below_atomic h]
  exact cyclicEntry_not_mem_atomicConstraint n

variable {operator : Operator} {operands : List String}

theorem reports_open (h : e.graph.operands? node = some (operator, operands)) (hn : node ∈ nodes) :
    e.Reports relation nodes node n ↔ n = node := by
  rw [Reports, below_open h hn]
  constructor
  · intro hmem
    exact cyclicEntry_inj (List.mem_singleton.1 hmem)
  · rintro rfl
    exact List.mem_singleton.2 rfl

theorem reports_logical (h : e.graph.operands? node = some (operator, operands))
    (hn : node ∉ nodes) :
    e.Reports relation nodes node n ↔
      ∃ child ∈ operands, e.Reports relation (node :: nodes) child n := by
  rw [Reports, below_logical h hn, Traced.trace_enclosed, cyclicEntry_mem_logicalTraced]
  rfl

/-- What is reported can be reached, and lies on a cycle if each open node leads to the present
one. -/
theorem onCycle_of_reports (hpath : ∀ s ∈ nodes, TransGen e.graph.HasOperand s node)
    (h : e.Reports relation nodes node n) :
    ReflTransGen e.graph.HasOperand node n ∧ e.graph.OnCycle n := by
  induction nodes, node using below.induct e with
  | case1 nodes node hop => exact absurd h (not_reports_atomic hop)
  | case2 nodes node operator operands hop hn =>
      obtain rfl := (reports_open hop hn).1 h
      exact ⟨.refl, hpath n hn⟩
  | case3 nodes node operator operands hop hn _ ih =>
      obtain ⟨child, hchild, hreports⟩ := (reports_logical hop hn).1 h
      have hedge : e.graph.HasOperand node child := ⟨operator, operands, hop, hchild⟩
      -- the open nodes are those on the way to the child, and the node itself is one of them now
      have hpath' : ∀ s ∈ node :: nodes, TransGen e.graph.HasOperand s child := by
        intro s hs
        rcases List.mem_cons.1 hs with rfl | hs
        · exact .single hedge
        · exact (hpath s hs).tail hedge
      obtain ⟨hreach, hcycle⟩ := ih child hpath' hreports
      exact ⟨hreach.head hedge, hcycle⟩

/-! ## Quiet evaluations -/

/-- Nothing is reported as cyclic. -/
def Quiet (e : Evaluator) (relation : ConstraintRelation) (nodes : List String)
    (node : String) : Prop :=
  ∀ n, ¬ e.Reports relation nodes node n

theorem Quiet.child {child : String} (h : e.Quiet relation nodes node)
    (hedge : e.graph.HasOperand node child) :
    node ∉ nodes ∧ e.Quiet relation (node :: nodes) child := by
  obtain ⟨operator, operands, hop, hchild⟩ := hedge
  have hn : node ∉ nodes := fun hn => h node ((reports_open hop hn).2 rfl)
  refine ⟨hn, fun n hreports => ?_⟩
  exact h n ((reports_logical hop hn).2 ⟨child, hchild, hreports⟩)

theorem Quiet.reach {last : String} (h : e.Quiet relation nodes node)
    (hreach : ReflTransGen e.graph.HasOperand node last) :
    ∃ nodes', nodes ⊆ nodes' ∧ e.Quiet relation nodes' last := by
  induction hreach with
  | refl => exact ⟨nodes, List.Subset.refl nodes, h⟩
  | tail _ hedge ih =>
      obtain ⟨nodes', hsub, hquiet⟩ := ih
      exact ⟨_, List.subset_cons_of_subset _ hsub, (hquiet.child hedge).2⟩

/-- Following a cycle once around leads to a node that is open. -/
theorem Quiet.not_reachesCycle (h : e.Quiet relation nodes node) :
    ¬ e.graph.ReachesCycle node := by
  rintro ⟨last, hreach, hcycle⟩
  obtain ⟨opened, -, hlast⟩ := h.reach hreach
  obtain ⟨child, hedge, hback⟩ := TransGen.head'_iff.1 hcycle
  -- `last` is open below its child, and the way around ends at it
  obtain ⟨opened', hsub, hlast'⟩ := (hlast.child hedge).2.reach hback
  exact (hlast'.child hedge).1 (hsub List.mem_cons_self)

/-! ## The recursion over operands alone -/

/-- What a constraint comes to by recursion over its operands, whatever is open. Around a cycle
the recursion does not end, and the constraint comes to nothing. -/
inductive Unguarded (e : Evaluator) (relation : ConstraintRelation) : String → Outcome → Prop
  | atomic {node : String} : e.graph.operands? node = none →
      Unguarded e relation node (e.fresh (e.atomicConstraint relation node)).value
  | logical {node : String} {operator : Operator} {operands : List String}
      {outcomes : List Outcome} : e.graph.operands? node = some (operator, operands) →
      List.Forall₂ (Unguarded e relation) operands outcomes →
      Unguarded e relation node (operator.outcome outcomes)

private theorem forall₂_map {R : String → Outcome → Prop} {value : String → Outcome}
    {xs : List String} (h : ∀ x ∈ xs, ∀ o, R x o ↔ o = value x) (outcomes : List Outcome) :
    List.Forall₂ R xs outcomes ↔ outcomes = xs.map value := by
  induction xs generalizing outcomes with
  | nil => exact List.forall₂_nil_left_iff
  | cons x xs ih =>
      have hx := h x List.mem_cons_self
      have hxs := ih fun y hy => h y (List.mem_cons_of_mem x hy)
      rw [List.forall₂_cons_left_iff, List.map_cons]
      constructor
      · rintro ⟨o, os, ho, hos, rfl⟩
        rw [(hx o).1 ho, (hxs os).1 hos]
      · rintro rfl
        exact ⟨_, _, (hx _).2 rfl, (hxs _).2 rfl, rfl⟩

theorem unguarded_atomic_iff (hop : e.graph.operands? node = none) (o : Outcome) :
    e.Unguarded relation node o ↔ o = (e.fresh (e.atomicConstraint relation node)).value := by
  constructor
  · intro h
    cases h with
    | atomic => rfl
    | logical hop' => cases hop.symm.trans hop'
  · rintro rfl
    exact .atomic hop

theorem unguarded_logical_iff (hop : e.graph.operands? node = some (operator, operands))
    (o : Outcome) :
    e.Unguarded relation node o ↔
      ∃ outcomes, List.Forall₂ (e.Unguarded relation) operands outcomes ∧
        o = operator.outcome outcomes := by
  constructor
  · intro h
    cases h with
    | atomic hop' => cases hop.symm.trans hop'
    | logical hop' houtcomes =>
        cases hop.symm.trans hop'
        exact ⟨_, houtcomes, rfl⟩
  · rintro ⟨outcomes, houtcomes, rfl⟩
    exact .logical hop houtcomes

theorem Quiet.unguarded_iff (h : e.Quiet relation nodes node) (o : Outcome) :
    e.Unguarded relation node o ↔ o = (e.below relation nodes node).value := by
  induction nodes, node using below.induct e generalizing o with
  | case1 nodes node hop =>
      rw [unguarded_atomic_iff hop, below_atomic hop, fresh_atomicConstraint]
  | case2 nodes node operator operands hop hn =>
      exact absurd ((reports_open hop hn).2 rfl) (h node)
  | case3 nodes node operator operands hop hn _ ih =>
      have hchildren := forall₂_map fun child hchild =>
        ih child (h.child ⟨operator, operands, hop, hchild⟩).2
      rw [unguarded_logical_iff hop, value_below_logical hop hn]
      simp only [hchildren, exists_eq_left]

/-! ## Exactness -/

theorem quiet_iff : e.Quiet relation [] node ↔ ¬ e.graph.ReachesCycle node := by
  refine ⟨Quiet.not_reachesCycle, fun h n hreports => ?_⟩
  exact h ⟨n, onCycle_of_reports (by simp) hreports⟩

/-- Where nothing is open, a cycle is reported exactly if one can be reached, and what is reported
lies on one. Without a cycle the evaluation is the recursion over operands. -/
theorem constraintNode_cycles (e : Evaluator) (relation : ConstraintRelation) (start : String)
    (j : Journal) (hj : j.openNodes = []) :
    ∃ state j' recorded,
      (e.constraintNode relation start).run e.graph.allowance j = (state, j') ∧
      j'.trace = j.trace ++ recorded ∧
      (¬ e.graph.ReachesCycle start →
        (∀ n, cyclicEntry n ∉ recorded) ∧
          ∀ outcome, e.Unguarded relation start outcome ↔ outcome = state) ∧
      (e.graph.ReachesCycle start → ∃ n, cyclicEntry n ∈ recorded) ∧
      (∀ n, cyclicEntry n ∈ recorded → e.graph.OnCycle n) := by
  let t := e.below relation [] start
  refine ⟨t.value, t.journal ++ j, t.trace,
    (e.settles_constraintNode relation start).run_eq _ (Nat.le_refl _) j hj,
    Journal.trace_append _ _, ?_, ?_, ?_⟩
  · intro h
    have hquiet : e.Quiet relation [] start := quiet_iff.2 h
    exact ⟨hquiet, hquiet.unguarded_iff⟩
  · intro h
    by_contra hnone
    exact quiet_iff.1 (fun n hn => hnone ⟨n, hn⟩) h
  · intro n hn
    exact (onCycle_of_reports (by simp) hn).2

/-- A constraint that is its own operand, met after another one was opened and closed. -/
theorem constraintNode_cycles_ownOperand :
    let e : Evaluator :=
      ⟨.ofList [⟨"urn:c", Vocabulary.and, "urn:c"⟩], Presets.empty.oracle, .first⟩
    let j : Journal := [.closed, .opened "urn:d"]
    j.openNodes = [] ∧
    ∃ state j' recorded,
      (e.constraintNode .constraint "urn:c").run e.graph.allowance j = (state, j') ∧
      j'.trace = j.trace ++ recorded ∧
      (∃ n, cyclicEntry n ∈ recorded) ∧
      (∀ n, cyclicEntry n ∈ recorded → e.graph.OnCycle n) := by
  intro e j
  have hoperands : e.graph.operands? "urn:c" = some (.and, ["urn:c"]) := by decide +kernel
  have hcycle : e.graph.ReachesCycle "urn:c" :=
    ⟨"urn:c", .refl, .single ⟨.and, ["urn:c"], hoperands, List.mem_cons_self⟩⟩
  obtain ⟨state, j', recorded, hrun, htrace, -, hcyclic, honly⟩ :=
    e.constraintNode_cycles .constraint "urn:c" j rfl
  exact ⟨rfl, state, j', recorded, hrun, htrace, hcyclic hcycle, honly⟩

end Evaluator

end UsagePolicy
