import UsagePolicy.Evaluation.Constraint
import UsagePolicy.Proofs.Evaluation.Settling
/-!
# Nested constraints

The evaluation of constraints with the open nodes as an argument: `Evaluator.below`. Each node that
is opened leaves less room for others, so it ends without an allowance. What an evaluator does with
its journal settles at just this, as soon as its allowance exceeds the room.
-/

namespace UsagePolicy

namespace Graph

variable {g : Graph} {nodes : List String}

/-- How many nodes can still be opened. -/
def room (g : Graph) (nodes : List String) : Nat :=
  (g.logicalNodes.filter (· ∉ nodes)).length

theorem room_cons_lt {node : String} (hn : node ∉ nodes) (hl : node ∈ g.logicalNodes) :
    g.room (node :: nodes) < g.room nodes := by
  have hsplit : g.logicalNodes.filter (· ∉ node :: nodes) =
      (g.logicalNodes.filter (· ∉ nodes)).filter (· != node) := by
    rw [List.filter_filter]
    refine List.filter_congr fun x _ => ?_
    by_cases hx : x = node <;> simp [hx]
  rw [room, room, hsplit, List.length_filter_lt_length_iff_exists]
  exact ⟨node, List.mem_filter.2 ⟨hl, by simpa using hn⟩, by simp⟩

theorem room_lt_allowance (g : Graph) (nodes : List String) : g.room nodes < g.allowance :=
  Nat.lt_succ_of_le (List.length_filter_le _ _)

end Graph

namespace Evaluator

/-- A logical constraint, given what its operands come to. -/
def logicalTraced (node : String) (operator : Operator) (operands : List String)
    (evaluate : String → Traced Outcome) : Traced Outcome := do
  .record .nextStep (operator.heading node operands.length)
  let outcomes ← operands.mapM evaluate
  .record .result (operator.summary node outcomes)
  return operator.outcome outcomes

/-- What a constraint comes to while `nodes` are open. -/
def below (e : Evaluator) (relation : ConstraintRelation) (nodes : List String) (node : String) :
    Traced Outcome :=
  match h : e.graph.operands? node with
  | none => (e.atomicConstraint relation node).traced 0
  | some (operator, operands) =>
    if hn : node ∈ nodes then .fault (.cyclicConstraint node)
    else
      have := Graph.room_cons_lt hn (Graph.mem_logicalNodes_of_operands? h)
      (logicalTraced node operator operands fun child =>
        e.below relation (node :: nodes) child).enclosed node
termination_by e.graph.room nodes

variable {e : Evaluator} {relation : ConstraintRelation} {nodes : List String} {node : String}

theorem below_atomic (h : e.graph.operands? node = none) :
    e.below relation nodes node = (e.atomicConstraint relation node).traced 0 := by
  rw [below]
  split <;> simp_all

theorem below_open {operator : Operator} {operands : List String}
    (h : e.graph.operands? node = some (operator, operands)) (hn : node ∈ nodes) :
    e.below relation nodes node = .fault (.cyclicConstraint node) := by
  rw [below]
  split <;> simp_all

theorem below_logical {operator : Operator} {operands : List String}
    (h : e.graph.operands? node = some (operator, operands)) (hn : node ∉ nodes) :
    e.below relation nodes node =
      (logicalTraced node operator operands (e.below relation (node :: nodes))).enclosed node := by
  rw [below]
  split <;> simp_all

/-! ## Settling -/

theorem settles_atomicConstraint (g : Graph) (least : Nat) (nodes : List String) :
    (e.atomicConstraint relation node).Settles g least nodes
      ((e.atomicConstraint relation node).traced 0) := by
  unfold atomicConstraint
  split
  · exact .fault _
  · exact (Evaluation.Settles.record _ _).bind fun _ => .pure _

theorem settles_logicalConstraint {g : Graph} {least : Nat} (node : String) (operator : Operator)
    (operands : List String) {evaluate : String → Evaluation Outcome}
    {t : String → Traced Outcome} (h : ∀ child, (evaluate child).Settles g least nodes (t child)) :
    (logicalConstraint node operator operands evaluate).Settles g least nodes
      (logicalTraced node operator operands t) :=
  (Evaluation.Settles.record _ _).bind fun _ =>
    (Evaluation.Settles.mapM operands h).bind fun _ =>
      (Evaluation.Settles.record _ _).bind fun _ => .pure _

theorem settles_constraintWithin (e : Evaluator) (relation : ConstraintRelation) {n : Nat}
    (h : e.graph.room nodes < n) (node : String) :
    (e.constraintWithin relation n node).Settles e.graph 0 nodes (e.below relation nodes node) := by
  induction n generalizing nodes node with
  | zero => exact absurd h (Nat.not_lt_zero _)
  | succ n ih =>
      unfold constraintWithin
      split
      · next hop =>
        rw [below_atomic hop]
        exact settles_atomicConstraint _ _ _
      · next operator operands hop =>
        have hl := Graph.mem_logicalNodes_of_operands? hop
        by_cases hn : node ∈ nodes
        · rw [below_open hop hn]
          refine (Evaluation.Settles.isOpen node).bind_of_eq (decide_eq_true hn) ?_
          exact .fault _
        · rw [below_logical hop hn]
          -- the node that is opened takes one from the allowance, and at least one from the room
          have hroom : e.graph.room (node :: nodes) < n :=
            (Graph.room_cons_lt hn hl).trans_le (Nat.le_of_lt_succ h)
          refine (Evaluation.Settles.isOpen node).bind_of_eq (decide_eq_false hn) ?_
          exact (settles_logicalConstraint node operator operands (ih hroom)).enclosed hn hl

theorem settles_constraintNode (e : Evaluator) (relation : ConstraintRelation) (node : String) :
    (e.constraintNode relation node).Settles e.graph e.graph.allowance []
      (e.below relation [] node) where
  run_eq := by
    intro n hn j hj
    have hroom := (e.graph.room_lt_allowance []).trans_le hn
    exact (e.settles_constraintWithin relation hroom node).run_eq n (Nat.zero_le n) j hj
  balanced :=
    (e.settles_constraintWithin relation (e.graph.room_lt_allowance []) node).balanced

end Evaluator

end UsagePolicy
