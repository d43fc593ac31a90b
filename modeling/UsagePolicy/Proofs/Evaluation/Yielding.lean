import UsagePolicy.Proofs.Evaluation.Duties
import UsagePolicy.Proofs.Evaluation.Verdicts
/-!
# Outcomes that give way

Two evaluations that differ in one respect are compared by the outcomes that can change. A value
yields under a condition if it stays as it is without it. Since the first failure decides, rows of
nodes yield only where their nodes do, and a permission only where its duties do.
-/

namespace UsagePolicy

/-- Only a value of this sort gives way to another one. -/
def Yields {α : Type} (p : α → Prop) (a a' : α) : Prop :=
  ¬ p a → a' = a

namespace Yields

variable {α : Type} {p : α → Prop} {a a' : α}

theorem refl (a : α) : Yields p a a :=
  fun _ => rfl

/-- What becomes a value of this sort was one. -/
theorem of_holds (h : Yields p a a') (hp : p a') : p a := by
  by_contra hn
  rw [h hn] at hp
  exact hn hp

theorem conditioned {o o' : Outcome} (h : Yields (· = .negative) o o') (condition : Outcome) :
    Yields (· = .negative) (condition.conditioned o) (condition.conditioned o') := by
  cases condition with
  | positive => exact h
  | negative => exact refl _
  | notExisting => exact h
  | error => exact refl _

end Yields

namespace Evaluator

/-! ## Rows of nodes -/

section Rows

variable {stops : Outcome → Bool} {v v' : String → Outcome} {nodes : List String}

theorem rowOutcome_eq_of_stop_eq
    (h : (surveyOf stops v' nodes).stop = (surveyOf stops v nodes).stop) :
    rowOutcome stops v' nodes = rowOutcome stops v nodes := by
  cases nodes with
  | nil => rfl
  | cons node nodes => rw [rowOutcome, rowOutcome, h]

/-- Further nodes change nothing once a node has decided. -/
theorem yields_rowOutcome_append (stops : Outcome → Bool) (v : String → Outcome)
    (nodes more : List String) :
    Yields Outcome.Passes (rowOutcome stops v nodes) (rowOutcome stops v (nodes ++ more)) := by
  intro hfails
  have hne : (surveyOf stops v nodes).stop ≠ none :=
    fun hstop => hfails (decides_rowOutcome.of_none hstop)
  obtain ⟨⟨node, outcome⟩, hstop⟩ := Option.ne_none_iff_exists'.1 hne
  obtain ⟨hv, hstops, before, after, hsplit, hbefore⟩ := stop_surveyOf_eq_some.1 hstop
  have hsplit' : nodes ++ more = before ++ node :: (after ++ more) := by
    rw [hsplit, List.append_assoc, List.cons_append]
  have hstop' : (surveyOf stops v (nodes ++ more)).stop = some (node, outcome) :=
    stop_surveyOf_eq_some.2 ⟨hv, hstops, before, after ++ more, hsplit', hbefore⟩
  rw [decides_rowOutcome.of_stop node outcome hstop,
    decides_rowOutcome.of_stop node outcome hstop']

/-- Where no negative outcome decides, what negative outcomes become is not seen. -/
theorem yields_rowOutcome (h : ∀ node ∈ nodes, Yields (· = .negative) (v node) (v' node)) :
    Yields (· = .negative) (rowOutcome Outcome.isFailure v nodes)
      (rowOutcome Outcome.isFailure v' nodes) := by
  intro hnegative
  have hpassed : ∀ node ∈ nodes, (v node).isFailure = false → v' node = v node := by
    intro node hnode hpasses
    refine h node hnode fun hv => ?_
    rw [hv] at hpasses
    exact Bool.noConfusion hpasses
  -- both rows stop at the same node: before it nothing is negative, and neither is its own outcome
  apply rowOutcome_eq_of_stop_eq
  cases hstop : (surveyOf Outcome.isFailure v nodes).stop with
  | none =>
      rw [stop_surveyOf_eq_none] at hstop ⊢
      intro node hnode
      rw [hpassed node hnode (hstop node hnode), hstop node hnode]
  | some s =>
      obtain ⟨node, outcome⟩ := s
      rw [decides_rowOutcome.of_stop node outcome hstop] at hnegative
      obtain ⟨rfl, hstops, before, after, rfl, hbefore⟩ := stop_surveyOf_eq_some.1 hstop
      have hnode : v' node = v node := h node (by simp) hnegative
      refine stop_surveyOf_eq_some.2 ⟨hnode, hstops, before, after, rfl, fun x hx => ?_⟩
      rw [hpassed x (List.mem_append_left _ hx) (hbefore x hx), hbefore x hx]

end Rows

/-! ## Permissions -/

variable {e e' : Evaluator} {rule : String} {p : Verdict → Prop}

theorem yields_behindGates {continue_ continue_' : String → Evaluation Verdict}
    (hsettled : ∀ action, e.Settled (continue_ action))
    (hsettled' : ∀ action, e'.Settled (continue_' action))
    (hgate : (e'.fresh (e'.gate rule)).value = (e.fresh (e.gate rule)).value)
    (hfirst : e'.graph.firstObject? rule Vocabulary.action =
      e.graph.firstObject? rule Vocabulary.action)
    (hcontinue : ∀ action, e.graph.firstObject? rule Vocabulary.action = some action →
      Yields p (e.fresh (continue_ action)).value (e'.fresh (continue_' action)).value) :
    Yields p (e.fresh (e.behindGates rule continue_)).value
      (e'.fresh (e'.behindGates rule continue_')).value := by
  rw [(comesTo_behindGates hsettled).value_eq, (comesTo_behindGates hsettled').value_eq, hgate,
    hfirst]
  cases (e.fresh (e.gate rule)).value with
  | some verdict => exact .refl _
  | none =>
      cases haction : e.graph.firstObject? rule Vocabulary.action with
      | none => exact .refl _
      | some action => exact hcontinue action haction

/-- With the same gates a permission yields as its duties do. -/
theorem yields_permission
    (hgate : (e'.fresh (e'.gate rule)).value = (e.fresh (e.gate rule)).value)
    (hfirst : e'.graph.firstObject? rule Vocabulary.action =
      e.graph.firstObject? rule Vocabulary.action)
    (hrefinements : ∀ action, e.graph.firstObject? rule Vocabulary.action = some action →
      (e'.fresh (e'.constraintSet .refinement action)).value =
        (e.fresh (e.constraintSet .refinement action)).value)
    (hduties : Yields p (ofDuties (e.fresh (e.allDuties rule)).value)
      (ofDuties (e'.fresh (e'.allDuties rule)).value)) :
    Yields p (e.fresh (e.permission rule)).value (e'.fresh (e'.permission rule)).value := by
  rw [(e.comesTo_permission rule).value_eq, (e'.comesTo_permission rule).value_eq]
  refine yields_behindGates (e.settled_permissionAction rule) (e'.settled_permissionAction rule)
    hgate hfirst fun action haction => ?_
  rw [(e.comesTo_permissionAction rule action).value_eq,
    (e'.comesTo_permissionAction rule action).value_eq, hrefinements action haction]
  cases (e.fresh (e.constraintSet .refinement action)).value with
  | positive => exact hduties
  | negative => exact .refl _
  | notExisting => exact hduties
  | error => exact .refl _

end Evaluator

end UsagePolicy
