import UsagePolicy.Proofs.Evaluation.Verdicts
/-!
# What entries warrant

A computation warrants a condition on its value if the condition holds whenever all entries that it
records are of one sort. Since a computation records whatever its steps record, warrants compose
along them, and a condition that could only fail with an entry of another sort is carried upwards
through all evaluations.
-/

namespace UsagePolicy.Evaluator

variable {α β : Type} {e : Evaluator}

/-- What a computation comes to is what its steps come to, one after the other. -/
theorem fresh_bind {x : Evaluation α} {f : α → Evaluation β} (hx : e.Settled x)
    (hf : e.Settled (f (e.fresh x).value)) :
    e.fresh (x >>= f) = e.fresh x >>= fun a => e.fresh (f a) :=
  fresh_eq (Evaluation.Settles.then_ hx hf)

/-- If all entries that are recorded are of a sort, the value meets a condition. -/
structure Warrants (e : Evaluator) (sort : TraceEntry → Prop) (x : Evaluation α)
    (condition : α → Prop) : Prop where
  settled : e.Settled x
  holds : (∀ entry ∈ (e.fresh x).trace, sort entry) → condition (e.fresh x).value

namespace Warrants

variable {sort : TraceEntry → Prop} {p q : α → Prop} {r : β → Prop}

theorem pure {a : α} (h : p a) : e.Warrants sort (Pure.pure a) p :=
  ⟨.pure a, fun _ => h⟩

theorem mono {x : Evaluation α} (hx : e.Warrants sort x p) (h : ∀ a, p a → q a) :
    e.Warrants sort x q :=
  ⟨hx.settled, fun hentries => h _ (hx.holds hentries)⟩

/-- A condition that does not depend on the entries. -/
theorem of_value {x : Evaluation α} (hx : e.Settled x) (h : p (e.fresh x).value) :
    e.Warrants sort x p :=
  ⟨hx, fun _ => h⟩

theorem of_fresh_eq {x x' : Evaluation α} (hx : e.Warrants sort x p) (hx' : e.Settled x')
    (h : e.fresh x' = e.fresh x) : e.Warrants sort x' p := by
  refine ⟨hx', ?_⟩
  rw [h]
  exact hx.holds

/-- What a condition is about. -/
theorem known {x : Evaluation α} (hx : e.Warrants sort x p) :
    e.Warrants sort x fun a => a = (e.fresh x).value ∧ p a :=
  ⟨hx.settled, fun hentries => ⟨rfl, hx.holds hentries⟩⟩

theorem bind {x : Evaluation α} {f : α → Evaluation β} (hx : e.Warrants sort x p)
    (hf : ∀ a, (e.fresh x).value = a → e.Warrants sort (f a) fun b => p a → r b) :
    e.Warrants sort (x >>= f) r := by
  have hrest := hf _ rfl
  have hfresh := fresh_bind hx.settled hrest.settled
  refine ⟨.of_settles (Evaluation.Settles.then_ hx.settled hrest.settled), ?_⟩
  rw [hfresh, Traced.trace_bind, List.forall_mem_append]
  rintro ⟨hbefore, hafter⟩
  exact hrest.holds hafter (hx.holds hbefore)

/-- The rest of a computation knows what is recorded before it. -/
theorem record {kind : TraceKind} {message : String} {f : Unit → Evaluation β}
    (hf : e.Warrants sort (f ()) fun b => sort ⟨kind, message⟩ → r b) :
    e.Warrants sort (Evaluation.record kind message >>= f) r := by
  have hsettled := Settled.record (e := e) kind message
  have hrecord : e.Warrants sort (Evaluation.record kind message)
      fun _ => sort ⟨kind, message⟩ :=
    ⟨hsettled, fun hentries => hentries _ (List.mem_singleton.2 rfl)⟩
  exact hrecord.bind fun _ _ => hf

theorem fault {f : EvaluationFault} {p : Outcome → Prop}
    (h : sort ⟨.error, f.message⟩ → p .error) : e.Warrants sort (Evaluation.fault f) p :=
  record (pure h)

/-- Without a failure an evaluation goes on, whether the outcome exists or not. -/
theorem guard {x : Evaluation Outcome} {f : Outcome → Evaluation β} {p : Outcome → Prop}
    (hx : e.Warrants sort x p)
    (hnegative : e.Warrants sort (f .negative) fun b => p .negative → r b)
    (herror : e.Warrants sort (f .error) fun b => p .error → r b)
    (hsame : f .notExisting = f .positive)
    (hpositive : e.Warrants sort (f .positive) fun b => p .positive ∨ p .notExisting → r b) :
    e.Warrants sort (x >>= f) r := by
  refine hx.bind fun outcome _ => ?_
  cases outcome with
  | positive => exact hpositive.mono fun _ h hp => h (.inl hp)
  | negative => exact hnegative
  | notExisting =>
      rw [hsame]
      exact hpositive.mono fun _ h hp => h (.inr hp)
  | error => exact herror

/-- The verdict that is recorded at the end is the one that was come to. -/
theorem conclude {x : Evaluation Verdict} {p : Verdict → Prop} (hx : e.Warrants sort x p)
    (kind : RuleKind) (rule : String) : e.Warrants sort (x >>= Evaluator.conclude kind rule) p := by
  refine hx.bind fun verdict _ => ?_
  have hconclude := e.comesTo_conclude kind rule verdict
  refine of_value hconclude.settled ?_
  rw [hconclude.value_eq]
  exact id

/-- A constraint is answered by the oracle, or its operands are counted. -/
theorem constraintNode {relation : ConstraintRelation} {node : String} {p : Outcome → Prop}
    (hatomic : e.Warrants sort (e.atomicConstraint relation node) p)
    (hlogical : ∀ (operator : Operator) operands, p (operator.outcome operands)) :
    e.Warrants sort (e.constraintNode relation node) p := by
  have hsettled := e.settled_constraintNode relation node
  cases hop : e.graph.operands? node with
  | none =>
      have hfresh : e.fresh (e.constraintNode relation node) =
          e.fresh (e.atomicConstraint relation node) := by
        rw [fresh_constraintNode, below_atomic hop, fresh_atomicConstraint]
      exact hatomic.of_fresh_eq hsettled hfresh
  | some r =>
      obtain ⟨operator, operands⟩ := r
      apply of_value hsettled
      rw [fresh_constraintNode, below_logical hop List.not_mem_nil]
      exact hlogical operator _

end Warrants

/-! ## Rows of nodes -/

/-- What a survey tells of its nodes, given a condition on the outcome of each. -/
structure Tells (stops : Outcome → Bool) (p : String → Outcome → Prop) (nodes : List String)
    (s : Survey) : Prop where
  of_stop : ∀ node outcome, s.stop = some (node, outcome) →
    node ∈ nodes ∧ stops outcome = true ∧ p node outcome
  of_none : s.stop = none → ∀ node ∈ nodes, ∃ outcome, stops outcome = false ∧ p node outcome

/-- Nothing stops a survey if and only if nothing could. -/
theorem Tells.stop_eq_none_iff {stops : Outcome → Bool} {p : String → Outcome → Prop}
    {nodes : List String} {s : Survey} {condition : String → Prop} (h : Tells stops p nodes s)
    (hp : ∀ node outcome, p node outcome → (stops outcome = false ↔ condition node)) :
    s.stop = none ↔ ∀ node ∈ nodes, condition node := by
  constructor
  · intro hstop node hnode
    obtain ⟨outcome, hpass, houtcome⟩ := h.of_none hstop node hnode
    exact (hp node outcome houtcome).1 hpass
  · intro hall
    by_contra hne
    obtain ⟨⟨node, outcome⟩, hstop⟩ := Option.ne_none_iff_exists'.1 hne
    obtain ⟨hnode, hfail, houtcome⟩ := h.of_stop node outcome hstop
    have hpass := (hp node outcome houtcome).2 (hall node hnode)
    exact Bool.eq_false_iff.1 hpass hfail

theorem Warrants.survey {sort : TraceEntry → Prop} {stops : Outcome → Bool}
    {f : String → Evaluation Outcome} {p : String → Outcome → Prop} {nodes : List String}
    (hf : ∀ node ∈ nodes, e.Warrants sort (f node) (p node)) :
    e.Warrants sort (.survey stops f nodes) (Tells stops p nodes) := by
  induction nodes with
  | nil => exact .pure ⟨nofun, fun _ => nofun⟩
  | cons node nodes ih =>
      have hrest := ih fun n hn => hf n (List.mem_cons_of_mem node hn)
      refine (hf node List.mem_cons_self).bind fun outcome _ => ?_
      by_cases hstop : stops outcome = true
      · rw [if_pos hstop]
        refine .pure fun hp => ⟨?_, nofun⟩
        rintro _ _ ⟨⟩
        exact ⟨List.mem_cons_self, hstop, hp⟩
      · rw [if_neg hstop]
        refine hrest.bind fun s _ => .pure fun htells hp => ⟨?_, ?_⟩
        · intro n o hs
          obtain ⟨hn, ho⟩ := htells.of_stop n o hs
          exact ⟨List.mem_cons_of_mem node hn, ho⟩
        · intro hs
          exact List.forall_mem_cons.2
            ⟨⟨outcome, Bool.eq_false_iff.2 hstop, hp⟩, htells.of_none hs⟩

theorem Decides.stopped {s : Survey} {node : String} {outcome : Outcome}
    (h : s.stop = some (node, outcome)) : Decides s outcome := by
  constructor
  · rw [h]
    rintro _ _ ⟨⟩
    rfl
  · rw [h]
    exact nofun

theorem Decides.passed {s : Survey} {outcome : Outcome} (h : s.stop = none)
    (ho : outcome.Passes) : Decides s outcome := by
  constructor
  · rw [h]
    exact nofun
  · intro _
    exact ho

/-- A row whose outcome is decided by the node that stops it. -/
theorem Warrants.row {sort : TraceEntry → Prop} {f : String → Evaluation Outcome}
    {g : Survey → Evaluation Outcome} {p : String → Outcome → Prop} {condition : String → Prop}
    {nodes : List String} (hf : ∀ node ∈ nodes, e.Warrants sort (f node) (p node))
    (hp : ∀ node outcome, p node outcome → (outcome.Passes ↔ condition node))
    (hg : ∀ s, e.Warrants sort (g s) (Decides s)) :
    e.Warrants sort (.survey Outcome.isFailure f nodes >>= g) fun o =>
      (o.Passes ↔ ∀ node ∈ nodes, condition node) ∧ (o.Passes ∨ ∃ node, p node o) := by
  have hpass : ∀ node outcome, p node outcome → (outcome.isFailure = false ↔ condition node) := by
    intro node outcome houtcome
    rw [← Outcome.passes_iff]
    exact hp node outcome houtcome
  refine (Warrants.survey hf).bind fun s _ => (hg s).mono fun o hdecides htells => ?_
  rw [← htells.stop_eq_none_iff hpass]
  cases hstop : s.stop with
  | none => exact ⟨iff_of_true (hdecides.of_none hstop) rfl, .inl (hdecides.of_none hstop)⟩
  | some r =>
      obtain ⟨node, outcome⟩ := r
      obtain ⟨-, hfail, houtcome⟩ := htells.of_stop node outcome hstop
      obtain rfl := hdecides.of_stop node outcome hstop
      refine ⟨iff_of_false (Outcome.not_passes_iff.2 hfail) ?_, .inr ⟨node, houtcome⟩⟩
      exact Option.some_ne_none _

end UsagePolicy.Evaluator
