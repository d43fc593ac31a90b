import UsagePolicy.Proofs.Evaluation.Operations
/-!
# Sessions

Between two requests nothing is open. Every answer of a session is therefore the one that a new
evaluator gives, and its entries come after all the entries before it.
-/

namespace UsagePolicy.Session

/-- A request on a new evaluator with an empty trace. -/
def alone (e : Evaluator) (r : Request) : Answer × Session :=
  (begin e []).ask r

/-- Nothing is open. -/
def Idle (s : Session) : Prop :=
  s.journal.openNodes = []

variable {s : Session}

theorem idle_begin (e : Evaluator) (held : List TraceEntry) : (begin e held).Idle :=
  Journal.openNodes_ofTrace held

theorem trace_begin (e : Evaluator) (held : List TraceEntry) : (begin e held).trace = held :=
  Journal.trace_ofTrace held

/-! ## One request -/

theorem ask_eq (h : s.Idle) (r : Request) :
    s.ask r = ((s.evaluator.fresh (s.evaluator.answer r)).value,
      ⟨s.evaluator, (s.evaluator.fresh (s.evaluator.answer r)).journal ++ s.journal⟩) := by
  have hrun := (s.evaluator.settled_answer r).run_eq _ (Nat.le_refl _) s.journal h
  rw [ask, hrun]

theorem evaluator_ask (s : Session) (r : Request) : (s.ask r).2.evaluator = s.evaluator := rfl

theorem Idle.ask (h : s.Idle) (r : Request) : (s.ask r).2.Idle := by
  rw [ask_eq h, Idle, Journal.openNodes_append, h]
  exact (s.evaluator.settled_answer r).balanced.replay_eq

theorem answer_ask (h : s.Idle) (r : Request) : (s.ask r).1 = (alone s.evaluator r).1 := by
  rw [ask_eq h, alone, ask_eq (idle_begin _ _)]
  rfl

theorem trace_ask (h : s.Idle) (r : Request) :
    (s.ask r).2.trace = s.trace ++ (alone s.evaluator r).2.trace := by
  rw [ask_eq h, alone, ask_eq (idle_begin _ _)]
  show Journal.trace (_ ++ s.journal) = s.journal.trace ++ Journal.trace (_ ++ [])
  rw [Journal.trace_append, List.append_nil]
  rfl

/-! ## A row of requests -/

theorem evaluator_askAll (s : Session) (rs : List Request) :
    (s.askAll rs).2.evaluator = s.evaluator := by
  induction rs generalizing s with
  | nil => rfl
  | cons r rs ih => exact ih (s.ask r).2

theorem Idle.askAll (h : s.Idle) (rs : List Request) : (s.askAll rs).2.Idle := by
  induction rs generalizing s with
  | nil => exact h
  | cons r rs ih => exact ih (h.ask r)

theorem answers_askAll (h : s.Idle) (rs : List Request) :
    (s.askAll rs).1 = rs.map fun r => (alone s.evaluator r).1 := by
  induction rs generalizing s with
  | nil => rfl
  | cons r rs ih =>
      have htail := ih (h.ask r)
      rw [evaluator_ask] at htail
      rw [List.map_cons, ← htail, ← answer_ask h]
      rfl

theorem trace_askAll (h : s.Idle) (rs : List Request) :
    (s.askAll rs).2.trace = s.trace ++ rs.flatMap fun r => (alone s.evaluator r).2.trace := by
  induction rs generalizing s with
  | nil => exact (List.append_nil _).symm
  | cons r rs ih =>
      have htail := ih (h.ask r)
      rw [evaluator_ask, trace_ask h] at htail
      rw [List.flatMap_cons, ← List.append_assoc]
      exact htail

/-- A request after any others is answered as on a new evaluator, and recorded behind the entries
that were there before. -/
theorem ask_after (e : Evaluator) (held : List TraceEntry) (before : List Request) (r : Request) :
    let answers := ((begin e held).askAll before).1
    let s := ((begin e held).askAll before).2
    answers = before.map (fun r => (alone e r).1) ∧
      s.trace = held ++ before.flatMap (fun r => (alone e r).2.trace) ∧
      (s.ask r).1 = (alone e r).1 ∧
      (s.ask r).2.trace = s.trace ++ (alone e r).2.trace := by
  intro answers s
  have hbegin := idle_begin e held
  have hidle : s.Idle := hbegin.askAll before
  have he : s.evaluator = e := evaluator_askAll (begin e held) before
  refine ⟨answers_askAll hbegin before, ?_, ?_, ?_⟩
  · rw [trace_askAll hbegin, trace_begin]
    rfl
  · rw [answer_ask hidle, he]
  · rw [trace_ask hidle, he]

end UsagePolicy.Session
