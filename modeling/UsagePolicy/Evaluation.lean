import UsagePolicy.Category
import UsagePolicy.Evaluation.Journal
import UsagePolicy.Outcome
/-!
# Evaluations

A computation of an evaluator. It is told how deep constraints may nest, continues the evaluator's
journal, and comes to a value.
-/

namespace UsagePolicy

/-- What can go wrong in an evaluation. -/
inductive EvaluationFault
  | missingGraph
  | missingReference (subject : String) (relation : String)
  | oracleMiss (node : String) (category : Category)
  | cyclicConstraint (node : String)
  | unclassifiedRule (rule : String)
  deriving DecidableEq

def EvaluationFault.message : EvaluationFault → String
  | missingGraph => "no policy graph supplied"
  | missingReference subject relation => s!"'{subject}' has no '{relation}' relation"
  | oracleMiss node category =>
    s!"no preset for '{node}' and no default for category '{category.name}'"
  | cyclicConstraint node => s!"logical constraint '{node}' is one of its own operands"
  | unclassifiedRule rule =>
    s!"rule '{rule}' is not referenced as a permission, prohibition, obligation or duty"

structure Evaluation (α : Type) where
  run : (allowance : Nat) → Journal → α × Journal

/-- A value together with what happened while it was computed. -/
structure Traced (α : Type) where
  value : α
  journal : Journal

namespace Traced

instance : Monad Traced where
  pure a := ⟨a, []⟩
  bind t f := ⟨(f t.value).value, (f t.value).journal ++ t.journal⟩

def trace {α : Type} (t : Traced α) : List TraceEntry := t.journal.trace

def lines {α : Type} (t : Traced α) : List String := t.trace.map TraceEntry.line

@[simp] theorem value_pure {α : Type} (a : α) : (pure a : Traced α).value = a := rfl

@[simp] theorem trace_pure {α : Type} (a : α) : (pure a : Traced α).trace = [] := rfl

@[simp] theorem value_bind {α β : Type} (t : Traced α) (f : α → Traced β) :
    (t >>= f).value = (f t.value).value := rfl

@[simp] theorem trace_bind {α β : Type} (t : Traced α) (f : α → Traced β) :
    (t >>= f).trace = t.trace ++ (f t.value).trace :=
  Journal.trace_append _ _

instance : LawfulMonad Traced := LawfulMonad.mk' Traced
  (fun t => by
    show (⟨t.value, [] ++ t.journal⟩ : Traced _) = t
    rw [List.nil_append])
  (fun a f => by
    show (⟨(f a).value, (f a).journal ++ []⟩ : Traced _) = f a
    rw [List.append_nil])
  (fun t f g => by
    show (⟨_, _ ++ ((f t.value).journal ++ t.journal)⟩ : Traced _) = ⟨_, (_ ++ _) ++ t.journal⟩
    rw [List.append_assoc]
    rfl)

end Traced

namespace Evaluation

instance : Monad Evaluation where
  pure a := ⟨fun _ j => (a, j)⟩
  bind x f := ⟨fun n j =>
    let r := x.run n j
    (f r.1).run n r.2⟩

instance : LawfulMonad Evaluation := LawfulMonad.mk' Evaluation
  (fun _ => rfl) (fun _ _ => rfl) (fun _ _ _ => rfl)

@[simp] theorem run_pure {α : Type} (a : α) (n : Nat) (j : Journal) :
    (pure a : Evaluation α).run n j = (a, j) := rfl

@[simp] theorem run_bind {α β : Type} (x : Evaluation α) (f : α → Evaluation β) (n : Nat)
    (j : Journal) : (x >>= f).run n j = (f (x.run n j).1).run n (x.run n j).2 := rfl

def allowance : Evaluation Nat := ⟨fun n j => (n, j)⟩

def isOpen (node : String) : Evaluation Bool := ⟨fun _ j => (decide (node ∈ j.openNodes), j)⟩

def note (event : Event) : Evaluation Unit := ⟨fun _ j => ((), event :: j)⟩

def record (kind : TraceKind) (message : String) : Evaluation Unit :=
  note (.entry ⟨kind, message⟩)

/-- A decision. -/
def result (message : String) : Evaluation Unit := record .result message

/-- The beginning of a step. -/
def step (message : String) : Evaluation Unit := record .nextStep message

def error (message : String) : Evaluation Unit := record .error message

/-- A fault that ends in the outcome `error`. -/
def fault (f : EvaluationFault) : Evaluation Outcome := do
  error f.message
  return .error

/-- What is left of a constraint that is nested deeper than allowed. -/
def exhausted : Evaluation Outcome := do
  note .exhausted
  return .error

/-- A computation on a new journal. -/
def traced {α : Type} (x : Evaluation α) (allowance : Nat) : Traced α :=
  let r := x.run allowance []
  ⟨r.1, r.2⟩

end Evaluation

end UsagePolicy
