import UsagePolicy.Trace
/-!
# Journals

An evaluator writes down what it does: the entries it records, and the logical constraints it opens
and closes again. A journal can only be continued. What is open follows from it, and so does the
trace.
-/

namespace UsagePolicy

inductive Event
  | entry (entry : TraceEntry)
  | opened (node : String)
  | closed
  | exhausted
  deriving DecidableEq

namespace Event

def entry? : Event → Option TraceEntry
  | entry e => some e
  | opened _ | closed | exhausted => none

/-- What is open after an event, innermost first, given what was open before. -/
def act : Event → List String → List String
  | opened node, nodes => node :: nodes
  | closed, nodes => nodes.tail
  | entry _, nodes | exhausted, nodes => nodes

end Event

/-- The events of an evaluator, the latest one first. -/
abbrev Journal := List Event

namespace Journal

/-- A journal in which entries were recorded and nothing else happened. -/
def ofTrace (entries : List TraceEntry) : Journal :=
  (entries.map Event.entry).reverse

/-- The entries in the order in which they were recorded. -/
def trace (j : Journal) : List TraceEntry :=
  j.reverse.filterMap Event.entry?

/-- What is open after further events, given what was open before them. -/
def replay (events : Journal) (nodes : List String) : List String :=
  events.foldr Event.act nodes

/-- The logical constraints under evaluation, innermost first. -/
def openNodes (j : Journal) : List String :=
  j.replay []

@[simp] theorem trace_nil : trace [] = [] := rfl

@[simp] theorem trace_append (events j : Journal) :
    trace (events ++ j) = j.trace ++ events.trace := by
  simp [trace]

@[simp] theorem trace_ofTrace (entries : List TraceEntry) : (ofTrace entries).trace = entries := by
  simp [trace, ofTrace, List.filterMap_map, Function.comp_def, Event.entry?]

@[simp] theorem replay_nil (nodes : List String) : replay [] nodes = nodes := rfl

@[simp] theorem replay_cons (event : Event) (j : Journal) (nodes : List String) :
    replay (event :: j) nodes = event.act (j.replay nodes) := rfl

@[simp] theorem replay_append (events j : Journal) (nodes : List String) :
    replay (events ++ j) nodes = events.replay (j.replay nodes) :=
  List.foldr_append

theorem openNodes_append (events j : Journal) :
    openNodes (events ++ j) = events.replay j.openNodes :=
  replay_append events j []

@[simp] theorem openNodes_ofTrace (entries : List TraceEntry) :
    (ofTrace entries).openNodes = [] := by
  induction entries with
  | nil => rfl
  | cons e entries ih =>
      have h : ofTrace (e :: entries) = ofTrace entries ++ [.entry e] := by simp [ofTrace]
      rw [h, openNodes_append]
      exact ih

end Journal

end UsagePolicy
