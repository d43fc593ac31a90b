/-!
# Traces

The decisions of an evaluation in the order in which they were made.
-/

namespace UsagePolicy

inductive TraceKind
  | message
  | result
  | nextStep
  | error
  deriving DecidableEq

namespace TraceKind

def all : List TraceKind := [message, result, nextStep, error]

/-- The kind's name in reports. -/
def name : TraceKind → String
  | message => "msg"
  | result => "test_result"
  | nextStep => "next_step"
  | error => "error"

/-- The kind's name in a rendered line. -/
def heading : TraceKind → String
  | message => "MSG"
  | result => "TESTRESULT"
  | nextStep => "NEXT STEP"
  | error => "ERROR"

end TraceKind

structure TraceEntry where
  kind : TraceKind
  message : String
  deriving DecidableEq

def TraceEntry.line (e : TraceEntry) : String :=
  s!"{e.kind.heading}: {e.message}"

end UsagePolicy
