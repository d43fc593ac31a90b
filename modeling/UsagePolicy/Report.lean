import UsagePolicy.Round
import UsagePolicy.Timestamp
import UsagePolicy.Trace
import UsagePolicy.Verdict
/-!
# Case reports

What is kept of an evaluated case: the rule, the verdict, whether it was the expected one, and the
whole trace.
-/

namespace UsagePolicy

structure Tool where
  name : String
  version : String
  deriving DecidableEq

/-- An expectation as it is reported. -/
structure ExpectationReport where
  expected : String
  matched : Bool
  deriving DecidableEq

structure CaseReport where
  schema : String
  tool : Tool
  name : String
  description : Option String
  policy : String
  rule : String
  kind : RuleKind
  round : Round
  startedAt : Timestamp
  finishedAt : Timestamp
  verdict : VerdictReport
  expectation : Option ExpectationReport
  trace : List TraceEntry
  digest : String
  deriving DecidableEq

namespace CaseReport

/-- The schema of the reports that are written and read. -/
def schemaName : String := "odrl-eval.case-report.v1"

/-- There is an expectation, and it was not met. -/
def mismatched (r : CaseReport) : Bool :=
  r.expectation.any (!·.matched)

def passed (r : CaseReport) : Bool :=
  !r.mismatched

def lines (r : CaseReport) : List String :=
  r.trace.map TraceEntry.line

end CaseReport

/-- 2 when an expectation was not met, and otherwise 0. -/
def exitCode (reports : List CaseReport) : Nat :=
  if reports.all CaseReport.passed then 0 else 2

/-! ## File names -/

namespace Report

def isFileChar (c : Char) : Bool :=
  c.isAlphanum || c == '-' || c == '_' || c == '.'

/-- The name of a case with an underscore for every character that a file name does not keep. -/
def fileStem (case : String) : String :=
  String.ofList (case.toList.map fun c => if isFileChar c then c else '_')

def reportFileName (case : String) : String :=
  s!"{fileStem case}.report.json"

def logFileName (case : String) : String :=
  s!"CASE_{fileStem case}_log.txt"

end Report

end UsagePolicy
