import UsagePolicy.Report
import UsagePolicy.Text.Lines
/-!
# Case logs

The trace of a case, line by line, between an opening and a closing line with the times at which
its evaluation began and ended.
-/

namespace UsagePolicy.Report

/-- What stands before the time in the opening and the closing line. -/
def timeMark : String := "  -- on/at "

def renderLog (case startedAt finishedAt : String) (lines : List String) : String :=
  let opening := s!"START with test case: {case}{timeMark}{startedAt}"
  let closing := s!"CLOSING test case: {case}{timeMark}{finishedAt}"
  String.join ((opening :: lines ++ [closing]).map fun line => s!" {line}\n")

/-- A line with the time after the first mark, if there is one, replaced by a placeholder. -/
def maskLogLine (line : String) : String :=
  match Text.splitOnce? timeMark.toList line.toList with
  | some (before, _) => s!"{String.ofList before}{timeMark}__TIMESTAMP__"
  | none => line

/-- A log without the times, which differ from run to run. -/
def maskLog (text : String) : String :=
  String.join ((Text.lines text).map fun line => s!"{maskLogLine line}\n")

end UsagePolicy.Report

namespace UsagePolicy

def CaseReport.log (r : CaseReport) : String :=
  Report.renderLog r.name r.startedAt.render r.finishedAt.render r.lines

end UsagePolicy
