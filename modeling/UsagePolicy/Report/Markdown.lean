import UsagePolicy.Report
/-!
# Markdown summaries

A table of cases under their tally.
-/

namespace UsagePolicy.Report

inductive RowStatus
  | pass
  | mismatch
  | unchecked
  deriving DecidableEq

namespace RowStatus

def all : List RowStatus := [pass, mismatch, unchecked]

def name : RowStatus → String
  | pass => "pass"
  | mismatch => "mismatch"
  | unchecked => "unchecked"

/-- The entry of the last column. -/
def mark : RowStatus → String
  | pass => "ok"
  | mismatch => "MISMATCH"
  | unchecked => "-"

end RowStatus

/-- A case as a row of the table. -/
structure Row where
  name : String
  rule : String
  kind : String
  round : String
  verdict : String
  expected : Option String
  status : RowStatus

def Row.render (r : Row) : String :=
  s!"| `{r.name}` | `{r.rule}` | {r.kind} | {r.round} | {r.verdict} | " ++
    s!"{r.expected.getD (RowStatus.mark .unchecked)} | {r.status.mark} |\n"

def countStatus (status : RowStatus) (rows : List Row) : Nat :=
  rows.countP (·.status == status)

/-- A summary fails if a row is a mismatch. -/
def resultWord (rows : List Row) : String :=
  if 0 < countStatus .mismatch rows then "FAIL" else "PASS"

def renderTally (profile : Option String) (rows : List Row) : String :=
  let passed := countStatus .pass rows
  let mismatched := countStatus .mismatch rows
  let unchecked := countStatus .unchecked rows
  s!"- Result: **{resultWord rows}**\n" ++
    s!"- Cases: {rows.length} ({passed} passed, {mismatched} mismatched, " ++
      s!"{unchecked} without expectation)\n" ++
    match profile with
    | some profile => s!"- Profile: `{profile}`\n"
    | none => ""

def renderTable : List Row → String
  | [] => "No cases.\n"
  | rows =>
    "| Case | Rule | Kind | Round | Verdict | Expected | Result |\n" ++
      "|---|---|---|---|---|---|---|\n" ++ String.join (rows.map Row.render)

def renderMarkdown (profile : Option String) (rows : List Row) : String :=
  "# odrl-eval summary\n\n" ++ renderTally profile rows ++ "\n" ++ renderTable rows

end UsagePolicy.Report

namespace UsagePolicy.CaseReport

def status (r : CaseReport) : Report.RowStatus :=
  match r.expectation with
  | none => .unchecked
  | some e => if e.matched then .pass else .mismatch

def row (r : CaseReport) : Report.Row :=
  ⟨r.name, r.rule, r.kind.name, r.round.name, r.verdict.label, r.expectation.map (·.expected),
    r.status⟩

def markdown (profile : Option String) (reports : List CaseReport) : String :=
  Report.renderMarkdown profile (reports.map row)

end UsagePolicy.CaseReport
