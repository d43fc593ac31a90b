import UsagePolicy.CommandLine.Invocation
import UsagePolicy.Explanation
import UsagePolicy.Report.Markdown
import UsagePolicy.Run
/-!
# Plans

What a command does to files and says, worked out from the files that it reads. A plan is carried
out by writing its files; where that fails, the failure is all that is said.
-/

namespace UsagePolicy.CommandLine

/-- How a command ends. -/
structure Completion where
  exitCode : Nat
  stdout : String := ""
  stderr : String := ""
  deriving DecidableEq

/-- Why a command fails before it writes. -/
inductive CommandError
  | readCases (path : String)
  | run (error : RunError)
  | readReport (path : String)
  | parseReport (path : String) (error : ReportError)
  deriving DecidableEq

/-- The messages of an error, outermost first. -/
def CommandError.chain : CommandError → List String
  | readCases path => [s!"read case file: {path}", "<io error>"]
  | run error => error.chain
  | readReport path => [s!"read report: {path}", "<io error>"]
  | parseReport path error => s!"parse report: {path}" :: error.chain

/-- A failure on one line. -/
def failLine (chain : List String) : Completion :=
  let text := ": ".intercalate chain
  { exitCode := 1, stderr := s!"odrl-eval error: {text}\n" }

/-- Causes on lines of their own, numbered if there are several. -/
def causeLines : List String → String
  | [cause] => s!"    {cause}\n"
  | causes => String.join ((causes.zipIdx).map fun c => s!"    {c.2}: {c.1}\n")

/-- A failure with its causes below it. -/
def failBlock : List String → Completion
  | [] => { exitCode := 1 }
  | [message] => { exitCode := 1, stderr := s!"Error: {message}\n" }
  | message :: causes =>
    { exitCode := 1, stderr := s!"Error: {message}\n\nCaused by:\n" ++ causeLines causes }

/-- Files to write one after the other, and how the command ends if one cannot be written. -/
structure Writes where
  files : List (String × String)
  failure : WriteError → Completion

/-- What is written, and how the command ends after that. -/
structure Plan where
  writes : List Writes := []
  completion : Completion

/-- A plan that writes nothing. -/
def Plan.say (completion : Completion) : Plan := { completion := completion }

/-- The line of a report on the standard output. -/
def reportLine (r : CaseReport) : String :=
  match r.expectation with
  | none => s!"-         {r.name}: {r.verdict.label}\n"
  | some e =>
    if e.matched then s!"ok        {r.name}: {r.verdict.label}\n"
    else s!"MISMATCH  {r.name}: {r.verdict.label} (expected {e.expected})\n"

/-- The lines of all reports and their tally. -/
def reportLines (reports : List CaseReport) : String :=
  String.join (reports.map reportLine) ++
    s!"{reports.length} cases, {reports.countP (·.mismatched)} mismatched\n"

/-- The directory of a case file. -/
def baseDir (cases : String) : String :=
  match Path.parent? cases with
  | none | some "" => "."
  | some directory => directory

def readCases (files : FileTree) (path : String) : Except CommandError String :=
  match files.read? path with
  | some text => .ok text
  | none => .error (.readCases path)

def runResult (files : FileTree) (clock : Clock) (i : Invocation) (o : RunOptions) :
    Except CommandError RunResult := do
  let text ← readCases files i.cases
  (runCases files clock ⟨text, i.overrides, o.patterns, baseDir i.cases⟩).mapError .run

def planRun (files : FileTree) (clock : Clock) (i : Invocation) (o : RunOptions) : Plan :=
  match runResult files clock i o with
  | .error error => .say (failLine error.chain)
  | .ok result =>
    let cases : Writes := ⟨caseOutputs o.outDir result.reports,
      fun error => failLine ("write case outputs" :: error.chain)⟩
    let summary : Writes :=
      ⟨[(o.markdownOut, CaseReport.markdown (some result.profile.name) result.reports)],
        fun error => failLine ("write markdown" :: error.chain)⟩
    { writes := if o.writesMarkdown then [cases, summary] else [cases]
      completion :=
        { exitCode := exitCode result.reports, stdout := reportLines result.reports } }

def planList (files : FileTree) (i : Invocation) : Plan :=
  let resolved := do
    let text ← readCases files i.cases
    (CaseFile.load text i.overrides).mapError CommandError.run
  match resolved with
  | .error error => .say (failLine error.chain)
  | .ok resolved =>
    .say { exitCode := 0, stdout := String.join (resolved.cases.map fun c => s!"{c.line}\n") }

def readReport (files : FileTree) (path : String) : Except CommandError CaseReport :=
  match files.read? path with
  | none => .error (.readReport path)
  | some text => (CaseReport.parse text).mapError (.parseReport path)

/-- The summary of the reports at some paths, in the order of their cases. -/
def planMarkdown (files : FileTree) (paths : List String) (output : Option String) : Plan :=
  match paths.mapM (readReport files) with
  | .error error => .say (failBlock error.chain)
  | .ok reports =>
    let text := CaseReport.markdown none (reports.mergeSort fun a b => decide (a.name ≤ b.name))
    match output with
    | none => .say { exitCode := 0, stdout := text }
    | some path =>
      let summary : Writes :=
        ⟨[(path, text)], fun error => failBlock ("write markdown output" :: error.chain)⟩
      { writes := [summary], completion := { exitCode := 0 } }

def planExplain (identifier : String) : Plan :=
  match Explanation.find? identifier with
  | some e => .say { exitCode := 0, stdout := e.render }
  | none => .say { exitCode := 1, stderr := Explanation.renderMissing identifier }

def Invocation.plan (files : FileTree) (clock : Clock) (i : Invocation) : Plan :=
  match i.command with
  | .run o => planRun files clock i o
  | .list => planList files i
  | .markdown paths output => planMarkdown files paths output
  | .explain identifier => planExplain identifier

/-- The files that an invocation reads, as far as the files that are known tell. -/
def Invocation.reads (files : FileTree) (i : Invocation) : List String :=
  match i.command with
  | .list => [i.cases]
  | .markdown paths _ => paths
  | .explain _ => []
  | .run o =>
    let policies := do
      let text ← readCases files i.cases
      let resolved ← (CaseFile.load text i.overrides).mapError CommandError.run
      let cases ← (selectCases o.patterns resolved.cases).mapError CommandError.run
      return cases.map fun c : ResolvedCase => Path.join (baseDir i.cases) c.policy
    match policies with
    | .ok paths => i.cases :: paths
    | .error _ => [i.cases]

/-- How a reading that was interrupted ends; texts of help are left out. -/
def Interruption.completion : Interruption → Completion
  | refused => { exitCode := 2 }
  | help => { exitCode := 0 }
  | version => { exitCode := 0, stdout := s!"{Tool.current.name} {Tool.current.version}\n" }

/-- What a command line comes to. -/
def plan (files : FileTree) (clock : Clock) (arguments : List String) : Plan :=
  match Invocation.parse arguments with
  | .error i => .say i.completion
  | .ok i => i.plan files clock

namespace Plan

/-- Writes files in a tree; what was written before a failure stays. -/
def carryOut (completion : Completion) (files : FileTree) :
    List Writes → Completion × FileTree
  | [] => (completion, files)
  | w :: ws =>
    match files.writeAll w.files with
    | .ok files => carryOut completion files ws
    | .error failure => (w.failure failure.error, failure.files)

/-- Carries a plan out in a tree of files. -/
def perform (p : Plan) (files : FileTree) : Completion × FileTree :=
  carryOut p.completion files p.writes

end Plan

end UsagePolicy.CommandLine
