import UsagePolicy.CaseFile.Resolve
import UsagePolicy.Digest.Sha256
import UsagePolicy.Evaluation.Rule
import UsagePolicy.Glob
import UsagePolicy.Policy
import UsagePolicy.Report
import UsagePolicy.Report.Json
import UsagePolicy.Report.Log
/-!
# Runs

A run resolves a case file, selects cases by name, loads each policy they stand in once and then
evaluates every case. The cases are evaluated side by side, each by itself; if some fail, the run
fails with the error of the one whose turn is first. Reports are written beside their logs.
-/

namespace UsagePolicy

/-- The clock as it is read in the course of a run, twice by each case: by the case in place `i` of
the row at its start, as reading `2 * i`, and at its end. -/
abbrev Clock := Nat → Timestamp

/-! ## Schedules -/

/-- The turns at which steps that are taken side by side come to their ends, by their places in the
row. The steps do not settle them, and so not which of several errors is met first. -/
abbrev Schedule := Nat → Nat

namespace Schedule

variable {ε α : Type}

/-- One step after the other. -/
def inOrder : Schedule := id

/-- The errors of the steps that fail, each with its turn. -/
def failures (schedule : Schedule) : List (Except ε α) → List (Nat × ε)
  | [] => []
  | .ok _ :: outcomes => failures (schedule <| · + 1) outcomes
  | .error e :: outcomes => (schedule 0, e) :: failures (schedule <| · + 1) outcomes

/-- The results of all steps; if some fail, the error of the one whose turn is first, and of those
with one turn that in the first place. -/
def collect (schedule : Schedule) (outcomes : List (Except ε α)) : Except ε (List α) :=
  match (schedule.failures outcomes).minOn? (·.1) with
  | some failure => .error failure.2
  | none => outcomes.mapM id

end Schedule

/-! ## Steps of a run -/

/-- Why there is no run. -/
inductive RunError
  | caseFile
  | resolve (error : ResolveError)
  | glob (pattern : String)
  | noCase (patterns : List String)
  | load (case : String) (error : LoadError)
  | notLoaded (policy : String)
  | evaluate (case rule : String) (fault : EvaluationFault)
  deriving DecidableEq

/-- The messages of an error, outermost first. -/
def RunError.chain : RunError → List String
  | caseFile => ["parse case file", "<toml error>"]
  | resolve error => ["resolve case file", error.message]
  | glob pattern => [s!"invalid case glob: {pattern}", "<glob error>"]
  | noCase patterns =>
    let listed := ", ".intercalate patterns
    [s!"no case matches {listed}"]
  | load case error => s!"load policy for case {case}" :: error.chain
  | notLoaded policy => [s!"policy graph not loaded: {policy}"]
  | evaluate case rule fault => [s!"case {case}: evaluate {rule}", fault.message]

/-- The tool that signs reports. -/
def Tool.current : Tool := ⟨"odrl-eval", "0.1.0"⟩

/-- Reads and resolves the text of a case file. -/
def CaseFile.load (text : String) (o : Overrides) : Except RunError ResolvedCases :=
  match CaseFile.parse? text with
  | none => .error .caseFile
  | some file => (file.resolve o).mapError .resolve

/-- The cases whose names match one of the patterns; without a pattern all of them. -/
def selectCases (patterns : List String) (cases : List ResolvedCase) :
    Except RunError (List ResolvedCase) := do
  let globs ← patterns.mapM fun p => match Glob.parse? p with
    | some glob => .ok glob
    | none => .error (RunError.glob p)
  let selected := cases.filter fun c => globs.isEmpty || globs.any (·.matchesName c.name)
  if selected.isEmpty && !patterns.isEmpty then .error (.noCase patterns) else .ok selected

/-- Policies by the paths under which cases name them. -/
abbrev LoadedPolicies := Std.TreeMap String Policy

/-- The SHA-256 hash of the lines, joined by line feeds. -/
def traceDigest (lines : List String) : String :=
  Digest.Sha256.hex (Digest.Sha256.hash ("\n".intercalate lines).toUTF8.toList)

namespace ResolvedCase

/-- Loads the policy that a case stands in, unless it is there already. -/
def loadPolicy (files : FileTree) (baseDir : String) (loaded : LoadedPolicies) (c : ResolvedCase) :
    Except RunError LoadedPolicies :=
  if loaded.contains c.policy then .ok loaded
  else
    match files.loadPolicy (Path.join baseDir c.policy) with
    | .ok policy => .ok (loaded.insert c.policy policy)
    | .error error => .error (.load c.name error)

/-- The policy that a case stands in. -/
def policyIn (loaded : LoadedPolicies) (c : ResolvedCase) : Except RunError Policy :=
  match loaded[c.policy]? with
  | some policy => .ok policy
  | none => .error (.notLoaded c.policy)

/-- The first entry of a case's trace. -/
def opening (c : ResolvedCase) (policy : Policy) : TraceEntry :=
  ⟨.message, s!"{policy.format.name} policy '{c.policy}' read and parsed, " ++
    s!"{policy.graph.size} statements"⟩

/-- Evaluates a case on its policy; the clock was read before and after. -/
def evaluate (c : ResolvedCase) (policy : Policy) (startedAt finishedAt : Timestamp) :
    Except RunError CaseReport :=
  let t := evaluateRule (some policy.graph) c.presets.oracle c.round c.rule c.kind
  match t.value with
  | .error fault => .error (.evaluate c.name c.rule fault)
  | .ok ruling =>
    let trace := c.opening policy :: t.trace
    .ok {
      schema := CaseReport.schemaName
      tool := .current
      name := c.name
      description := c.description
      policy := c.policy
      rule := c.rule
      kind := ruling.kind
      round := c.round
      startedAt := startedAt
      finishedAt := finishedAt
      verdict := ruling.report
      expectation := c.expect.map fun e => ⟨e.text, e.isMetBy ruling.report⟩
      trace := trace
      digest := traceDigest (trace.map TraceEntry.line) }

/-- What a case comes to by itself, once policies are loaded. -/
def evaluateIn (loaded : LoadedPolicies) (c : ResolvedCase) (startedAt finishedAt : Timestamp) :
    Except RunError CaseReport := do
  let policy ← c.policyIn loaded
  c.evaluate policy startedAt finishedAt

end ResolvedCase

/-- Loads the policies of cases, each one once. -/
def loadPolicies (files : FileTree) (baseDir : String) (cases : List ResolvedCase) :
    Except RunError LoadedPolicies :=
  cases.foldlM (ResolvedCase.loadPolicy files baseDir) ∅

/-- Evaluates cases side by side. -/
def evaluateCases (loaded : LoadedPolicies) (clock : Clock) (schedule : Schedule)
    (cases : List ResolvedCase) : Except RunError (List CaseReport) :=
  schedule.collect (cases.mapIdx fun i c =>
    c.evaluateIn loaded (clock (2 * i)) (clock (2 * i + 1)))

/-- What a run starts from. Paths of policies are relative to `baseDir`. -/
structure RunInput where
  caseFile : String
  overrides : Overrides := {}
  patterns : List String := []
  baseDir : String := "."

/-- The profile under which the cases were resolved, and a report on each that was selected. -/
structure RunResult where
  profile : Profile
  reports : List CaseReport

/-- Runs the selected cases and reports on them in the order of their names. Unless there is another
schedule, they end in that order as well. -/
def runCases (files : FileTree) (clock : Clock) (input : RunInput)
    (schedule : Schedule := .inOrder) : Except RunError RunResult := do
  let resolved ← CaseFile.load input.caseFile input.overrides
  let cases ← selectCases input.patterns resolved.cases
  let loaded ← loadPolicies files input.baseDir cases
  let reports ← evaluateCases loaded clock schedule cases
  return ⟨resolved.profile, reports⟩

/-- Whether files can no longer be written, and the state in which that left them. -/
structure WriteFailure where
  error : WriteError
  files : FileTree

/-- Writes files one after the other; those before a failure stay written. -/
def FileTree.writeAll (files : FileTree) : List (String × String) → Except WriteFailure FileTree
  | [] => .ok files
  | (path, text) :: rest =>
    match files.write path text with
    | .ok files => files.writeAll rest
    | .error error => .error ⟨error, files⟩

/-- The files of a report in a directory, with their texts: the report itself and then its log. -/
def CaseReport.outputs (r : CaseReport) (outDir : String) : List (String × String) :=
  [(Path.join outDir (Report.reportFileName r.name), r.serialize),
    (Path.join outDir (Report.logFileName r.name), r.log)]

/-- The files of all reports. -/
def caseOutputs (outDir : String) (reports : List CaseReport) : List (String × String) :=
  reports.flatMap (·.outputs outDir)

end UsagePolicy
