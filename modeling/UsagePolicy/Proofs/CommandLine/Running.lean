import UsagePolicy.CommandLine.Plan
import UsagePolicy.Proofs.FileTrees.Writing
import UsagePolicy.Proofs.Run.Failing
/-!
# Runs from the command line

A run is planned in full before any of it is carried out: its files and its lines follow from the
reports on all cases. So a run that fails has written nothing and printed nothing.
-/

namespace UsagePolicy

/-- The report names an expectation, and the verdict is not the expected one. -/
def CaseReport.Unmatched (r : CaseReport) : Prop :=
  ∃ e, r.expectation = some e ∧ e.matched = false

theorem CaseReport.passed_iff (r : CaseReport) : r.passed = true ↔ ¬r.Unmatched := by
  unfold passed mismatched Unmatched
  cases r.expectation <;> simp

theorem exitCode_of_unmatched {reports : List CaseReport}
    (h : ∃ report ∈ reports, report.Unmatched) : exitCode reports = 2 := by
  obtain ⟨report, hreport, hunmatched⟩ := h
  refine if_neg fun hall => ?_
  exact report.passed_iff.1 (List.all_eq_true.1 hall report hreport) hunmatched

theorem exitCode_of_matched {reports : List CaseReport}
    (h : ¬∃ report ∈ reports, report.Unmatched) : exitCode reports = 0 := by
  refine if_pos (List.all_eq_true.2 fun report hreport => ?_)
  exact report.passed_iff.2 fun hunmatched => h ⟨report, hreport, hunmatched⟩

namespace CommandLine

/-- What the run of an invocation starts from, given the text of the case file. -/
def Invocation.runInput (i : Invocation) (o : RunOptions) (text : String) : RunInput :=
  ⟨text, i.overrides, o.patterns, baseDir i.cases⟩

/-- The files of a run: those of its reports, and the summary if it is asked for. -/
def RunOptions.outputs (o : RunOptions) (r : RunResult) : List (String × String) :=
  caseOutputs o.outDir r.reports ++
    if o.writesMarkdown then
      [(o.markdownOut, CaseReport.markdown (some r.profile.name) r.reports)]
    else []

variable {files : FileTree} {clock : Clock} {i : Invocation} {o : RunOptions}

theorem runResult_of_unread (h : files.read? i.cases = none) :
    runResult files clock i o = .error (.readCases i.cases) := by
  unfold runResult readCases
  rw [h]
  rfl

theorem runResult_of_read {text : String} (h : files.read? i.cases = some text) :
    runResult files clock i o =
      (runCases files clock (i.runInput o text)).mapError .run := by
  unfold runResult readCases
  rw [h]
  rfl

theorem exists_error_of_fails (h : files.read? i.cases = none ∨
    ∃ text, files.read? i.cases = some text ∧ (i.runInput o text).Fails files) :
    ∃ error, runResult files clock i o = .error error := by
  rcases h with hunread | ⟨text, htext, hfails⟩
  · exact ⟨_, runResult_of_unread hunread⟩
  · rw [runResult_of_read htext]
    cases hr : runCases files clock (i.runInput o text) with
    | error error => exact ⟨.run error, rfl⟩
    | ok r => exact absurd hfails (not_fails_of_runCases hr)

/-- A run without a result is reported, and that is all. -/
theorem perform_of_error {error : CommandError} (h : runResult files clock i o = .error error) :
    (planRun files clock i o).perform files = (failLine error.chain, files) := by
  unfold planRun
  rw [h]
  rfl

/-- A run with a result ends as the reports say, once all of its files are written. -/
theorem perform_of_ok {r : RunResult} {written : FileTree} (h : runResult files clock i o = .ok r)
    (hwritten : files.writeAll (o.outputs r) = .ok written) :
    (planRun files clock i o).perform files =
      ({ exitCode := exitCode r.reports, stdout := reportLines r.reports }, written) := by
  unfold planRun
  rw [h]
  unfold RunOptions.outputs at hwritten
  rw [FileTree.writeAll_append] at hwritten
  obtain ⟨reported, hreported, hwritten⟩ := Except.bind_eq_ok.1 hwritten
  by_cases hmarkdown : o.writesMarkdown = true
  · rw [if_pos hmarkdown] at hwritten
    simp only [Plan.perform, Plan.carryOut, hmarkdown, if_true, hreported, hwritten]
  · rw [if_neg hmarkdown] at hwritten
    obtain rfl := Except.ok.inj hwritten
    simp only [Plan.perform, Plan.carryOut, hmarkdown, if_false, Bool.false_eq_true, hreported]

theorem plan_of_run {arguments : List String} (harguments : Invocation.parse arguments = .ok i)
    (hrun : i.command = .run o) : plan files clock arguments = planRun files clock i o := by
  unfold plan
  rw [harguments]
  dsimp only
  unfold Invocation.plan
  rw [hrun]

/-- A run whose case file cannot be read, or that fails after that, exits with 1, prints nothing and
leaves the files as they were. Any other run has a result, and if its files can be written it exits
with 2 when a report has an unmatched expectation, and otherwise with 0. -/
theorem perform_run {arguments : List String} (harguments : Invocation.parse arguments = .ok i)
    (hrun : i.command = .run o) (files : FileTree) (clock : Clock) :
    let outcome := (plan files clock arguments).perform files
    (files.read? i.cases = none ∨
        (∃ text, files.read? i.cases = some text ∧ (i.runInput o text).Fails files) →
      outcome.1.exitCode = 1 ∧ outcome.1.stdout = "" ∧ outcome.2 = files) ∧
    ∀ text, files.read? i.cases = some text → ¬(i.runInput o text).Fails files →
      ∃ r, runCases files clock (i.runInput o text) = .ok r ∧
        ∀ written, files.writeAll (o.outputs r) = .ok written →
          outcome.2 = written ∧ outcome.1.stdout = reportLines r.reports ∧
          ((∃ report ∈ r.reports, report.Unmatched) → outcome.1.exitCode = 2) ∧
          ((¬∃ report ∈ r.reports, report.Unmatched) → outcome.1.exitCode = 0) := by
  intro outcome
  have houtcome : outcome = (planRun files clock i o).perform files := by
    show (plan files clock arguments).perform files = _
    rw [plan_of_run harguments hrun]
  refine ⟨fun hfails => ?_, fun text htext hfails => ?_⟩
  · obtain ⟨error, hresult⟩ := exists_error_of_fails hfails
    rw [houtcome, perform_of_error hresult]
    exact ⟨rfl, rfl, rfl⟩
  · obtain ⟨r, hr⟩ := (runCases_isOk_iff files clock (i.runInput o text) .inOrder).2 hfails
    refine ⟨r, hr, fun written hwritten => ?_⟩
    have hresult : runResult files clock i o = .ok r := by
      rw [runResult_of_read htext, hr]
      rfl
    rw [houtcome, perform_of_ok hresult hwritten]
    exact ⟨rfl, rfl, exitCode_of_unmatched, exitCode_of_matched⟩

/-- Two cases, the first with an expectation. -/
def expectingCases : String :=
  "cases.a=[\"p.nt\",\"u:r\",\"permission\",\"1\",\"Allowed\"]\n" ++
    "cases.b=[\"q.nt\",\"u:r\",\"obligation\"]"

/-- The two cases beside their policies, of which the second is broken. -/
def expectingTree : FileTree where
  entries := (twoPolicies "no statement").entries.insert "odrl-eval.toml"
    (.file (some expectingCases))

/-- The broken policy of the second case fails a run on both, which would have had a report on the
first; a run on the first alone ends with its unmatched expectation. -/
theorem perform_run_brokenPolicy :
    let clock : Clock := fun _ => .epoch
    let run arguments := (plan expectingTree clock ("run" :: arguments)).perform expectingTree
    ((run []).1.exitCode = 1 ∧ (run []).1.stdout = "" ∧ (run []).2 = expectingTree) ∧
      (run ["--case", "a", "--out-dir", "o"]).1.exitCode = 2 := by
  intro clock run
  have hread : expectingTree.read? "odrl-eval.toml" = some expectingCases := by decide +kernel
  constructor
  · let o : RunOptions := ⟨[], "artifacts/odrl-eval", false, "artifacts/odrl-eval/summary.md"⟩
    let i : Invocation := ⟨"odrl-eval.toml", {}, .run o⟩
    have harguments : Invocation.parse ["run"] = .ok i := by
      dsimp only [i, o]
      cbv
    have hresult : (runCases expectingTree clock (i.runInput o expectingCases)).isOk = false := by
      decide +kernel
    refine (perform_run harguments rfl expectingTree clock).1 (.inr ⟨_, hread, ?_⟩)
    by_contra hfails
    obtain ⟨r, hr⟩ := (runCases_isOk_iff expectingTree clock _ .inOrder).2 hfails
    rw [hr] at hresult
    cases hresult
  · let o : RunOptions := ⟨["a"], "o", false, "artifacts/odrl-eval/summary.md"⟩
    let i : Invocation := ⟨"odrl-eval.toml", {}, .run o⟩
    have harguments : Invocation.parse ["run", "--case", "a", "--out-dir", "o"] = .ok i := by
      simp [i, o, Invocation.parse, readArguments, readLong, isValue, commandRules?, command?,
        common?, Found.add, Found.values, Found.value?, Found.has, bind, Except.bind, pure,
        Except.pure, commonRules, runRules, helpRule]
    have hresult : (runCases expectingTree clock (i.runInput o expectingCases)).toOption.any
        (fun r => (expectingTree.writeAll (o.outputs r)).isOk && r.reports.any (!·.passed)) =
          true := by
      decide +kernel
    obtain ⟨r, hr, hresult⟩ := Except.exists_of_any hresult
    obtain ⟨hwritten, hpassed⟩ := Bool.and_eq_true_iff.1 hresult
    obtain ⟨written, hwritten⟩ := Except.exists_of_isOk hwritten
    obtain ⟨report, hreport, hpassed⟩ := List.any_eq_true.1 hpassed
    obtain ⟨r', hr', hafter⟩ := (perform_run harguments rfl expectingTree clock).2 _ hread
      (not_fails_of_runCases hr)
    rw [hr] at hr'
    obtain rfl := Except.ok.inj hr'
    obtain ⟨-, -, hunmatched, -⟩ := hafter written hwritten
    refine hunmatched ⟨report, hreport, ?_⟩
    rw [Bool.not_eq_true', ← Bool.not_eq_true, CaseReport.passed_iff, not_not] at hpassed
    exact hpassed

end CommandLine

end UsagePolicy
