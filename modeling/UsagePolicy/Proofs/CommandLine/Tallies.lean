import UsagePolicy.Proofs.CommandLine.Running
import UsagePolicy.Proofs.Text.Lines
/-!
# Tallies

How the cases of a run came out is told in several places: by the exit code, by the line of each
report and the last line, and by the rows of a summary and the lines above them. All of them count
the same cases, as each report has one status, and each line and row shows that of its report.
-/

namespace UsagePolicy

namespace Report

/-! ## Texts of a status -/

/-- With what the row of a case ends. -/
def rowEnd (status : RowStatus) : String := s!"| {status.mark} |\n"

/-- The line of a summary that says whether it fails. -/
def resultLine (word : String) : String := s!"- Result: **{word}**"

/-- The line of a summary that counts its cases. -/
def tallyLine (cases : Nat) (count : RowStatus → Nat) : String :=
  s!"- Cases: {cases} ({count .pass} passed, {count .mismatch} mismatched, " ++
    s!"{count .unchecked} without expectation)"

theorem rowEnd_incomparable {status status' : RowStatus} (h : status ≠ status') :
    ¬ (rowEnd status).toList <:+ (rowEnd status').toList := by
  revert h
  cases status <;> cases status' <;> decide

theorem exists_render_eq (row : Row) : ∃ front, row.render = front ++ rowEnd row.status := by
  refine ⟨s!"| `{row.name}` | `{row.rule}` | {row.kind} | {row.round} | {row.verdict} | " ++
    s!"{row.expected.getD (RowStatus.mark .unchecked)} ", ?_⟩
  unfold Row.render rowEnd
  have hgap : " | " = " " ++ "| " := by decide
  simp only [toString, String.append_assoc, hgap]

/-- A row ends with the mark of its status, and with no other. -/
theorem isSuffixOf_render_iff (status : RowStatus) (row : Row) :
    (rowEnd status).toList.isSuffixOf row.render.toList = true ↔ row.status = status := by
  obtain ⟨front, hrender⟩ := exists_render_eq row
  rw [List.isSuffixOf_iff_suffix, hrender, String.toList_append]
  constructor
  · intro h
    by_contra hne
    rcases List.suffix_or_suffix_of_suffix h (List.suffix_append front.toList _) with h' | h'
    · exact rowEnd_incomparable (Ne.symm hne) h'
    · exact rowEnd_incomparable hne h'
  · rintro rfl
    exact List.suffix_append _ _

theorem countP_render (status : RowStatus) (rows : List Row) :
    (rows.map Row.render).countP (fun row => (rowEnd status).toList.isSuffixOf row.toList) =
      countStatus status rows := by
  rw [List.countP_map, countStatus]
  refine List.countP_congr fun row _ => ?_
  rw [Function.comp_apply, isSuffixOf_render_iff, beq_iff_eq]

/-- Every row has one of the three statuses. -/
theorem sum_countStatus (rows : List Row) :
    countStatus .pass rows + countStatus .mismatch rows + countStatus .unchecked rows =
      rows.length := by
  induction rows with
  | nil => rfl
  | cons row rows ih =>
      unfold countStatus at ih ⊢
      rw [List.countP_cons, List.countP_cons, List.countP_cons, List.length_cons]
      cases row.status <;> simp <;> omega

/-! ## Lines of a summary -/

theorem oneLine_tallyLine (cases : Nat) (count : RowStatus → Nat) :
    Text.OneLine (tallyLine cases count) := by
  unfold tallyLine
  simp only [Text.oneLine_append, Text.oneLine_toString]
  decide

theorem oneLine_resultLine (rows : List Row) : Text.OneLine (resultLine (resultWord rows)) := by
  unfold resultWord
  split <;> decide

theorem resultLine_eq_fail_iff (rows : List Row) :
    resultLine (resultWord rows) = resultLine "FAIL" ↔ 0 < countStatus .mismatch rows := by
  unfold resultWord
  split
  · next h => exact iff_of_true rfl h
  · next h => exact iff_of_false (by decide) h

/-- Whatever profile there is, the result and the tally stand in the third and the fourth line. -/
theorem lines_renderMarkdown (profile : Option String) (rows : List Row) :
    ∃ below, Text.lines (renderMarkdown profile rows) =
      "# odrl-eval summary" :: "" :: resultLine (resultWord rows) ::
        tallyLine rows.length (countStatus · rows) :: below := by
  have hsplit : ∃ below, renderMarkdown profile rows =
      "# odrl-eval summary" ++ "\n" ++ ("" ++ "\n" ++ (resultLine (resultWord rows) ++ "\n" ++
        (tallyLine rows.length (countStatus · rows) ++ "\n" ++ below))) := by
    have hhead : "# odrl-eval summary\n\n" = "# odrl-eval summary" ++ ("\n" ++ "\n") := by decide
    have hresult : "**\n" = "**" ++ "\n" := by decide
    have htally : " without expectation)\n" = " without expectation)" ++ "\n" := by decide
    cases profile with
    | none =>
        refine ⟨"\n" ++ renderTable rows, ?_⟩
        unfold renderMarkdown renderTally resultLine tallyLine
        simp only [toString, String.append_assoc, String.empty_append, hhead, hresult, htally]
    | some profile =>
        refine ⟨s!"- Profile: `{profile}`\n" ++ "\n" ++ renderTable rows, ?_⟩
        unfold renderMarkdown renderTally resultLine tallyLine
        simp only [toString, String.append_assoc, String.empty_append, hhead, hresult, htally]
  obtain ⟨below, hbelow⟩ := hsplit
  refine ⟨Text.lines below, ?_⟩
  rw [hbelow, Text.lines_cons (by decide), Text.lines_cons (by decide),
    Text.lines_cons (oneLine_resultLine rows), Text.lines_cons (oneLine_tallyLine _ _)]

/-- A summary ends with its rows. -/
theorem exists_renderMarkdown_eq (profile : Option String) (rows : List Row) :
    ∃ above, renderMarkdown profile rows = above ++ String.join (rows.map Row.render) := by
  unfold renderMarkdown
  cases rows with
  | nil => exact ⟨_, (String.append_empty).symm⟩
  | cons row rows =>
      unfold renderTable
      exact ⟨_, (String.append_assoc ..).symm⟩

end Report

/-! ## Counting reports -/

open Report

theorem CaseReport.mismatched_iff (r : CaseReport) :
    r.mismatched = true ↔ r.status = .mismatch := by
  unfold mismatched status
  cases r.expectation with
  | none => decide
  | some e => cases h : e.matched <;> simp [h]

theorem CaseReport.unmatched_iff (r : CaseReport) : r.Unmatched ↔ r.status = .mismatch := by
  rw [← r.mismatched_iff, ← not_iff_not, ← r.passed_iff, passed, Bool.not_eq_true',
    Bool.not_eq_true]

theorem countStatus_row (status : RowStatus) (reports : List CaseReport) :
    countStatus status (reports.map (·.row)) = reports.countP (·.status == status) :=
  List.countP_map

theorem exitCode_eq_two_iff (reports : List CaseReport) :
    exitCode reports = 2 ↔ 0 < countStatus .mismatch (reports.map (·.row)) := by
  have hcount : 0 < countStatus .mismatch (reports.map (·.row)) ↔
      ∃ report ∈ reports, report.Unmatched := by
    simp only [countStatus_row, List.countP_pos_iff, beq_iff_eq, CaseReport.unmatched_iff]
  rw [hcount]
  by_cases h : ∃ report ∈ reports, report.Unmatched
  · exact iff_of_true (exitCode_of_unmatched h) h
  · refine iff_of_false ?_ h
    rw [exitCode_of_matched h]
    decide

namespace CommandLine

/-! ## Lines of a run -/

/-- With what the line of a report begins. -/
def lineStart : RowStatus → String
  | .pass => "ok        "
  | .mismatch => "MISMATCH  "
  | .unchecked => "-         "

theorem exists_reportLine_eq (r : CaseReport) :
    ∃ text, reportLine r = lineStart r.status ++ text ++ "\n" := by
  unfold reportLine CaseReport.status
  cases r.expectation with
  | none =>
      refine ⟨s!"{r.name}: {r.verdict.label}", ?_⟩
      simp only [toString, lineStart, String.append_assoc]
  | some e =>
      dsimp only
      split
      · refine ⟨s!"{r.name}: {r.verdict.label}", ?_⟩
        simp only [toString, lineStart, String.append_assoc]
      · have hend : ")\n" = ")" ++ "\n" := by decide
        refine ⟨s!"{r.name}: {r.verdict.label} (expected {e.expected})", ?_⟩
        simp only [toString, lineStart, String.append_assoc, hend]

theorem isPrefixOf_reportLine_iff (r : CaseReport) :
    "MISMATCH".toList.isPrefixOf (reportLine r).toList = true ↔ r.status = .mismatch := by
  obtain ⟨text, hline⟩ := exists_reportLine_eq r
  rw [hline, String.append_assoc, String.toList_append]
  cases r.status with
  | pass => exact iff_of_false Bool.false_ne_true nofun
  | mismatch => exact iff_of_true rfl rfl
  | unchecked => exact iff_of_false Bool.false_ne_true nofun

theorem countP_reportLine (reports : List CaseReport) :
    (reports.map reportLine).countP (fun line => "MISMATCH".toList.isPrefixOf line.toList) =
      countStatus .mismatch (reports.map (·.row)) := by
  rw [List.countP_map, countStatus_row]
  refine List.countP_congr fun r _ => ?_
  rw [Function.comp_apply, isPrefixOf_reportLine_iff, beq_iff_eq]

/-- The lines of reports end before what follows them, whatever names stand in them. -/
theorem lines_reportLine_append (reports : List CaseReport) :
    ∃ ls, ∀ rest, Text.lines (String.join (reports.map reportLine) ++ rest) =
      ls ++ Text.lines rest := by
  induction reports with
  | nil => exact ⟨[], fun rest => by rw [List.map_nil, String.join_nil, String.empty_append]; rfl⟩
  | cons r reports ih =>
      obtain ⟨later, hlater⟩ := ih
      obtain ⟨text, hline⟩ := exists_reportLine_eq r
      obtain ⟨first, hfirst⟩ := Text.lines_append (lineStart r.status ++ text)
      refine ⟨first ++ later, fun rest => ?_⟩
      rw [List.map_cons, String.join_cons, String.append_assoc, hline, hfirst, hlater,
        List.append_assoc]

/-- The last line of a run. -/
def lastLine (cases mismatched : Nat) : String :=
  s!"{cases} cases, {mismatched} mismatched"

theorem reportLines_eq (reports : List CaseReport) :
    reportLines reports = String.join (reports.map reportLine) ++
      (lastLine reports.length (countStatus .mismatch (reports.map (·.row))) ++ "\n" ++ "") := by
  have hend : " mismatched\n" = " mismatched" ++ "\n" := by decide
  have hcount : countStatus .mismatch (reports.map (·.row)) = reports.countP (·.mismatched) := by
    rw [countStatus_row]
    refine List.countP_congr fun r _ => ?_
    rw [r.mismatched_iff, beq_iff_eq]
  rw [hcount]
  unfold reportLines lastLine
  simp only [toString, String.append_assoc, String.append_empty, hend]

theorem oneLine_lastLine (cases mismatched : Nat) : Text.OneLine (lastLine cases mismatched) := by
  unfold lastLine
  simp only [Text.oneLine_append, Text.oneLine_toString]
  decide

theorem getLast?_lines_reportLines (reports : List CaseReport) :
    (Text.lines (reportLines reports)).getLast? =
      some (lastLine reports.length (countStatus .mismatch (reports.map (·.row)))) := by
  obtain ⟨ls, hls⟩ := lines_reportLine_append reports
  rw [reportLines_eq, hls, Text.lines_cons (oneLine_lastLine _ _)]
  exact List.getLast?_concat

/-- A run with these reports ends with their exit code and says what is printed of them. -/
theorem completion_planRun {files : FileTree} {clock : Clock} {i : Invocation} {o : RunOptions}
    {r : RunResult} (h : runResult files clock i o = .ok r) :
    (planRun files clock i o).completion =
      { exitCode := exitCode r.reports, stdout := reportLines r.reports } := by
  unfold planRun
  rw [h]

/-- The exit code of a list of reports, its summary, and what a run with these reports prints agree
on how many mismatches there are, which is how many lines and how many rows are marked as such. The
counts of a summary make up the number of reports, which is that of the cases in the last line. -/
theorem tallies_agree (profile : Option String) (reports : List CaseReport) :
    ∃ count : RowStatus → Nat,
      reportLines reports = String.join (reports.map reportLine) ++
        (lastLine reports.length (count .mismatch) ++ "\n") ∧
      (Text.lines (reportLines reports)).getLast? =
        some (lastLine reports.length (count .mismatch)) ∧
      (∃ above, CaseReport.markdown profile reports =
        above ++ String.join (reports.map (·.row.render))) ∧
      (Text.lines (CaseReport.markdown profile reports))[3]? =
        some (tallyLine reports.length count) ∧
      count .pass + count .mismatch + count .unchecked = reports.length ∧
      (reports.map reportLine).countP (fun line => "MISMATCH".toList.isPrefixOf line.toList) =
        count .mismatch ∧
      (∀ status, (reports.map (·.row.render)).countP
        (fun row => (rowEnd status).toList.isSuffixOf row.toList) = count status) ∧
      (exitCode reports = 2 ↔ 0 < count .mismatch) ∧
      ((Text.lines (CaseReport.markdown profile reports))[2]? = some (resultLine "FAIL") ↔
        0 < count .mismatch) ∧
      ∀ files clock i o r, runResult files clock i o = .ok r → r.reports = reports →
        (planRun files clock i o).completion =
          { exitCode := exitCode reports, stdout := reportLines reports } := by
  have hrows : reports.map (·.row.render) = (reports.map (·.row)).map Row.render := by
    rw [List.map_map]
    rfl
  have hlength : (reports.map (·.row)).length = reports.length := List.length_map _
  have hmarkdown : CaseReport.markdown profile reports =
      renderMarkdown profile (reports.map (·.row)) := rfl
  obtain ⟨below, hsummary⟩ := lines_renderMarkdown profile (reports.map (·.row))
  rw [hrows, hmarkdown, hsummary, ← hlength]
  refine ⟨(countStatus · (reports.map (·.row))), ?_, ?_, ?_, ?_, ?_, ?_, ?_, ?_, ?_, ?_⟩
  · rw [reportLines_eq, String.append_empty, hlength]
  · rw [getLast?_lines_reportLines, hlength]
  · exact exists_renderMarkdown_eq profile _
  · simp only [List.getElem?_cons_succ, List.getElem?_cons_zero]
  · exact sum_countStatus _
  · exact countP_reportLine reports
  · exact fun status => countP_render status _
  · exact exitCode_eq_two_iff reports
  · simp only [List.getElem?_cons_succ, List.getElem?_cons_zero, Option.some_inj]
    exact resultLine_eq_fail_iff _
  · rintro files clock i o r hr rfl
    exact completion_planRun hr

/-- A run on one case, whose verdict is not the expected one. -/
theorem tallies_agree_mismatched :
    let clock : Clock := fun _ => .epoch
    let o : RunOptions := ⟨["a"], "o", false, "summary.md"⟩
    let i : Invocation := ⟨"odrl-eval.toml", {}, .run o⟩
    ∃ r, runResult expectingTree clock i o = .ok r ∧
      (planRun expectingTree clock i o).completion.exitCode = 2 ∧
      (Text.lines (planRun expectingTree clock i o).completion.stdout).getLast? =
        some "1 cases, 1 mismatched" ∧
      (Text.lines (CaseReport.markdown none r.reports))[2]? = some "- Result: **FAIL**" := by
  intro clock o i
  have hresult : (runResult expectingTree clock i o).toOption.any
      (fun r => r.reports.length == 1 && exitCode r.reports == 2) = true := by decide +kernel
  obtain ⟨r, hr, hresult⟩ := Except.exists_of_any hresult
  obtain ⟨hlength, hcode⟩ := Bool.and_eq_true_iff.1 hresult
  rw [beq_iff_eq] at hlength hcode
  obtain ⟨count, -, hlast, -, -, hsum, -, -, hexit, hfail, hrun⟩ := tallies_agree none r.reports
  have hpositive : 0 < count .mismatch := hexit.1 hcode
  have hcount : count .mismatch = 1 := by omega
  have hcompletion := hrun expectingTree clock i o r hr rfl
  refine ⟨r, hr, ?_, ?_, hfail.2 hpositive⟩
  · rw [hcompletion, hcode]
  · rw [hcompletion, hlast, hlength, hcount]
    decide

end CommandLine

end UsagePolicy
