import Mathlib.Data.List.Perm.Basic
import UsagePolicy.CommandLine.Plan
import UsagePolicy.Proofs.Report.FileNames
import UsagePolicy.Proofs.Report.RoundTrip
import UsagePolicy.Proofs.Run.Selection
/-!
# Summaries of written reports

A summary can be made twice: by the run, from the reports it has in the order of its cases, and
later from the files of these reports, which are read in some order and then sorted. Both ways lead
to the same text, since the files are read as the reports they were written from and no two reports
of a run have the same name.
-/

namespace UsagePolicy

/-! ## The order of reports -/

/-- Sorted by their names, reports with different names are in one order only. -/
theorem mergeSort_eq_of_perm {reports reports' : List CaseReport}
    (hnames : (reports.map (·.name)).Pairwise (· < ·)) (hperm : reports'.Perm reports) :
    (reports'.mergeSort fun a b => decide (a.name ≤ b.name)) = reports := by
  have hsorted : (reports'.mergeSort fun a b => decide (a.name ≤ b.name)).Pairwise
      fun a b => decide (a.name ≤ b.name) = true := by
    refine List.pairwise_mergeSort (fun a b c hab hbc => ?_) (fun a b => ?_) reports'
    · simp only [decide_eq_true_eq] at hab hbc ⊢
      exact String.le_trans hab hbc
    · simp only [Bool.or_eq_true, decide_eq_true_eq]
      exact String.le_total _ _
  have hordered : reports.Pairwise fun a b => decide (a.name ≤ b.name) = true :=
    (List.pairwise_map.1 hnames).imp fun hlt => decide_eq_true (Std.le_of_lt hlt)
  have hnodup : (reports.map (·.name)).Nodup := hnames.imp String.ne_of_lt
  have hall := (List.mergeSort_perm reports' fun a b => decide (a.name ≤ b.name)).trans hperm
  refine hall.eq_of_pairwise (fun a b ha hb hab hba => ?_) hsorted hordered
  refine List.inj_on_of_nodup_map hnodup (hall.subset ha) hb ?_
  exact String.le_antisymm (of_decide_eq_true hab) (of_decide_eq_true hba)

/-! ## Summaries -/

namespace Report

/-- The line of a summary that names the profile of the run. -/
def profileLine (profile : String) : String :=
  s!"- Profile: `{profile}`\n"

theorem renderTally_some (profile : String) (rows : List Row) :
    renderTally (some profile) rows = renderTally none rows ++ profileLine profile := by
  unfold renderTally
  dsimp only
  rw [String.append_empty]
  rfl

/-- What stands above the profile ends with a line. -/
theorem renderTally_none (rows : List Row) : ∃ above, renderTally none rows = above ++ "\n" := by
  have hend : " without expectation)\n" = " without expectation)" ++ "\n" := by decide
  refine ⟨s!"- Result: **{resultWord rows}**\n" ++
    s!"- Cases: {rows.length} ({countStatus .pass rows} passed, " ++
      s!"{countStatus .mismatch rows} mismatched, " ++
        s!"{countStatus .unchecked rows} without expectation)", ?_⟩
  unfold renderTally
  dsimp only
  rw [String.append_empty]
  simp only [String.append_assoc, hend]
  rfl

end Report

/-- A summary with a profile is the one without it and a line more. -/
theorem CaseReport.markdown_some (profile : String) (reports : List CaseReport) :
    ∃ above below, markdown (some profile) reports =
        above ++ "\n" ++ Report.profileLine profile ++ below ∧
      markdown none reports = above ++ "\n" ++ below := by
  have hmarkdown : ∀ profile, markdown profile reports =
      "# odrl-eval summary\n\n" ++ Report.renderTally profile (reports.map row) ++ "\n" ++
        Report.renderTable (reports.map row) := fun _ => rfl
  obtain ⟨above, habove⟩ := Report.renderTally_none (reports.map row)
  refine ⟨"# odrl-eval summary\n\n" ++ above, "\n" ++ Report.renderTable (reports.map row), ?_, ?_⟩
  · rw [hmarkdown, Report.renderTally_some, habove]
    simp only [String.append_assoc]
  · rw [hmarkdown, habove]
    simp only [String.append_assoc]

namespace CommandLine

/-- Written reports are read as the reports they were written from. -/
theorem readReport_of_written {before written : FileTree} {outDir : String}
    {reports : List CaseReport}
    (hnames : (reports.map fun report => Report.reportFileName report.name).Nodup)
    (hwritten : before.writeAll (caseOutputs outDir reports) = .ok written) {report : CaseReport}
    (hreport : report ∈ reports) (hschema : report.schema = CaseReport.schemaName) :
    readReport written (Path.join outDir (Report.reportFileName report.name)) = .ok report := by
  have hread := read?_caseOutputs hnames hwritten hreport List.mem_cons_self
  unfold readReport
  rw [hread]
  dsimp only
  rw [report.parse_serialize hschema]
  rfl

section

variable {files : FileTree} {clock : Clock} {input : RunInput} {r : RunResult}
  (hrun : runCases files clock input = .ok r)
  (hnames : (r.reports.map fun report => Report.reportFileName report.name).Nodup)
include hrun hnames

/-- Whatever the order of their paths, the written reports of a run are sorted into the order in
which the run had them. -/
theorem mapM_readReport {before written : FileTree} {outDir : String} {paths : List String}
    (hwritten : before.writeAll (caseOutputs outDir r.reports) = .ok written)
    (hpaths : paths.Perm (r.reports.map fun report =>
      Path.join outDir (Report.reportFileName report.name))) :
    ∃ reports, paths.mapM (readReport written) = .ok reports ∧
      (reports.mergeSort fun a b => decide (a.name ≤ b.name)) = r.reports := by
  have hread : List.Forall₂ (fun path report => readReport written path = .ok report)
      (r.reports.map fun report => Path.join outDir (Report.reportFileName report.name))
      r.reports := by
    rw [List.forall₂_map_left_iff, List.forall₂_same]
    intro report hreport
    exact readReport_of_written hnames hwritten hreport (schema_of_runCases hrun report hreport)
  obtain ⟨reports, hreports, hperm⟩ := List.perm_comp_forall₂ hpaths hread
  exact ⟨reports, Except.mapM_eq_ok.2 hreports,
    mergeSort_eq_of_perm (names_of_runCases hrun) hperm⟩

/-- The summary of the written reports of a run, wherever they were written and in whatever order
they are given, is the one that the run makes of them, without the line that names the profile. -/
theorem planMarkdown_writtenReports :
    ∃ above below,
      CaseReport.markdown (some r.profile.name) r.reports =
        above ++ "\n" ++ Report.profileLine r.profile.name ++ below ∧
      ∀ (before written : FileTree) (outDir : String),
        before.writeAll (caseOutputs outDir r.reports) = .ok written →
        ∀ paths : List String, paths.Perm (r.reports.map fun report =>
            Path.join outDir (Report.reportFileName report.name)) →
          planMarkdown written paths none =
            .say { exitCode := 0, stdout := above ++ "\n" ++ below } ∧
          ∀ output, ∃ failure, planMarkdown written paths (some output) =
            ⟨[⟨[(output, above ++ "\n" ++ below)], failure⟩], { exitCode := 0 }⟩ := by
  obtain ⟨above, below, hsome, hnone⟩ := CaseReport.markdown_some r.profile.name r.reports
  refine ⟨above, below, hsome, fun before written outDir hwritten paths hpaths => ?_⟩
  obtain ⟨reports, hread, hsorted⟩ := mapM_readReport hrun hnames hwritten hpaths
  refine ⟨?_, fun output =>
    ⟨fun error => failBlock ("write markdown output" :: error.chain), ?_⟩⟩
  · simp only [planMarkdown, hread, hsorted, hnone]
  · simp only [planMarkdown, hread, hsorted, hnone]

end

/-- The reports on two cases, read in either order. -/
theorem planMarkdown_writtenReports_reversed :
    let files := twoPolicies "<u:r> <u:p> <u:o> ."
    ∃ r written above below,
      runCases files (fun _ => .epoch) { caseFile := twoCases } = .ok r ∧
      FileTree.empty.writeAll (caseOutputs "" r.reports) = .ok written ∧
      CaseReport.markdown (some r.profile.name) r.reports =
        above ++ "\n" ++ Report.profileLine r.profile.name ++ below ∧
      ∀ paths ∈ [["a.report.json", "b.report.json"], ["b.report.json", "a.report.json"]],
        planMarkdown written paths none =
          .say { exitCode := 0, stdout := above ++ "\n" ++ below } := by
  intro files
  have hresult : (runCases files (fun _ => .epoch) { caseFile := twoCases }).toOption.any
      (fun r => r.reports.map (·.name) == ["a", "b"] &&
        (FileTree.empty.writeAll (caseOutputs "" r.reports)).isOk) = true := by
    decide +kernel
  obtain ⟨r, hrun, hresult⟩ := Except.exists_of_any hresult
  obtain ⟨hnames, hwritten⟩ := Bool.and_eq_true_iff.1 hresult
  obtain ⟨written, hwritten⟩ := Except.exists_of_isOk hwritten
  have hmap : ∀ f : String → String,
      (r.reports.map fun report => f report.name) = ["a", "b"].map f := by
    intro f
    rw [← beq_iff_eq.1 hnames, List.map_map]
    rfl
  have hnodup : (r.reports.map fun report => Report.reportFileName report.name).Nodup := by
    rw [hmap]
    decide
  have hpaths : ∀ paths ∈ [["a.report.json", "b.report.json"], ["b.report.json", "a.report.json"]],
      paths.Perm (r.reports.map fun report =>
        Path.join "" (Report.reportFileName report.name)) := by
    rw [hmap fun name => Path.join "" (Report.reportFileName name)]
    decide
  obtain ⟨above, below, hsome, hmarkdown⟩ := planMarkdown_writtenReports hrun hnodup
  refine ⟨r, written, above, below, hrun, hwritten, hsome, fun paths hmem => ?_⟩
  exact (hmarkdown .empty written "" hwritten paths (hpaths paths hmem)).1

end CommandLine

end UsagePolicy
