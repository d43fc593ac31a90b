import Mathlib.Data.List.Nodup
import UsagePolicy.Proofs.FileTrees.Writing
/-!
# Files of reports

The names of the files of a report are made of a few characters only, so that each is a name in the
directory it is meant for. Reports whose files have different names do not get in each other's way.
-/

namespace UsagePolicy

namespace Report

/-! ## Names -/

theorem isFileChar_of_mem_fileStem {case : String} {c : Char} (h : c ∈ (fileStem case).toList) :
    isFileChar c = true := by
  rw [fileStem, String.toList_ofList, List.mem_map] at h
  obtain ⟨c', -, rfl⟩ := h
  split
  · assumption
  · decide

theorem slash_notMem_fileStem (case : String) : '/' ∉ (fileStem case).toList := fun h =>
  absurd (isFileChar_of_mem_fileStem h) (by decide)

theorem reportFileName_eq (case : String) :
    reportFileName case = fileStem case ++ ".report.json" :=
  rfl

theorem logFileName_eq (case : String) :
    logFileName case = "CASE_" ++ fileStem case ++ "_log.txt" :=
  rfl

theorem reportFileName_inj {case case' : String} :
    reportFileName case = reportFileName case' ↔ fileStem case = fileStem case' := by
  rw [reportFileName_eq, reportFileName_eq, String.append_left_inj]

theorem logFileName_inj {case case' : String} :
    logFileName case = logFileName case' ↔ fileStem case = fileStem case' := by
  rw [logFileName_eq, logFileName_eq, String.append_left_inj, String.append_right_inj]

/-- Reports and logs end differently. -/
theorem reportFileName_ne_logFileName (case case' : String) :
    reportFileName case ≠ logFileName case' := by
  intro h
  have hreport : ".report.json".toList.getLast? = some 'n' := by decide
  have hlog : "_log.txt".toList.getLast? = some 't' := by decide
  have hlast := congrArg (fun name => name.toList.getLast?) h
  simp only [reportFileName_eq, logFileName_eq, String.toList_append, List.getLast?_append, hreport,
    hlog, Option.some_or] at hlast
  exact absurd (Option.some.inj hlast) (by decide)

/-- A name that is long enough is none of those that lead nowhere. -/
theorem notMem_dots_of_length {name : String} (h : 2 < name.length) : name ∉ ["", ".", ".."] := by
  have hshort : ∀ dots ∈ ["", ".", ".."], dots.length ≤ 2 := by decide
  exact fun hdots => absurd h (Nat.not_lt.2 (hshort name hdots))

theorem isFileName_reportFileName (case : String) :
    FileTree.IsFileName (reportFileName case) where
  slash_notMem := by
    rw [reportFileName_eq, String.toList_append, List.mem_append, not_or]
    exact ⟨slash_notMem_fileStem case, by decide⟩
  notMem_dots := by
    have hmark : ".report.json".length = 12 := by decide
    refine notMem_dots_of_length ?_
    rw [reportFileName_eq, String.length_append]
    omega

theorem isFileName_logFileName (case : String) : FileTree.IsFileName (logFileName case) where
  slash_notMem := by
    rw [logFileName_eq, String.toList_append, String.toList_append, List.mem_append,
      List.mem_append, not_or, not_or]
    exact ⟨⟨by decide, slash_notMem_fileStem case⟩, by decide⟩
  notMem_dots := by
    have hmark : "_log.txt".length = 8 := by decide
    refine notMem_dots_of_length ?_
    rw [logFileName_eq, String.length_append]
    omega

end Report

/-! ## Outputs -/

namespace CaseReport

/-- The names of the files of a report. -/
def fileNames (r : CaseReport) : List String :=
  [Report.reportFileName r.name, Report.logFileName r.name]

theorem mem_fileNames_iff (r : CaseReport) {name : String} :
    name ∈ r.fileNames ↔
      name = Report.reportFileName r.name ∨ name = Report.logFileName r.name := by
  simp [fileNames]

theorem isFileName_of_mem_fileNames {r : CaseReport} {name : String} (h : name ∈ r.fileNames) :
    FileTree.IsFileName name := by
  rcases r.mem_fileNames_iff.1 h with rfl | rfl
  · exact Report.isFileName_reportFileName r.name
  · exact Report.isFileName_logFileName r.name

theorem nodup_fileNames (r : CaseReport) : r.fileNames.Nodup := by
  simp [fileNames, Report.reportFileName_ne_logFileName]

theorem disjoint_fileNames {r r' : CaseReport}
    (h : Report.reportFileName r.name ≠ Report.reportFileName r'.name) :
    r.fileNames.Disjoint r'.fileNames := by
  have hlog : Report.logFileName r.name ≠ Report.logFileName r'.name := fun heq =>
    h (Report.reportFileName_inj.2 (Report.logFileName_inj.1 heq))
  intro name hname hname'
  rcases r.mem_fileNames_iff.1 hname with rfl | rfl
  · rcases r'.mem_fileNames_iff.1 hname' with heq | heq
    · exact h heq
    · exact Report.reportFileName_ne_logFileName _ _ heq
  · rcases r'.mem_fileNames_iff.1 hname' with heq | heq
    · exact Report.reportFileName_ne_logFileName _ _ heq.symm
    · exact hlog heq

end CaseReport

variable {reports : List CaseReport}

/-- If the files of the reports have different names, so do all files. -/
theorem nodup_fileNames_of_reports
    (h : (reports.map fun r => Report.reportFileName r.name).Nodup) :
    (reports.flatMap CaseReport.fileNames).Nodup := by
  refine List.nodup_flatMap.2 ⟨fun r _ => r.nodup_fileNames, ?_⟩
  exact (List.pairwise_map.1 h).imp CaseReport.disjoint_fileNames

theorem place_caseOutputs (outDir : String) :
    ∃ before, ∀ reports : List CaseReport,
      ((caseOutputs outDir reports).map fun o => FileTree.place o.1) =
        (reports.flatMap CaseReport.fileNames).map (before ++ ·) := by
  obtain ⟨before, hplace⟩ := FileTree.exists_place_join outDir
  refine ⟨before, fun reports => ?_⟩
  rw [caseOutputs, List.map_flatMap, List.map_flatMap]
  refine List.flatMap_congr fun r _ => ?_
  show r.fileNames.map (fun name => FileTree.place (Path.join outDir name)) =
    r.fileNames.map (before ++ ·)
  refine List.map_congr_left fun name hname => ?_
  exact hplace name (CaseReport.isFileName_of_mem_fileNames hname)

theorem nodup_places_caseOutputs (outDir : String)
    (h : (reports.map fun r => Report.reportFileName r.name).Nodup) :
    ((caseOutputs outDir reports).map fun o => FileTree.place o.1).Nodup := by
  obtain ⟨before, hplaces⟩ := place_caseOutputs outDir
  rw [hplaces]
  exact (nodup_fileNames_of_reports h).map fun name name' => (String.append_right_inj before).1

/-- All files of the reports are found again after they were written. -/
theorem read?_caseOutputs {before written : FileTree} {outDir : String}
    (hnames : (reports.map fun r => Report.reportFileName r.name).Nodup)
    (hwritten : before.writeAll (caseOutputs outDir reports) = .ok written) {r : CaseReport}
    (hr : r ∈ reports) {output : String × String} (houtput : output ∈ r.outputs outDir) :
    written.read? output.1 = some output.2 :=
  FileTree.read?_writeAll hwritten (nodup_places_caseOutputs outDir hnames) output
    (List.mem_flatMap.2 ⟨r, hr, houtput⟩)

end UsagePolicy
