import UsagePolicy.Proofs.Report.FileNames
import UsagePolicy.Proofs.Report.RoundTrip
import UsagePolicy.Proofs.Succeeding
/-!
# Reports that share their files

Different case names can come to the same file names. Then the reports are written to the same
files, one over the other, and the last one is found there: a report is lost exactly if another one
after it comes to the same names.
-/

namespace UsagePolicy

namespace FileTree

/-- What is written to a place last is found there. -/
theorem read?_writeAll_last {t t' : FileTree} {earlier later : List (String × String)}
    {path text : String} (h : t.writeAll (earlier ++ (path, text) :: later) = .ok t')
    (hlater : place path ∉ later.map fun o => place o.1) : t'.read? path = some text := by
  rw [writeAll_append] at h
  obtain ⟨t₁, -, h⟩ := Except.bind_eq_ok.1 h
  obtain ⟨t₂, hwrite, hrest⟩ := writeAll_cons.1 h
  exact read?_writeAll_of_notMem hrest hlater (read?_write hwrite)

/-- In one directory different names are at different places. -/
theorem place_join_inj {directory name name' : String} (hname : IsFileName name)
    (hname' : IsFileName name') :
    place (Path.join directory name) = place (Path.join directory name') ↔ name = name' := by
  obtain ⟨before, hplace⟩ := exists_place_join directory
  rw [hplace name hname, hplace name' hname', String.append_right_inj]

end FileTree

namespace CaseReport

variable {r r' : CaseReport} {outDir : String}

/-- Two reports whose files have the same names. -/
def SharesFiles (r r' : CaseReport) : Prop :=
  Report.fileStem r'.name = Report.fileStem r.name

instance (r r' : CaseReport) : Decidable (r.SharesFiles r') :=
  inferInstanceAs (Decidable (_ = _))

theorem disjoint_fileNames_iff : r.fileNames.Disjoint r'.fileNames ↔ ¬r.SharesFiles r' := by
  constructor
  · intro hdisjoint hshared
    have hname : Report.reportFileName r'.name = Report.reportFileName r.name :=
      Report.reportFileName_inj.2 hshared
    refine hdisjoint (r.mem_fileNames_iff.2 (.inl rfl)) ?_
    exact r'.mem_fileNames_iff.2 (.inl hname.symm)
  · intro hshared
    refine disjoint_fileNames fun hname => hshared ?_
    exact (Report.reportFileName_inj.1 hname).symm

/-- The outputs of a report are its two names in a directory, with the two texts. -/
theorem mem_outputs_iff {output : String × String} :
    output ∈ r.outputs outDir ↔
      output = (Path.join outDir (Report.reportFileName r.name), r.serialize) ∨
        output = (Path.join outDir (Report.logFileName r.name), r.log) := by
  simp [outputs]

theorem exists_fileName_of_mem_outputs {output : String × String} (h : output ∈ r.outputs outDir) :
    ∃ name ∈ r.fileNames, output.1 = Path.join outDir name := by
  rcases mem_outputs_iff.1 h with rfl | rfl
  · exact ⟨_, r.mem_fileNames_iff.2 (.inl rfl), rfl⟩
  · exact ⟨_, r.mem_fileNames_iff.2 (.inr rfl), rfl⟩

end CaseReport

section

variable {before written : FileTree} {outDir : String} {reports earlier later : List CaseReport}
  {r : CaseReport}

theorem caseOutputs_append_cons (outDir : String) (earlier later : List CaseReport)
    (r : CaseReport) :
    caseOutputs outDir (earlier ++ r :: later) =
      caseOutputs outDir earlier ++
        (Path.join outDir (Report.reportFileName r.name), r.serialize) ::
          (Path.join outDir (Report.logFileName r.name), r.log) :: caseOutputs outDir later :=
  List.flatMap_append

theorem place_notMem_caseOutputs {name : String} (hname : name ∈ r.fileNames)
    (hlater : ∀ r' ∈ later, ¬r.SharesFiles r') :
    FileTree.place (Path.join outDir name) ∉
      (caseOutputs outDir later).map fun o => FileTree.place o.1 := by
  intro hmem
  obtain ⟨output, houtput, hplace⟩ := List.mem_map.1 hmem
  obtain ⟨r', hr', houtput⟩ := List.mem_flatMap.1 houtput
  obtain ⟨name', hname', hpath⟩ := CaseReport.exists_fileName_of_mem_outputs houtput
  rw [hpath, FileTree.place_join_inj (CaseReport.isFileName_of_mem_fileNames hname')
    (CaseReport.isFileName_of_mem_fileNames hname)] at hplace
  obtain rfl := hplace
  exact CaseReport.disjoint_fileNames_iff.2 (hlater r' hr') hname hname'

/-- The files of a report are those that were written for it if no later report shares them. -/
theorem read?_caseOutputs_of_last
    (hwritten : before.writeAll (caseOutputs outDir (earlier ++ r :: later)) = .ok written)
    (hlater : ∀ r' ∈ later, ¬r.SharesFiles r') :
    written.read? (Path.join outDir (Report.reportFileName r.name)) = some r.serialize ∧
      written.read? (Path.join outDir (Report.logFileName r.name)) = some r.log := by
  have hplaces : ∀ name ∈ r.fileNames, FileTree.place (Path.join outDir name) ∉
      (caseOutputs outDir later).map fun o => FileTree.place o.1 :=
    fun _ hname => place_notMem_caseOutputs hname hlater
  have hreport := hplaces _ (r.mem_fileNames_iff.2 (.inl rfl))
  have hlog := hplaces _ (r.mem_fileNames_iff.2 (.inr rfl))
  rw [caseOutputs_append_cons] at hwritten
  constructor
  · refine FileTree.read?_writeAll_last hwritten ?_
    rw [List.map_cons, List.mem_cons, not_or, FileTree.place_join_inj
      (Report.isFileName_reportFileName _) (Report.isFileName_logFileName _)]
    exact ⟨Report.reportFileName_ne_logFileName _ _, hreport⟩
  · rw [List.append_cons] at hwritten
    exact FileTree.read?_writeAll_last hwritten hlog

/-- Some report that shares the files of a report is the last to do so. -/
theorem exists_last_sharing (h : ∃ r' ∈ later, r.SharesFiles r') :
    ∃ between last rest, later = between ++ last :: rest ∧ r.SharesFiles last ∧
      ∀ r' ∈ rest, ¬last.SharesFiles r' := by
  have hfound : (later.reverse.find? fun r' => decide (r.SharesFiles r')).isSome = true := by
    obtain ⟨r', hr', hshared⟩ := h
    exact List.find?_isSome.2 ⟨r', List.mem_reverse.2 hr', decide_eq_true hshared⟩
  obtain ⟨last, hlast⟩ := Option.isSome_iff_exists.1 hfound
  obtain ⟨hshared, rest, between, hsplit, hrest⟩ := List.find?_eq_some_iff_append.1 hlast
  have hshared := of_decide_eq_true hshared
  refine ⟨between.reverse, last, rest.reverse, ?_, hshared, fun r' hr' hshared' => ?_⟩
  · rw [← List.reverse_reverse later, hsplit]
    simp
  · have hnot := hrest r' (List.mem_reverse.1 hr')
    rw [Bool.not_eq_true', decide_eq_false_iff_not] at hnot
    exact hnot (hshared'.trans hshared)

theorem map_fst_caseOutputs (outDir : String) (reports : List CaseReport) :
    (caseOutputs outDir reports).map Prod.fst =
      (reports.flatMap CaseReport.fileNames).map (Path.join outDir) := by
  rw [caseOutputs, List.map_flatMap, List.map_flatMap]
  rfl

theorem nodup_fileNames_iff :
    (reports.flatMap CaseReport.fileNames).Nodup ↔
      reports.Pairwise fun r r' => ¬r.SharesFiles r' := by
  rw [List.nodup_flatMap, and_iff_right fun r _ => r.nodup_fileNames]
  exact List.Pairwise.iff fun _ _ => CaseReport.disjoint_fileNames_iff

/-- All files of the reports are different if no two of them share theirs. -/
theorem nodup_paths_caseOutputs_iff (outDir : String) :
    ((caseOutputs outDir reports).map Prod.fst).Nodup ↔
      reports.Pairwise fun r r' => ¬r.SharesFiles r' := by
  rw [map_fst_caseOutputs, ← nodup_fileNames_iff]
  refine ⟨List.Nodup.of_map _, fun hnodup => hnodup.map_on fun name hname name' hname' hpath => ?_⟩
  obtain ⟨r, -, hname⟩ := List.mem_flatMap.1 hname
  obtain ⟨r', -, hname'⟩ := List.mem_flatMap.1 hname'
  exact (FileTree.place_join_inj (CaseReport.isFileName_of_mem_fileNames hname)
    (CaseReport.isFileName_of_mem_fileNames hname')).1 (congrArg FileTree.place hpath)

end

/-- After reports on cases with different names were written, a report is in its file exactly if no
later one shares its files, and then its log is there too. All files are different exactly if no two
reports share them. -/
theorem report_kept_iff {before written : FileTree} {outDir : String} {reports : List CaseReport}
    (hwritten : before.writeAll (caseOutputs outDir reports) = .ok written)
    (hnames : (reports.map (·.name)).Nodup)
    (hschema : ∀ r ∈ reports, r.schema = CaseReport.schemaName) :
    (((caseOutputs outDir reports).map Prod.fst).Nodup ↔
      reports.Pairwise fun r r' => ¬r.SharesFiles r') ∧
    ∀ earlier r later, reports = earlier ++ r :: later →
      let kept := ∀ r' ∈ later, ¬r.SharesFiles r'
      ((written.read? (Path.join outDir (Report.reportFileName r.name))).map CaseReport.parse =
          some (.ok r) ↔ kept) ∧
      (kept → written.read? (Path.join outDir (Report.logFileName r.name)) = some r.log) := by
  refine ⟨nodup_paths_caseOutputs_iff outDir, ?_⟩
  rintro earlier r later rfl kept
  have hlast : kept → _ := read?_caseOutputs_of_last hwritten
  refine ⟨⟨fun hread => ?_, fun hkept => ?_⟩, fun hkept => (hlast hkept).2⟩
  · by_contra hlost
    have hshared : ∃ r' ∈ later, r.SharesFiles r' := by
      simpa [kept] using hlost
    obtain ⟨between, last, rest, rfl, hshared, hrest⟩ := exists_last_sharing hshared
    rw [List.append_cons, ← List.append_assoc] at hwritten
    obtain ⟨hfound, -⟩ := read?_caseOutputs_of_last hwritten hrest
    rw [Report.reportFileName_inj.2 hshared] at hfound
    rw [hfound, Option.map_some, last.parse_serialize (hschema last (by simp))] at hread
    obtain rfl : last = r := Except.ok.inj (Option.some.inj hread)
    simp [List.nodup_append] at hnames
  · rw [(hlast hkept).1, Option.map_some, r.parse_serialize (hschema r (by simp))]

/-- A report on a case with a name. -/
def namedReport (name : String) : CaseReport where
  schema := CaseReport.schemaName
  tool := .current
  name := name
  description := none
  policy := "p.nt"
  rule := "urn:rule"
  kind := .permission
  round := .first
  startedAt := .epoch
  finishedAt := .epoch
  verdict := ⟨.decided, some "Allowed", some .positive, none⟩
  expectation := none
  trace := []
  digest := ""

/-- Of three reports the first shares its files with the last and is lost; the others are kept. -/
theorem report_kept_iff_three :
    let reports := [namedReport "a b", namedReport "c", namedReport "a_b"]
    ∃ written, FileTree.empty.writeAll (caseOutputs "o" reports) = .ok written ∧
      (reports.map (·.name)).Nodup ∧ (∀ r ∈ reports, r.schema = CaseReport.schemaName) ∧
      (written.read? (Path.join "o" "a_b.report.json")).map CaseReport.parse ≠
        some (.ok (namedReport "a b")) ∧
      (written.read? (Path.join "o" "c.report.json")).map CaseReport.parse =
        some (.ok (namedReport "c")) ∧
      written.read? (Path.join "o" "CASE_c_log.txt") = some (namedReport "c").log := by
  intro reports
  have hwritten : (FileTree.empty.writeAll (caseOutputs "o" reports)).isOk = true := by
    decide +kernel
  have hnames : (reports.map (·.name)).Nodup := by decide
  have hschema : ∀ r ∈ reports, r.schema = CaseReport.schemaName := by simp [reports, namedReport]
  have hshared : (namedReport "a b").SharesFiles (namedReport "a_b") := by decide
  have hnot : ∀ r' ∈ [namedReport "a_b"], ¬(namedReport "c").SharesFiles r' := by decide
  obtain ⟨written, hwritten⟩ := Except.exists_of_isOk hwritten
  obtain ⟨-, hkept⟩ := report_kept_iff hwritten hnames hschema
  obtain ⟨hfirst, -⟩ := hkept [] (namedReport "a b") _ rfl
  obtain ⟨hsecond, hlog⟩ := hkept [namedReport "a b"] (namedReport "c") _ rfl
  refine ⟨written, hwritten, hnames, hschema, fun hread => ?_, hsecond.2 hnot, hlog hnot⟩
  exact hfirst.1 hread (namedReport "a_b") (by simp) hshared

/-- Two cases with different names, whose reports are written to the same files: what is read for
the first is the report on the second. -/
theorem report_overwritten :
    let reports := [namedReport "a b", namedReport "a_b"]
    (reports.map (·.name)).Nodup ∧ ¬((caseOutputs "o" reports).map Prod.fst).Nodup ∧
    ∃ written, FileTree.empty.writeAll (caseOutputs "o" reports) = .ok written ∧
      (written.read? (Path.join "o" (Report.reportFileName "a b"))).map CaseReport.parse =
        some (.ok (namedReport "a_b")) ∧
      namedReport "a_b" ≠ namedReport "a b" := by
  intro reports
  have hwritten : (FileTree.empty.writeAll (caseOutputs "o" reports)).isOk = true := by
    decide +kernel
  obtain ⟨written, hwritten⟩ := Except.exists_of_isOk hwritten
  have hsplit : reports = [namedReport "a b"] ++ namedReport "a_b" :: [] := rfl
  obtain ⟨hread, -⟩ := read?_caseOutputs_of_last (hsplit ▸ hwritten) (List.forall_mem_nil _)
  have hname : Report.reportFileName "a b" = Report.reportFileName (namedReport "a_b").name := by
    decide
  have hparse : CaseReport.parse (namedReport "a_b").serialize = .ok (namedReport "a_b") :=
    (namedReport "a_b").parse_serialize rfl
  refine ⟨by decide, by decide, written, hwritten, ?_, by decide⟩
  rw [hname, hread, Option.map_some, hparse]

end UsagePolicy
