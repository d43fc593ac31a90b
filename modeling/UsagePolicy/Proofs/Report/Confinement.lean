import UsagePolicy.Proofs.Report.SharedFiles
/-!
# Reports stay in their directory

Whatever a case is called, the files of its report have names of a few harmless characters. So they
are written right into the output directory, and files at all other places are left alone.
-/

namespace UsagePolicy

/-! ## Files that are left alone -/

namespace FileTree

/-- The tree that is left when writing has ended, be it with a failure. -/
def leftBy (files : FileTree) (outputs : List (String × String)) : FileTree :=
  match files.writeAll outputs with
  | .ok written => written
  | .error failure => failure.files

variable {t t' : FileTree} {path text other : String} {content : Option String}

theorem leftBy_cons_of_ok {rest : List (String × String)} (h : t.write path text = .ok t') :
    t.leftBy ((path, text) :: rest) = t'.leftBy rest := by
  simp only [leftBy, writeAll, h]

theorem leftBy_cons_of_error {rest : List (String × String)} {error : WriteError}
    (h : t.write path text = .error error) : t.leftBy ((path, text) :: rest) = t := by
  simp only [leftBy, writeAll, h]

/-- Directories that are made are no files. -/
theorem file_of_makeDirectories {here parts : List String}
    (h : t.makeDirectories here parts = some t')
    (hfile : t'.entries[other]? = some (.file content)) :
    t.entries[other]? = some (.file content) := by
  induction parts generalizing t here with
  | nil =>
      obtain rfl := Option.some.inj h
      exact hfile
  | cons part rest ih =>
      unfold makeDirectories at h
      split at h
      · exact ih h
      split at h
      · exact ih h
      dsimp only at h
      split at h
      · exact ih h
      · cases h
      · have hmade := ih h
        rw [Std.TreeMap.getElem?_insert] at hmade
        split at hmade
        · cases hmade
        · exact hmade

/-- At another place writing a text makes no file, and it changes none. -/
theorem file_write_iff (h : t.write path text = .ok t') (hother : other ≠ place path) :
    t'.entries[other]? = some (.file content) ↔ t.entries[other]? = some (.file content) := by
  constructor
  · intro hfile
    unfold write at h
    dsimp only at h
    split at h
    · cases h
    · next made hmade =>
      split at h
      · cases h
      · next put hput =>
        obtain rfl := Except.ok.inj h
        obtain ⟨-, -, rfl⟩ := put?_eq_some hput
        have hne : ¬compare (place path) other = .eq := fun heq =>
          hother (Std.compare_eq_iff_eq.1 heq).symm
        rw [Std.TreeMap.getElem?_insert, if_neg hne] at hfile
        exact file_of_makeDirectories hmade hfile
  · exact (wrote_of_write h).kept other _ hother

theorem file_leftBy_iff {outputs : List (String × String)}
    (hother : ∀ output ∈ outputs, other ≠ place output.1) :
    (t.leftBy outputs).entries[other]? = some (.file content) ↔
      t.entries[other]? = some (.file content) := by
  induction outputs generalizing t with
  | nil => rfl
  | cons output rest ih =>
      obtain ⟨path, text⟩ := output
      have hpath : other ≠ place path := hother (path, text) List.mem_cons_self
      have hrest : ∀ output ∈ rest, other ≠ place output.1 :=
        fun output h => hother output (List.mem_cons_of_mem _ h)
      cases hwrite : t.write path text with
      | error error => rw [leftBy_cons_of_error hwrite]
      | ok t' =>
          rw [leftBy_cons_of_ok hwrite, ih hrest]
          exact file_write_iff hwrite hpath

end FileTree

namespace Report

/-! ## Plain names -/

/-- A name of ASCII letters, digits, hyphens, underscores and points that is the name of an
entry. -/
structure IsPlainName (name : String) : Prop where
  chars : ∀ c ∈ name.toList, c.isAlphanum = true ∨ c = '-' ∨ c = '_' ∨ c = '.'
  notMem_dots : name ∉ ["", ".", ".."]

theorem isPlainName_of_isFileChar {name : String} (hname : FileTree.IsFileName name)
    (h : ∀ c ∈ name.toList, isFileChar c = true) : IsPlainName name where
  chars c hc := by
    have hchar := h c hc
    simpa [isFileChar, or_assoc] using hchar
  notMem_dots := hname.notMem_dots

theorem IsPlainName.isFileName {name : String} (h : IsPlainName name) :
    FileTree.IsFileName name where
  slash_notMem hslash := by
    have hplain := h.chars '/' hslash
    revert hplain
    decide
  notMem_dots := h.notMem_dots

theorem isPlainName_reportFileName (case : String) : IsPlainName (reportFileName case) := by
  have hend : ".report.json".toList.all isFileChar = true := by decide
  apply isPlainName_of_isFileChar (isFileName_reportFileName case)
  intro c hc
  rw [reportFileName_eq, String.toList_append, List.mem_append] at hc
  rcases hc with hc | hc
  · exact isFileChar_of_mem_fileStem hc
  · exact List.all_eq_true.1 hend c hc

theorem isPlainName_logFileName (case : String) : IsPlainName (logFileName case) := by
  have hbegin : "CASE_".toList.all isFileChar = true := by decide
  have hend : "_log.txt".toList.all isFileChar = true := by decide
  apply isPlainName_of_isFileChar (isFileName_logFileName case)
  intro c hc
  rw [logFileName_eq, String.toList_append, String.toList_append, List.mem_append,
    List.mem_append] at hc
  rcases hc with (hc | hc) | hc
  · exact List.all_eq_true.1 hbegin c hc
  · exact isFileChar_of_mem_fileStem hc
  · exact List.all_eq_true.1 hend c hc

theorem isPlainName_of_mem_fileNames {r : CaseReport} {name : String} (h : name ∈ r.fileNames) :
    IsPlainName name := by
  rcases r.mem_fileNames_iff.1 h with rfl | rfl
  · exact isPlainName_reportFileName r.name
  · exact isPlainName_logFileName r.name

end Report

theorem exists_plainName_of_mem_caseOutputs {outDir : String} {reports : List CaseReport}
    {output : String × String} (h : output ∈ caseOutputs outDir reports) :
    ∃ name, Report.IsPlainName name ∧ output.1 = Path.join outDir name ∧
      FileTree.names output.1 = FileTree.names outDir ++ [name] := by
  obtain ⟨r, -, houtput⟩ := List.mem_flatMap.1 h
  obtain ⟨name, hname, hpath⟩ := CaseReport.exists_fileName_of_mem_outputs houtput
  have hplain := Report.isPlainName_of_mem_fileNames hname
  refine ⟨name, hplain, hpath, ?_⟩
  rw [hpath, FileTree.names_join hplain.isFileName]

/-- Whatever the cases are called, each path to which their reports are written is the output
directory joined with a plain name, which leads one step further from there; files at places that no
plain name leads to are left alone, also when writing fails. No report is written to the place of a
log. -/
theorem caseOutputs_confined (outDir : String) (reports : List CaseReport) :
    (∀ output ∈ caseOutputs outDir reports, ∃ name, Report.IsPlainName name ∧
      output.1 = Path.join outDir name ∧
      FileTree.names output.1 = FileTree.names outDir ++ [name]) ∧
    (∀ (files : FileTree) (place : String) (content : Option String),
      (∀ name, Report.IsPlainName name →
        place ≠ FileTree.key (FileTree.names outDir ++ [name])) →
      ((files.leftBy (caseOutputs outDir reports)).entries[place]? = some (.file content) ↔
        files.entries[place]? = some (.file content))) ∧
    ∀ case case', Report.reportFileName case ≠ Report.logFileName case' := by
  refine ⟨fun _ => exists_plainName_of_mem_caseOutputs, ?_, Report.reportFileName_ne_logFileName⟩
  intro files place content hplace
  apply FileTree.file_leftBy_iff
  intro output houtput
  obtain ⟨name, hplain, -, hnames⟩ := exists_plainName_of_mem_caseOutputs houtput
  rw [FileTree.place, hnames]
  exact hplace name hplain

/-- Two cases whose names are paths to other places, beside a file where the first one leads. -/
theorem caseOutputs_confined_upwards :
    let reports := [namedReport "../up", namedReport "/etc/up"]
    let files : FileTree := ⟨(∅ : Std.TreeMap String FileEntry).insert "up" (.file none)⟩
    (∃ output ∈ caseOutputs "o" reports, ∃ name, Report.IsPlainName name ∧
      output.1 = "o/_etc_up.report.json" ∧ Path.join "o" name = "o/_etc_up.report.json" ∧
      FileTree.names output.1 = ["o", name]) ∧
    (files.leftBy (caseOutputs "o" reports)).entries["up"]? = some (.file none) := by
  intro reports files
  obtain ⟨hpaths, hkept, -⟩ := caseOutputs_confined "o" reports
  have hdirectory : FileTree.names "o" = ["o"] := by decide
  rw [hdirectory] at hpaths hkept
  constructor
  · have hpath : "o/_etc_up.report.json" ∈ (caseOutputs "o" reports).map Prod.fst := by decide
    obtain ⟨output, houtput, hpath⟩ := List.mem_map.1 hpath
    obtain ⟨name, hplain, hjoin, hnames⟩ := hpaths output houtput
    exact ⟨output, houtput, name, hplain, hpath, hjoin.symm.trans hpath, hnames⟩
  · have hfile : files.entries["up"]? = some (.file none) := Std.TreeMap.getElem?_insert_self
    refine (hkept files "up" none ?_).2 hfile
    intro name _ heq
    have hkey : FileTree.key (["o"] ++ [name]) = "o/" ++ name := rfl
    rw [hkey] at heq
    have hhead := congrArg (fun place => place.toList.head?) heq
    simp at hhead

end UsagePolicy
