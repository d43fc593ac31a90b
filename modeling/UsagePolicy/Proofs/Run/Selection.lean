import UsagePolicy.Proofs.CaseFile.Layers
import UsagePolicy.Proofs.FileTrees
import UsagePolicy.Proofs.Run.Schedules
/-!
# Selections

What is reported of a case depends on the case and on the policy that its path leads to. Which other
cases are selected beside it makes no difference, and neither do the files that only others read:
a policy that is kept for several cases is the one that each of them would have loaded itself.
-/

namespace UsagePolicy

/-- Patterns select the names that one of them matches; without a pattern all names are selected. -/
def Selects (patterns : List String) (name : String) : Prop :=
  patterns = [] ∨
    ∃ pattern ∈ patterns, ∃ glob, Glob.parse? pattern = some glob ∧ glob.matchesName name = true

theorem any_matchesName_iff {patterns : List String} {globs : List Glob}
    (h : List.Forall₂ (fun pattern glob => Glob.parse? pattern = some glob) patterns globs)
    (name : String) :
    globs.any (·.matchesName name) = true ↔
      ∃ pattern ∈ patterns, ∃ glob, Glob.parse? pattern = some glob ∧
        glob.matchesName name = true := by
  induction h with
  | nil => simp
  | cons hparse _ ih =>
      rw [List.any_cons, Bool.or_eq_true, ih, List.exists_mem_cons_iff]
      simp [hparse]

theorem mem_selectCases {patterns : List String} {cases selected : List ResolvedCase}
    (h : selectCases patterns cases = .ok selected) :
    selected.Sublist cases ∧
      ∀ c, c ∈ selected ↔ c ∈ cases ∧ Selects patterns c.name := by
  obtain ⟨globs, hglobs, h⟩ := Except.bind_eq_ok.1 h
  have hparse : List.Forall₂ (fun pattern glob => Glob.parse? pattern = some glob)
      patterns globs := by
    refine (Except.mapM_eq_ok.1 hglobs).imp fun pattern glob hglob => ?_
    split at hglob
    · next hsome => rw [hsome, Except.ok.inj hglob]
    · cases hglob
  have hempty : globs.isEmpty = true ↔ patterns = [] := by
    rw [List.isEmpty_iff_length_eq_zero, ← hparse.length_eq, List.length_eq_zero_iff]
  dsimp only at h
  split at h
  · cases h
  obtain rfl := Except.ok.inj h
  refine ⟨List.filter_sublist, fun c => ?_⟩
  rw [List.mem_filter, Bool.or_eq_true, hempty, any_matchesName_iff hparse]
  rfl

/-! ## Loaded policies -/

namespace LoadedPolicies

variable {files : FileTree} {baseDir : String} {loaded loaded' : LoadedPolicies}
  {c : ResolvedCase} {cases : List ResolvedCase}

/-- Every policy that is kept is the one its path leads to. -/
def Genuine (files : FileTree) (baseDir : String) (loaded : LoadedPolicies) : Prop :=
  ∀ path policy, loaded[path]? = some policy →
    files.loadPolicy (Path.join baseDir path) = .ok policy

/-- One step: what is kept stays, and the policy of the case is there afterwards. -/
theorem Genuine.loadPolicy (hg : Genuine files baseDir loaded)
    (h : c.loadPolicy files baseDir loaded = .ok loaded') :
    Genuine files baseDir loaded' ∧ (∀ path, path ∈ loaded → path ∈ loaded') ∧
      c.policy ∈ loaded' := by
  unfold ResolvedCase.loadPolicy at h
  by_cases hc : loaded.contains c.policy = true
  · rw [if_pos hc] at h
    obtain rfl := Except.ok.inj h
    exact ⟨hg, fun _ => id, Std.TreeMap.contains_iff_mem.1 hc⟩
  · rw [if_neg hc] at h
    split at h
    · next policy hload =>
      obtain rfl := Except.ok.inj h
      refine ⟨fun path policy' hpath => ?_, fun path hpath => ?_, Std.TreeMap.mem_insert_self⟩
      · rw [Std.TreeMap.getElem?_insert] at hpath
        by_cases heq : compare c.policy path = .eq
        · rw [if_pos heq] at hpath
          rw [← Std.compare_eq_iff_eq.1 heq, hload, Option.some.inj hpath]
        · rw [if_neg heq] at hpath
          exact hg path policy' hpath
      · exact Std.TreeMap.mem_insert.2 (.inr hpath)
    · cases h

/-- All steps: after them the policy of every case is there. -/
theorem Genuine.foldlM (hg : Genuine files baseDir loaded)
    (h : cases.foldlM (ResolvedCase.loadPolicy files baseDir) loaded = .ok loaded') :
    Genuine files baseDir loaded' ∧ (∀ path, path ∈ loaded → path ∈ loaded') ∧
      ∀ c ∈ cases, c.policy ∈ loaded' := by
  induction cases generalizing loaded with
  | nil =>
      obtain rfl := Except.ok.inj h
      exact ⟨hg, fun _ => id, nofun⟩
  | cons c cases ih =>
      rw [List.foldlM_cons] at h
      obtain ⟨loaded₁, hstep, h⟩ := Except.bind_eq_ok.1 h
      obtain ⟨hg₁, hkeep₁, hc⟩ := hg.loadPolicy hstep
      obtain ⟨hg', hkeep, hcases⟩ := ih hg₁ h
      refine ⟨hg', fun path hpath => hkeep path (hkeep₁ path hpath), fun c' hc' => ?_⟩
      rcases List.mem_cons.1 hc' with rfl | hc'
      · exact hkeep _ hc
      · exact hcases c' hc'

theorem genuine_empty (files : FileTree) (baseDir : String) : Genuine files baseDir ∅ := by
  intro path policy h
  simp at h

section

variable {files' : FileTree} {paths : List String} (h : files.AgreesOn files' paths)
include h

theorem loadPolicy_of_agreesOn (hc : Path.join baseDir c.policy ∈ paths)
    (hload : c.loadPolicy files baseDir loaded = .ok loaded') :
    c.loadPolicy files' baseDir loaded = .ok loaded' := by
  unfold ResolvedCase.loadPolicy at hload ⊢
  by_cases hthere : loaded.contains c.policy = true
  · rw [if_pos hthere] at hload ⊢
    exact hload
  · rw [if_neg hthere] at hload ⊢
    split at hload
    · next policy hpolicy =>
      rw [h.loadPolicy hc hpolicy]
      exact hload
    · cases hload

theorem loadPolicies_of_agreesOn (hcases : ∀ c ∈ cases, Path.join baseDir c.policy ∈ paths)
    (hload : loadPolicies files baseDir cases = .ok loaded) :
    loadPolicies files' baseDir cases = .ok loaded := by
  unfold loadPolicies at hload ⊢
  generalize (∅ : LoadedPolicies) = start at hload ⊢
  induction cases generalizing start with
  | nil => exact hload
  | cons c cases ih =>
      rw [List.foldlM_cons] at hload ⊢
      obtain ⟨next, hstep, hload⟩ := Except.bind_eq_ok.1 hload
      have hstep' := loadPolicy_of_agreesOn h (hcases c List.mem_cons_self) hstep
      have hrest := ih (fun c' hc' => hcases c' (List.mem_cons_of_mem c hc')) next hload
      exact Except.bind_eq_ok.2 ⟨next, hstep', hrest⟩

end

end LoadedPolicies

/-! ## Reports -/

namespace ResolvedCase

variable {files : FileTree} {baseDir : String} {c : ResolvedCase} {report report' : CaseReport}

/-- A report says of a case what was resolved for it. -/
structure ReportedAs (c : ResolvedCase) (report : CaseReport) : Prop where
  name : report.name = c.name
  description : report.description = c.description
  policy : report.policy = c.policy
  rule : report.rule = c.rule
  round : report.round = c.round
  expected : report.expectation.map (·.expected) = c.expect.map Expectation.text

/-- A report that a case has by itself: on the policy its path leads to, at some time. -/
def HasReport (files : FileTree) (baseDir : String) (c : ResolvedCase) (report : CaseReport) :
    Prop :=
  ∃ policy startedAt finishedAt, files.loadPolicy (Path.join baseDir c.policy) = .ok policy ∧
    c.evaluate policy startedAt finishedAt = .ok report

theorem HasReport.reportedAs (h : c.HasReport files baseDir report) : c.ReportedAs report := by
  obtain ⟨policy, startedAt, finishedAt, -, h⟩ := h
  unfold evaluate at h
  dsimp only at h
  split at h
  · cases h
  · obtain rfl := Except.ok.inj h
    refine ⟨rfl, rfl, rfl, rfl, rfl, ?_⟩
    cases c.expect <;> rfl

theorem HasReport.schema_eq (h : c.HasReport files baseDir report) :
    report.schema = CaseReport.schemaName := by
  obtain ⟨policy, startedAt, finishedAt, -, h⟩ := h
  unfold evaluate at h
  dsimp only at h
  split at h
  · cases h
  · rw [← Except.ok.inj h]

/-- Apart from the times there is one report that a case can have. -/
theorem HasReport.unique (h : c.HasReport files baseDir report)
    (h' : c.HasReport files baseDir report') :
    report' =
      { report with startedAt := report'.startedAt, finishedAt := report'.finishedAt } := by
  obtain ⟨policy, startedAt, finishedAt, hload, h⟩ := h
  obtain ⟨policy', startedAt', finishedAt', hload', h'⟩ := h'
  rw [hload] at hload'
  obtain rfl := Except.ok.inj hload'
  unfold evaluate at h h'
  dsimp only at h h'
  split at h
  · cases h
  · next ruling hruling =>
    rw [hruling] at h'
    rw [← Except.ok.inj h, ← Except.ok.inj h']

end ResolvedCase

theorem ResolvedCase.policyIn_eq_ok {loaded : LoadedPolicies} {c : ResolvedCase}
    {policy : Policy} : c.policyIn loaded = .ok policy ↔ loaded[c.policy]? = some policy := by
  unfold policyIn
  cases loaded[c.policy]? <;> simp

theorem evaluateCases_eq_ok {loaded : LoadedPolicies} {clock : Clock} {schedule : Schedule}
    {cases : List ResolvedCase} {reports : List CaseReport}
    (h : evaluateCases loaded clock schedule cases = .ok reports) :
    List.Forall₂ (fun c report => ∃ policy startedAt finishedAt,
      loaded[c.policy]? = some policy ∧ c.evaluate policy startedAt finishedAt = .ok report)
        cases reports := by
  refine (Except.mapM_eq_ok.1 (Schedule.collect_eq_ok_iff.1 h)).of_mapIdx.imp ?_
  rintro c report ⟨place, h⟩
  obtain ⟨policy, hpolicy, hreport⟩ := Except.bind_eq_ok.1 h
  exact ⟨policy, _, _, ResolvedCase.policyIn_eq_ok.1 hpolicy, hreport⟩

/-- Behind the steps that prepare it, a run comes to the evaluation of its cases. -/
theorem runCases_eq {files : FileTree} {input : RunInput} {resolved : ResolvedCases}
    {selected : List ResolvedCase} {loaded : LoadedPolicies}
    (hresolved : CaseFile.load input.caseFile input.overrides = .ok resolved)
    (hselected : selectCases input.patterns resolved.cases = .ok selected)
    (hloaded : loadPolicies files input.baseDir selected = .ok loaded) (clock : Clock)
    (schedule : Schedule) :
    runCases files clock input schedule =
      (evaluateCases loaded clock schedule selected).map (⟨resolved.profile, ·⟩) := by
  rw [runCases, hresolved]
  show (selectCases input.patterns resolved.cases >>= _) = _
  rw [hselected]
  show (loadPolicies files input.baseDir selected >>= _) = _
  rw [hloaded]
  show (evaluateCases loaded clock schedule selected >>= _) = _
  cases evaluateCases loaded clock schedule selected <;> rfl

/-- A run succeeds when each of its steps does. -/
theorem runCases_eq_ok {files : FileTree} {clock : Clock} {input : RunInput}
    {schedule : Schedule} {r : RunResult} :
    runCases files clock input schedule = .ok r ↔
      ∃ resolved selected loaded, CaseFile.load input.caseFile input.overrides = .ok resolved ∧
        selectCases input.patterns resolved.cases = .ok selected ∧
        loadPolicies files input.baseDir selected = .ok loaded ∧
        evaluateCases loaded clock schedule selected = .ok r.reports ∧
        resolved.profile = r.profile := by
  constructor
  · intro h
    obtain ⟨resolved, hresolved, h⟩ := Except.bind_eq_ok.1 h
    obtain ⟨selected, hselected, h⟩ := Except.bind_eq_ok.1 h
    obtain ⟨loaded, hloaded, h⟩ := Except.bind_eq_ok.1 h
    obtain ⟨reports, hreports, h⟩ := Except.bind_eq_ok.1 h
    obtain rfl := Except.ok.inj h
    exact ⟨resolved, selected, loaded, hresolved, hselected, hloaded, hreports, rfl⟩
  · rintro ⟨resolved, selected, loaded, hresolved, hselected, hloaded, hreports, hprofile⟩
    rw [runCases_eq hresolved hselected hloaded, hreports, hprofile]
    rfl

/-- The reports of a run are those that its cases have by themselves. -/
theorem hasReport_of_evaluateCases {files : FileTree} {baseDir : String} {loaded : LoadedPolicies}
    {clock : Clock} {schedule : Schedule} {selected : List ResolvedCase}
    {reports : List CaseReport} (hloaded : loadPolicies files baseDir selected = .ok loaded)
    (hreports : evaluateCases loaded clock schedule selected = .ok reports) :
    List.Forall₂ (ResolvedCase.HasReport files baseDir) selected reports := by
  obtain ⟨hgenuine, -, -⟩ := (LoadedPolicies.genuine_empty files baseDir).foldlM hloaded
  refine (evaluateCases_eq_ok hreports).imp fun c report hreport => ?_
  obtain ⟨policy, startedAt, finishedAt, hpolicy, hevaluate⟩ := hreport
  exact ⟨policy, startedAt, finishedAt, hgenuine c.policy policy hpolicy, hevaluate⟩

theorem CaseFile.names_of_load {text : String} {o : Overrides} {resolved : ResolvedCases}
    (h : CaseFile.load text o = .ok resolved) :
    (resolved.cases.map (·.name)).Pairwise (· < ·) := by
  unfold load at h
  split at h
  · cases h
  · exact names_ordered (Except.mapError_eq_ok.1 h)

section

variable {files : FileTree} {clock : Clock} {input : RunInput} {r : RunResult}
  (h : runCases files clock input = .ok r)
include h

theorem schema_of_runCases : ∀ report ∈ r.reports, report.schema = CaseReport.schemaName := by
  obtain ⟨resolved, selected, loaded, -, -, hloaded, hevaluated, -⟩ := runCases_eq_ok.1 h
  intro report hreport
  obtain ⟨c, -, hhas⟩ := (hasReport_of_evaluateCases hloaded hevaluated).exists_left hreport
  exact hhas.schema_eq

/-- The reports of a run stand in the order of their names. -/
theorem names_of_runCases : (r.reports.map (·.name)).Pairwise (· < ·) := by
  obtain ⟨resolved, selected, loaded, hresolved, hselected, hloaded, hevaluated, -⟩ :=
    runCases_eq_ok.1 h
  have hreports := hasReport_of_evaluateCases hloaded hevaluated
  have hnames : List.Forall₂ (· = ·) (r.reports.map (·.name)) (selected.map (·.name)) := by
    rw [List.forall₂_map_left_iff, List.forall₂_map_right_iff]
    refine hreports.flip.imp fun report c hhas => ?_
    exact (ResolvedCase.HasReport.reportedAs hhas).name
  rw [List.forall₂_eq_eq_eq] at hnames
  rw [hnames]
  exact (CaseFile.names_of_load hresolved).sublist ((mem_selectCases hselected).1.map _)

end

/-- A run reports once on every selected case, in the order of their names, under the rule, round
and expectation that were resolved for it. A case that two runs select has the same report in both,
apart from the times. And a run is the same on every tree that differs in no directory and in no
file that a policy path of its reports leads to. -/
theorem runCases_selected {files : FileTree} {clock : Clock} {input : RunInput} {r : RunResult}
    (h : runCases files clock input = .ok r) :
    ∃ resolved, CaseFile.load input.caseFile input.overrides = .ok resolved ∧
      (r.reports.map (·.name)).Pairwise (· < ·) ∧
      (∀ c ∈ resolved.cases, Selects input.patterns c.name →
        ∃ report ∈ r.reports, c.ReportedAs report) ∧
      (∀ report ∈ r.reports,
        ∃ c ∈ resolved.cases, Selects input.patterns c.name ∧ c.ReportedAs report) ∧
      (∀ clock' patterns' r', runCases files clock' { input with patterns := patterns' } = .ok r' →
        ∀ c ∈ resolved.cases, Selects input.patterns c.name → Selects patterns' c.name →
          ∃ report ∈ r.reports, ∃ report' ∈ r'.reports,
            c.ReportedAs report ∧ c.ReportedAs report' ∧
            report' =
              { report with startedAt := report'.startedAt, finishedAt := report'.finishedAt }) ∧
      ∀ files', files.AgreesOn files' (r.reports.map fun report =>
          Path.join input.baseDir report.policy) →
        runCases files' clock input = .ok r := by
  obtain ⟨resolved, selected, loaded, hresolved, hselected, hloaded, hevaluated, hprofile⟩ :=
    runCases_eq_ok.1 h
  have hreports := hasReport_of_evaluateCases hloaded hevaluated
  obtain ⟨-, hmem⟩ := mem_selectCases hselected
  have hreported : List.Forall₂ ResolvedCase.ReportedAs selected r.reports :=
    hreports.imp fun _ _ hreport => hreport.reportedAs
  refine ⟨resolved, hresolved, names_of_runCases h, fun c hc hselects => ?_,
    fun report hreport => ?_, ?_, ?_⟩
  · exact hreported.exists_right ((hmem c).2 ⟨hc, hselects⟩)
  · obtain ⟨c, hc, hreported⟩ := hreported.exists_left hreport
    obtain ⟨hresolved, hselects⟩ := (hmem c).1 hc
    exact ⟨c, hresolved, hselects, hreported⟩
  · intro clock' patterns' r' h' c hc hselects hselects'
    obtain ⟨resolved', selected', loaded', hresolved', hselected', hloaded', hevaluated', -⟩ :=
      runCases_eq_ok.1 h'
    have hreports' := hasReport_of_evaluateCases hloaded' hevaluated'
    rw [hresolved] at hresolved'
    obtain rfl := Except.ok.inj hresolved'
    have hc' : c ∈ selected' := ((mem_selectCases hselected').2 c).2 ⟨hc, hselects'⟩
    obtain ⟨report, hreport, hhas⟩ := hreports.exists_right ((hmem c).2 ⟨hc, hselects⟩)
    obtain ⟨report', hreport', hhas'⟩ := hreports'.exists_right hc'
    exact ⟨report, hreport, report', hreport', hhas.reportedAs, hhas'.reportedAs,
      hhas.unique hhas'⟩
  · intro files' hagrees
    have hpaths : ∀ c ∈ selected, Path.join input.baseDir c.policy ∈
        r.reports.map fun report => Path.join input.baseDir report.policy := by
      intro c hc
      obtain ⟨report, hreport, hreported⟩ := hreported.exists_right hc
      exact List.mem_map.2 ⟨report, hreport, by rw [hreported.policy]⟩
    have hloaded' := LoadedPolicies.loadPolicies_of_agreesOn hagrees hpaths hloaded
    exact runCases_eq_ok.2
      ⟨resolved, selected, loaded, hresolved, hselected, hloaded', hevaluated, hprofile⟩

/-- Two cases, each with a policy of its own; the second policy has a given text. -/
def twoCases : String :=
  "cases.a=[\"p.nt\",\"u:r\",\"permission\"]\ncases.b=[\"q.nt\",\"u:r\",\"obligation\"]"

def twoPolicies (second : String) : FileTree where
  entries := (Std.TreeMap.empty.insert "p.nt" (.file (some "<u:r> <u:p> <u:o> ."))).insert "q.nt"
    (.file (some second))

theorem twoPolicies_agreesOn (second second' : String) :
    (twoPolicies second).AgreesOn (twoPolicies second') ["./p.nt"] := by
  intro place
  by_cases hplace : place = "q.nt"
  · refine .inr ⟨?_, fun path hpath names hnames => ?_⟩
    · simp [twoPolicies, hplace]
    · rw [List.mem_singleton.1 hpath] at hnames
      have hlocate : (twoPolicies second).locate? "./p.nt" = some ["p.nt"] := by rfl
      rw [← Option.some.inj (hlocate.symm.trans hnames), hplace]
      decide
  · refine .inl ?_
    have hne : ¬ compare "q.nt" place = .eq := fun heq =>
      hplace (Std.compare_eq_iff_eq.1 heq).symm
    simp [twoPolicies, Std.TreeMap.getElem?_insert, hne]

/-- The first case is reported alike whether the second is selected or not, and the policy of the
second may be broken when it is not. -/
theorem runCases_selected_broken :
    let files := twoPolicies "<u:r> <u:p> _:b ."
    let first : RunInput := { caseFile := twoCases, patterns := ["[a]"] }
    let early : Clock := fun _ => .epoch
    let late : Clock := fun _ => ⟨2026, 1, 2, 3, 4, 5, 0, 0, by decide⟩
    ∃ r r', runCases files early first = .ok r ∧
      runCases files late { first with patterns := ["?"] } = .ok r' ∧
      (∃ report ∈ r.reports, ∃ report' ∈ r'.reports, report.name = "a" ∧
        report' =
          { report with startedAt := report'.startedAt, finishedAt := report'.finishedAt }) ∧
      runCases (twoPolicies "no statement") early first = .ok r := by
  intro files first early late
  have hfirst : (runCases files early first).toOption.any
      (·.reports.map (·.policy) == ["p.nt"]) = true := by decide +kernel
  have hboth : (runCases files late { first with patterns := ["?"] }).isOk = true := by
    decide +kernel
  have hnames : (CaseFile.load first.caseFile first.overrides).toOption.any
      (·.cases.any (·.name == "a")) = true := by decide +kernel
  have hglobs : ∀ pattern ∈ ["[a]", "?"],
      (Glob.parse? pattern).any (·.matchesName "a") = true := by decide +kernel
  have hselects : ∀ pattern ∈ ["[a]", "?"], Selects [pattern] "a" := fun pattern hpattern =>
    .inr ⟨pattern, List.mem_singleton_self _, (Option.any_eq_true _ _).1 (hglobs pattern hpattern)⟩
  obtain ⟨r', h'⟩ := Except.exists_of_isOk hboth
  cases h : runCases files early first with
  | error e =>
      rw [h] at hfirst
      cases hfirst
  | ok r =>
      rw [h] at hfirst
      obtain ⟨resolved, hresolved, -, -, -, hsame, hfiles⟩ := runCases_selected h
      rw [hresolved] at hnames
      obtain ⟨c, hc, hname⟩ := List.any_eq_true.1 hnames
      have hname := beq_iff_eq.1 hname
      have hpolicies : r.reports.map (·.policy) = ["p.nt"] := beq_iff_eq.1 hfirst
      have hpaths : r.reports.map (fun report => Path.join "." report.policy) = ["./p.nt"] := by
        rw [← Function.comp_def (Path.join "."), ← List.map_map, hpolicies]
        decide
      refine ⟨r, r', rfl, h', ?_, hfiles _ (hpaths ▸ twoPolicies_agreesOn _ _)⟩
      obtain ⟨report, hreport, report', hreport', hreported, -, heq⟩ := hsame late ["?"] r' h' c hc
        (hname ▸ hselects "[a]" (by simp)) (hname ▸ hselects "?" (by simp))
      exact ⟨report, hreport, report', hreport', hreported.name.trans hname, heq⟩

end UsagePolicy
