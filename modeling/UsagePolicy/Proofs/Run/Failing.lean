import UsagePolicy.Proofs.Run.Selection
/-!
# Runs that fail

A run goes through its steps in turn and stops at the first that fails. What can fail is told here
without the steps: by the texts, the patterns and the policies alone. Whether there is a result does
not depend on the clock, nor on the schedule under which cases are evaluated.
-/

namespace UsagePolicy

/-! ## Rules -/

/-- A rule of a graph has a ruling, unless its kind is neither given nor shown by the graph. -/
theorem evaluateRule_isOk_iff (g : Graph) (oracle : Oracle) (round : Round) (rule : String)
    (kind : Option RuleKind) :
    (∃ ruling, (evaluateRule (some g) oracle round rule kind).value = .ok ruling) ↔
      ¬(kind = none ∧ g.classify? rule = none) := by
  let e : Evaluator := ⟨g, oracle, round⟩
  show (∃ ruling, (e.fresh (e.classifiedRule rule kind)).value = .ok ruling) ↔
    ¬(kind = none ∧ e.graph.classify? rule = none)
  cases kind with
  | some given => exact iff_of_true ⟨_, rfl⟩ fun h => Option.some_ne_none given h.1
  | none =>
      unfold Evaluator.classifiedRule
      cases hshown : e.graph.classify? rule with
      | some shown => exact iff_of_true ⟨_, rfl⟩ fun h => Option.some_ne_none shown h.2
      | none => exact iff_of_false (fun ⟨_, h⟩ => by cases h) fun h => h ⟨rfl, rfl⟩

/-- The rule of a case cannot be classified: no kind is given, and the policy shows none. -/
def ResolvedCase.Unclassified (c : ResolvedCase) (policy : Policy) : Prop :=
  c.kind = none ∧ policy.graph.classify? c.rule = none

theorem ResolvedCase.evaluate_isOk_iff (c : ResolvedCase) (policy : Policy)
    (startedAt finishedAt : Timestamp) :
    (∃ report, c.evaluate policy startedAt finishedAt = .ok report) ↔ ¬c.Unclassified policy := by
  unfold ResolvedCase.Unclassified
  rw [← evaluateRule_isOk_iff policy.graph c.presets.oracle c.round c.rule c.kind]
  unfold ResolvedCase.evaluate
  dsimp only
  split
  · next fault hfault => simp [hfault]
  · next ruling hruling => simp [hruling]

/-! ## Steps -/

theorem CaseFile.load_isOk_iff (text : String) (o : Overrides) :
    (∃ resolved, CaseFile.load text o = .ok resolved) ↔
      ∃ file, CaseFile.parse? text = some file ∧ ∃ resolved, file.resolve o = .ok resolved := by
  unfold CaseFile.load
  cases CaseFile.parse? text with
  | none => simp
  | some file => simp [Except.mapError_eq_ok]

/-- Reads a pattern, as a selection of cases does. -/
def readGlob (pattern : String) : Except RunError Glob :=
  match Glob.parse? pattern with
  | some glob => .ok glob
  | none => .error (.glob pattern)

theorem readGlob_eq_ok {pattern : String} {glob : Glob} :
    readGlob pattern = .ok glob ↔ Glob.parse? pattern = some glob := by
  unfold readGlob
  cases Glob.parse? pattern <;> simp

/-- Some cases are selected, unless there are patterns that select no case. -/
theorem selectCases_eq_ok_iff {patterns : List String} {cases selected : List ResolvedCase} :
    selectCases patterns cases = .ok selected ↔
      ∃ globs, patterns.mapM readGlob = .ok globs ∧
        selected = cases.filter (fun c => globs.isEmpty || globs.any (·.matchesName c.name)) ∧
        (selected = [] → patterns = []) := by
  refine Except.bind_eq_ok.trans (exists_congr fun globs => and_congr_right fun _ => ?_)
  dsimp only
  generalize cases.filter (fun c => globs.isEmpty || globs.any (·.matchesName c.name)) = matching
  by_cases hnone : matching = [] ∧ patterns ≠ []
  · rw [if_pos (by simpa using hnone)]
    exact iff_of_false nofun fun ⟨hselected, hsome⟩ => hnone.2 (hsome (hselected.trans hnone.1))
  · rw [if_neg (by simpa using hnone), Except.ok.injEq, eq_comm]
    refine (and_iff_left_of_imp fun hselected hnil => ?_).symm
    by_contra hpatterns
    exact hnone ⟨hselected.symm.trans hnil, hpatterns⟩

/-- Cases can be selected if every pattern is a glob and, where there are patterns, some name is
selected by them. -/
theorem selectCases_isOk_iff (patterns : List String) (cases : List ResolvedCase) :
    (∃ selected, selectCases patterns cases = .ok selected) ↔
      (∀ pattern ∈ patterns, Glob.parse? pattern ≠ none) ∧
        (patterns = [] ∨ ∃ c ∈ cases, Selects patterns c.name) := by
  constructor
  · rintro ⟨selected, h⟩
    obtain ⟨globs, hglobs, -, hsome⟩ := selectCases_eq_ok_iff.1 h
    refine ⟨fun pattern hpattern => ?_, ?_⟩
    · obtain ⟨glob, -, hglob⟩ := (Except.mapM_eq_ok.1 hglobs).exists_right hpattern
      rw [readGlob_eq_ok.1 hglob]
      exact Option.some_ne_none glob
    · cases selected with
      | nil => exact .inl (hsome rfl)
      | cons c selected =>
          obtain ⟨-, hmem⟩ := mem_selectCases h
          exact .inr ⟨c, (hmem c).1 List.mem_cons_self⟩
  · rintro ⟨hparse, hsome⟩
    have hread : ∀ pattern ∈ patterns, ∃ glob, readGlob pattern = .ok glob := by
      intro pattern hpattern
      obtain ⟨glob, hglob⟩ := Option.ne_none_iff_exists'.1 (hparse pattern hpattern)
      exact ⟨glob, readGlob_eq_ok.2 hglob⟩
    obtain ⟨globs, hglobs⟩ := Except.exists_mapM_eq_ok_iff.2 hread
    refine ⟨_, selectCases_eq_ok_iff.2 ⟨globs, hglobs, rfl, fun hnone => ?_⟩⟩
    refine hsome.resolve_right fun ⟨c, hc, hselects⟩ => ?_
    rw [List.filter_eq_nil_iff] at hnone
    refine hnone c hc ?_
    rw [Bool.or_eq_true]
    refine hselects.imp ?_ ?_
    · rintro rfl
      obtain rfl := Except.ok.inj hglobs
      rfl
    · exact (any_matchesName_iff ((Except.mapM_eq_ok.1 hglobs).imp fun _ _ => readGlob_eq_ok.1) _).2

theorem ResolvedCase.loadPolicy_isOk {files : FileTree} {baseDir : String} {c : ResolvedCase}
    {policy : Policy} (h : files.loadPolicy (Path.join baseDir c.policy) = .ok policy)
    (loaded : LoadedPolicies) : ∃ loaded', c.loadPolicy files baseDir loaded = .ok loaded' := by
  unfold ResolvedCase.loadPolicy
  rw [h]
  split
  · exact ⟨_, rfl⟩
  · exact ⟨_, rfl⟩

theorem loadPolicies_isOk_iff (files : FileTree) (baseDir : String) (cases : List ResolvedCase) :
    (∃ loaded, loadPolicies files baseDir cases = .ok loaded) ↔
      ∀ c ∈ cases, ∃ policy, files.loadPolicy (Path.join baseDir c.policy) = .ok policy := by
  constructor
  · rintro ⟨loaded, h⟩ c hc
    obtain ⟨hgenuine, -, hthere⟩ := (LoadedPolicies.genuine_empty files baseDir).foldlM h
    have hpolicy := Std.TreeMap.getElem?_eq_some_getElem (hthere c hc)
    exact ⟨_, hgenuine c.policy _ hpolicy⟩
  · unfold loadPolicies
    generalize (∅ : LoadedPolicies) = start
    intro h
    induction cases generalizing start with
    | nil => exact ⟨start, rfl⟩
    | cons c cases ih =>
        obtain ⟨policy, hpolicy⟩ := h c List.mem_cons_self
        obtain ⟨next, hstep⟩ := ResolvedCase.loadPolicy_isOk hpolicy start
        obtain ⟨loaded, hrest⟩ := ih next fun c' hc' => h c' (List.mem_cons_of_mem c hc')
        rw [List.foldlM_cons]
        exact ⟨loaded, Except.bind_eq_ok.2 ⟨next, hstep, hrest⟩⟩

theorem ResolvedCase.evaluateIn_isOk_iff (loaded : LoadedPolicies) (c : ResolvedCase)
    (startedAt finishedAt : Timestamp) :
    (∃ report, c.evaluateIn loaded startedAt finishedAt = .ok report) ↔
      ∃ policy, loaded[c.policy]? = some policy ∧ ¬c.Unclassified policy := by
  simp only [evaluateIn, Except.bind_eq_ok, policyIn_eq_ok]
  rw [exists_comm]
  refine exists_congr fun policy => ?_
  rw [exists_and_left, c.evaluate_isOk_iff policy]

theorem evaluateCases_isOk_iff (loaded : LoadedPolicies) (clock : Clock) (schedule : Schedule)
    (cases : List ResolvedCase) :
    (∃ reports, evaluateCases loaded clock schedule cases = .ok reports) ↔
      ∀ c ∈ cases, ∃ policy, loaded[c.policy]? = some policy ∧ ¬c.Unclassified policy := by
  rw [evaluateCases, Schedule.exists_collect_eq_ok_iff, List.forall_mem_iff_getElem,
    List.forall_mem_iff_getElem]
  simp only [List.length_mapIdx, List.getElem_mapIdx, ResolvedCase.evaluateIn_isOk_iff]

/-! ## Runs -/

/-- The cases that a run would evaluate. -/
def RunInput.Asks (input : RunInput) (c : ResolvedCase) : Prop :=
  ∃ resolved, CaseFile.load input.caseFile input.overrides = .ok resolved ∧
    c ∈ resolved.cases ∧ Selects input.patterns c.name

/-- What keeps a run from a result: a case file that cannot be parsed or resolved, a pattern that is
no glob, patterns that select nothing, or a selected case whose policy cannot be loaded or whose
rule cannot be classified. -/
inductive RunInput.Fails (files : FileTree) (input : RunInput) : Prop
  | parse (h : CaseFile.parse? input.caseFile = none)
  | resolve (file : CaseFile) (error : ResolveError)
      (hfile : CaseFile.parse? input.caseFile = some file)
      (h : file.resolve input.overrides = .error error)
  | glob (pattern : String) (hpattern : pattern ∈ input.patterns) (h : Glob.parse? pattern = none)
  | noCase (hpatterns : input.patterns ≠ []) (h : ∀ c, ¬input.Asks c)
  | load (c : ResolvedCase) (error : LoadError) (hc : input.Asks c)
      (h : files.loadPolicy (Path.join input.baseDir c.policy) = .error error)
  | classify (c : ResolvedCase) (policy : Policy) (hc : input.Asks c)
      (hpolicy : files.loadPolicy (Path.join input.baseDir c.policy) = .ok policy)
      (h : c.Unclassified policy)

section

variable {files : FileTree} {clock : Clock} {input : RunInput} {schedule : Schedule}

theorem RunInput.asks_iff {resolved : ResolvedCases}
    (hresolved : CaseFile.load input.caseFile input.overrides = .ok resolved) (c : ResolvedCase) :
    input.Asks c ↔ c ∈ resolved.cases ∧ Selects input.patterns c.name := by
  constructor
  · rintro ⟨resolved', hresolved', hc⟩
    rw [hresolved] at hresolved'
    obtain rfl := Except.ok.inj hresolved'
    exact hc
  · exact fun hc => ⟨resolved, hresolved, hc⟩

theorem RunInput.asks_iff_mem {resolved : ResolvedCases} {selected : List ResolvedCase}
    (hresolved : CaseFile.load input.caseFile input.overrides = .ok resolved)
    (hselected : selectCases input.patterns resolved.cases = .ok selected) (c : ResolvedCase) :
    input.Asks c ↔ c ∈ selected := by
  rw [RunInput.asks_iff hresolved, (mem_selectCases hselected).2]

theorem not_fails_of_runCases {r : RunResult} (h : runCases files clock input schedule = .ok r) :
    ¬input.Fails files := by
  obtain ⟨resolved, selected, loaded, hresolved, hselected, hloaded, hevaluated, -⟩ :=
    runCases_eq_ok.1 h
  have hreports := hasReport_of_evaluateCases hloaded hevaluated
  have hasks := RunInput.asks_iff_mem hresolved hselected
  obtain ⟨file, hfile, resolved', hresolve⟩ := (CaseFile.load_isOk_iff _ _).1 ⟨resolved, hresolved⟩
  obtain ⟨hglobs, hsome⟩ := (selectCases_isOk_iff _ _).1 ⟨selected, hselected⟩
  intro hfails
  cases hfails with
  | parse hparse =>
      rw [hfile] at hparse
      cases hparse
  | resolve file' error hfile' herror =>
      rw [hfile] at hfile'
      obtain rfl := Option.some.inj hfile'
      rw [hresolve] at herror
      cases herror
  | glob pattern hpattern hnone => exact hglobs pattern hpattern hnone
  | noCase hpatterns hnone =>
      obtain ⟨c, hc, hselects⟩ := hsome.resolve_left hpatterns
      exact hnone c ((RunInput.asks_iff hresolved c).2 ⟨hc, hselects⟩)
  | load c error hc herror =>
      obtain ⟨report, -, policy, -, -, hpolicy, -⟩ := hreports.exists_right ((hasks c).1 hc)
      rw [herror] at hpolicy
      cases hpolicy
  | classify c policy hc hpolicy hunclassified =>
      obtain ⟨report, -, policy', startedAt, finishedAt, hpolicy', hreport⟩ :=
        hreports.exists_right ((hasks c).1 hc)
      rw [hpolicy] at hpolicy'
      obtain rfl := Except.ok.inj hpolicy'
      exact (c.evaluate_isOk_iff policy startedAt finishedAt).1 ⟨report, hreport⟩ hunclassified

theorem RunInput.exists_policy_of_not_fails (h : ¬input.Fails files) {c : ResolvedCase}
    (hc : input.Asks c) :
    ∃ policy, files.loadPolicy (Path.join input.baseDir c.policy) = .ok policy ∧
      ¬c.Unclassified policy := by
  cases hpolicy : files.loadPolicy (Path.join input.baseDir c.policy) with
  | error error => exact absurd (.load c error hc hpolicy) h
  | ok policy => exact ⟨policy, rfl, fun hkind => h (.classify c policy hc hpolicy hkind)⟩

theorem exists_load_of_not_fails (h : ¬input.Fails files) :
    ∃ resolved, CaseFile.load input.caseFile input.overrides = .ok resolved := by
  rw [CaseFile.load_isOk_iff]
  cases hfile : CaseFile.parse? input.caseFile with
  | none => exact absurd (.parse hfile) h
  | some file =>
      refine ⟨file, rfl, ?_⟩
      cases hresolve : file.resolve input.overrides with
      | error error => exact absurd (.resolve file error hfile hresolve) h
      | ok resolved => exact ⟨resolved, rfl⟩

theorem exists_selected_of_not_fails (h : ¬input.Fails files) {resolved : ResolvedCases}
    (hresolved : CaseFile.load input.caseFile input.overrides = .ok resolved) :
    ∃ selected, selectCases input.patterns resolved.cases = .ok selected := by
  rw [selectCases_isOk_iff]
  refine ⟨fun pattern hpattern hnone => h (.glob pattern hpattern hnone), ?_⟩
  refine or_iff_not_imp_left.2 fun hpatterns => ?_
  by_contra hnone
  exact h (.noCase hpatterns fun c hc => hnone ⟨c, (RunInput.asks_iff hresolved c).1 hc⟩)

/-- A run has a result exactly if nothing that it depends on fails. -/
theorem runCases_isOk_iff (files : FileTree) (clock : Clock) (input : RunInput)
    (schedule : Schedule) :
    (∃ r, runCases files clock input schedule = .ok r) ↔ ¬input.Fails files := by
  refine ⟨fun ⟨r, h⟩ => not_fails_of_runCases h, fun h => ?_⟩
  obtain ⟨resolved, hresolved⟩ := exists_load_of_not_fails h
  obtain ⟨selected, hselected⟩ := exists_selected_of_not_fails h hresolved
  have hpolicy : ∀ c ∈ selected, ∃ policy,
      files.loadPolicy (Path.join input.baseDir c.policy) = .ok policy ∧ ¬c.Unclassified policy :=
    fun c hc => RunInput.exists_policy_of_not_fails h
      ((RunInput.asks_iff_mem hresolved hselected c).2 hc)
  obtain ⟨loaded, hloaded⟩ := (loadPolicies_isOk_iff files input.baseDir selected).2
    fun c hc => (hpolicy c hc).imp fun _ => And.left
  obtain ⟨hgenuine, -, hthere⟩ := (LoadedPolicies.genuine_empty files input.baseDir).foldlM hloaded
  have hkept : ∀ c ∈ selected, ∃ policy, loaded[c.policy]? = some policy ∧
      ¬c.Unclassified policy := by
    intro c hc
    obtain ⟨policy, hload, hclassified⟩ := hpolicy c hc
    have hentry := Std.TreeMap.getElem?_eq_some_getElem (hthere c hc)
    rw [hgenuine c.policy _ hentry] at hload
    obtain rfl := Except.ok.inj hload
    exact ⟨_, hentry, hclassified⟩
  obtain ⟨reports, hreports⟩ := (evaluateCases_isOk_iff loaded clock schedule selected).2 hkept
  exact ⟨⟨resolved.profile, reports⟩, runCases_eq_ok.2
    ⟨resolved, selected, loaded, hresolved, hselected, hloaded, hreports, rfl⟩⟩

end

end UsagePolicy
