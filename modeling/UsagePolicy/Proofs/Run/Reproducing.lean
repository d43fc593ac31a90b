import UsagePolicy.Proofs.Report.Masking
import UsagePolicy.Proofs.Run.Failing
/-!
# Runs at other times

A run is the same whatever the clock shows: it fails with the same error, or its reports are the
same up to their times. The clock is read for the times of a report and for nothing else. The
schedule under which cases are evaluated makes no difference either, unless several of them fail:
then it settles which of their errors the run fails with.
-/

namespace UsagePolicy

/-! ## Reports -/

/-- Two reports of one evaluation at different times: masks make them equal, and the traces have the
same digest without one. -/
structure CaseReport.Reproduces (r r' : CaseReport) : Prop where
  json : Report.mask r.toJson = Report.mask r'.toJson
  digest : r.digest = r'.digest
  log : Report.maskLog r.log = Report.maskLog r'.log

/-- The results of one run at different times. -/
structure RunResult.Reproduces (result result' : RunResult) : Prop where
  profile : result.profile = result'.profile
  reports : List.Forall₂ CaseReport.Reproduces result.reports result'.reports

theorem CaseReport.reproduces_withTimes (r : CaseReport) (s s' f f' : Timestamp) :
    (r.withTimes s f).Reproduces (r.withTimes s' f') :=
  ⟨r.mask_toJson_withTimes s s' f f', rfl, r.maskLog_log_withTimes s s' f f'⟩

/-- The clock settles the times of a report, not whether there is one or what else it says. -/
theorem ResolvedCase.evaluate_withTimes (c : ResolvedCase) (policy : Policy)
    (s s' f f' : Timestamp) :
    c.evaluate policy s' f' = (c.evaluate policy s f).map (·.withTimes s' f') := by
  unfold evaluate
  dsimp only
  split <;> rfl

/-- A case by itself fails with the same error at all times, whatever is evaluated before it or
beside it, or its reports reproduce each other. -/
theorem ResolvedCase.evaluate_agree (c : ResolvedCase) (policy : Policy) (s s' f f' : Timestamp) :
    Except.Agree CaseReport.Reproduces (c.evaluate policy s f) (c.evaluate policy s' f') := by
  rw [c.evaluate_withTimes policy s s' f f', c.evaluate_withTimes policy s s f f]
  cases c.evaluate policy s f with
  | error e => exact .error e
  | ok r => exact .ok (r.reproduces_withTimes s s' f f')

/-! ## Failures -/

/-- The error with which a case fails by itself: on the policy its path leads to, at all times. -/
def ResolvedCase.FailsWith (files : FileTree) (baseDir : String) (c : ResolvedCase)
    (error : RunError) : Prop :=
  ∃ policy, files.loadPolicy (Path.join baseDir c.policy) = .ok policy ∧
    ∀ startedAt finishedAt, c.evaluate policy startedAt finishedAt = .error error

section

variable {files : FileTree} {baseDir : String} {loaded : LoadedPolicies}
  {cases : List ResolvedCase} {c : ResolvedCase} {e e' : RunError}

theorem ResolvedCase.FailsWith.unique (h : c.FailsWith files baseDir e)
    (h' : c.FailsWith files baseDir e') : e = e' := by
  obtain ⟨policy, hpolicy, hfails⟩ := h
  obtain ⟨policy', hpolicy', hfails'⟩ := h'
  rw [hpolicy] at hpolicy'
  obtain rfl := Except.ok.inj hpolicy'
  exact Except.error.inj ((hfails .epoch .epoch).symm.trans (hfails' .epoch .epoch))

/-- Once the policies of some cases are loaded, none of these cases misses its policy: it fails by
itself if it fails. -/
theorem ResolvedCase.evaluateIn_eq_error_iff
    (hloaded : loadPolicies files baseDir cases = .ok loaded) (hc : c ∈ cases)
    (startedAt finishedAt : Timestamp) :
    c.evaluateIn loaded startedAt finishedAt = .error e ↔ c.FailsWith files baseDir e := by
  obtain ⟨hgenuine, -, hthere⟩ := (LoadedPolicies.genuine_empty files baseDir).foldlM hloaded
  obtain ⟨policy, hentry⟩ : ∃ policy, loaded[c.policy]? = some policy :=
    ⟨_, Std.TreeMap.getElem?_eq_some_getElem (hthere c hc)⟩
  have hpolicy := hgenuine c.policy policy hentry
  rw [evaluateIn, policyIn_eq_ok.2 hentry]
  constructor
  · intro h
    refine ⟨policy, hpolicy, fun s f => ?_⟩
    rw [c.evaluate_withTimes policy startedAt s finishedAt f, show c.evaluate .. = _ from h]
    rfl
  · rintro ⟨policy', hpolicy', h⟩
    rw [hpolicy] at hpolicy'
    obtain rfl := Except.ok.inj hpolicy'
    exact h startedAt finishedAt

theorem exists_failsWith_of_evaluateCases
    (hloaded : loadPolicies files baseDir cases = .ok loaded) {clock : Clock} {schedule : Schedule}
    (h : evaluateCases loaded clock schedule cases = .error e) :
    ∃ c ∈ cases, c.FailsWith files baseDir e := by
  obtain ⟨place, hplace, h⟩ := List.mem_mapIdx.1 (Schedule.mem_of_collect h)
  have hmem : cases[place] ∈ cases := List.getElem_mem hplace
  exact ⟨_, hmem, (ResolvedCase.evaluateIn_eq_error_iff hloaded hmem _ _).1 h⟩

theorem exists_evaluateCases_eq_error (hloaded : loadPolicies files baseDir cases = .ok loaded)
    (hc : c ∈ cases) (h : c.FailsWith files baseDir e) (clock : Clock) :
    ∃ schedule, evaluateCases loaded clock schedule cases = .error e := by
  obtain ⟨place, hplace, rfl⟩ := List.mem_iff_getElem.1 hc
  refine Schedule.exists_collect_eq_error (List.mem_mapIdx.2 ⟨place, hplace, ?_⟩)
  exact (ResolvedCase.evaluateIn_eq_error_iff hloaded hc _ _).2 h

theorem evaluateCases_agree (loaded : LoadedPolicies) (clock clock' : Clock) (schedule : Schedule)
    (cases : List ResolvedCase) :
    Except.Agree (List.Forall₂ CaseReport.Reproduces) (evaluateCases loaded clock schedule cases)
      (evaluateCases loaded clock' schedule cases) := by
  refine Schedule.collect_agree (.mapIdx (fun place c => ?_) cases) schedule
  exact .bind_left (c.policyIn loaded) fun policy => c.evaluate_agree policy _ _ _ _

/-- At any times and under any schedules, either all cases have reports that are the same up to
their times, or each time one of them fails by itself. -/
theorem evaluateCases_reproducible (hloaded : loadPolicies files baseDir cases = .ok loaded)
    (clock clock' : Clock) (schedule schedule' : Schedule) :
    (∃ reports reports', evaluateCases loaded clock schedule cases = .ok reports ∧
      evaluateCases loaded clock' schedule' cases = .ok reports' ∧
      List.Forall₂ CaseReport.Reproduces reports reports') ∨
    ∃ c ∈ cases, ∃ c' ∈ cases, ∃ e e', c.FailsWith files baseDir e ∧
      c'.FailsWith files baseDir e' ∧ evaluateCases loaded clock schedule cases = .error e ∧
      evaluateCases loaded clock' schedule' cases = .error e' := by
  have hboth : (∃ reports, evaluateCases loaded clock schedule cases = .ok reports) ↔
      ∃ reports, evaluateCases loaded clock' schedule' cases = .ok reports := by
    rw [evaluateCases_isOk_iff, evaluateCases_isOk_iff]
  cases h : evaluateCases loaded clock schedule cases with
  | ok reports =>
      have hother : evaluateCases loaded clock schedule' cases = .ok reports :=
        Schedule.collect_eq_ok_iff.2 (Schedule.collect_eq_ok_iff.1 h)
      have hagree := evaluateCases_agree loaded clock clock' schedule' cases
      rw [hother, Except.agree_iff] at hagree
      obtain ⟨e, he, -⟩ | ⟨_, reports', hreproduced, hreports, hreports'⟩ := hagree
      · cases he
      · obtain rfl := Except.ok.inj hreports
        exact .inl ⟨reports, reports', rfl, hreports', hreproduced⟩
  | error e =>
      cases h' : evaluateCases loaded clock' schedule' cases with
      | ok reports' =>
          obtain ⟨reports, hreports⟩ := hboth.2 ⟨reports', h'⟩
          cases h.symm.trans hreports
      | error e' =>
          obtain ⟨c, hc, hfails⟩ := exists_failsWith_of_evaluateCases hloaded h
          obtain ⟨c', hc', hfails'⟩ := exists_failsWith_of_evaluateCases hloaded h'
          exact .inr ⟨c, hc, c', hc', e, e', hfails, hfails', rfl, rfl⟩

end

/-! ## Runs -/

/-- A run comes to the evaluation of its cases, or it fails before that, at all times and under all
schedules with the same error. -/
theorem runCases_cases (files : FileTree) (input : RunInput) :
    (∃ e, ∀ clock schedule, runCases files clock input schedule = .error e) ∨
    ∃ resolved selected loaded, CaseFile.load input.caseFile input.overrides = .ok resolved ∧
      selectCases input.patterns resolved.cases = .ok selected ∧
      loadPolicies files input.baseDir selected = .ok loaded := by
  unfold runCases
  cases hresolved : CaseFile.load input.caseFile input.overrides with
  | error e => exact .inl ⟨e, fun _ _ => rfl⟩
  | ok resolved =>
      show (∃ e, ∀ clock schedule, (selectCases _ _ >>= _) = _) ∨ _
      cases hselected : selectCases input.patterns resolved.cases with
      | error e => exact .inl ⟨e, fun _ _ => rfl⟩
      | ok selected =>
          show (∃ e, ∀ clock schedule, (loadPolicies _ _ _ >>= _) = _) ∨ _
          cases hloaded : loadPolicies files input.baseDir selected with
          | error e => exact .inl ⟨e, fun _ _ => rfl⟩
          | ok loaded => exact .inr ⟨resolved, selected, loaded, rfl, hselected, hloaded⟩

theorem runCases_agree (files : FileTree) (input : RunInput) (clock clock' : Clock)
    (schedule : Schedule) :
    Except.Agree RunResult.Reproduces (runCases files clock input schedule)
      (runCases files clock' input schedule) := by
  refine .bind_left (CaseFile.load input.caseFile input.overrides) fun resolved => ?_
  refine .bind_left (selectCases input.patterns resolved.cases) fun cases => ?_
  refine .bind_left (loadPolicies files input.baseDir cases) fun loaded => ?_
  exact .bind (evaluateCases_agree loaded clock clock' schedule cases) fun _ _ h => .ok ⟨rfl, h⟩

/-- Two cases whose rule cannot be classified: the schedule settles which of them is told. -/
example :
    let files := FileTree.empty.add "p.nt" (some "<u:r> <u:p> <u:o> .")
    let input : RunInput :=
      { caseFile := "cases.a=[\"p.nt\",\"u:r\"]\ncases.b=[\"p.nt\",\"u:r\"]" }
    let failure (schedule : Schedule) : Option RunError :=
      match runCases files (fun _ => .epoch) input schedule with
      | .ok _ => none
      | .error e => some e
    failure .inOrder = some (.evaluate "a" "u:r" (.unclassifiedRule "u:r")) ∧
      failure (1 - ·) = some (.evaluate "b" "u:r" (.unclassifiedRule "u:r")) := by
  decide +kernel

/-- Where the policies of all cases that a run asks for can be loaded, each of these cases that
fails by itself can be the one whose error the run fails with. -/
theorem exists_schedule_of_failsWith {files : FileTree} {input : RunInput} {c : ResolvedCase}
    {e : RunError} (hpatterns : ∀ pattern ∈ input.patterns, Glob.parse? pattern ≠ none)
    (hpolicies : ∀ c, input.Asks c →
      ∃ policy, files.loadPolicy (Path.join input.baseDir c.policy) = .ok policy)
    (hasks : input.Asks c) (hfails : c.FailsWith files input.baseDir e) (clock : Clock) :
    ∃ schedule, runCases files clock input schedule = .error e := by
  obtain ⟨resolved, hresolved, hc, hselects⟩ := hasks
  obtain ⟨selected, hselected⟩ := (selectCases_isOk_iff _ _).2 ⟨hpatterns, .inr ⟨c, hc, hselects⟩⟩
  have hmem := RunInput.asks_iff_mem hresolved hselected
  obtain ⟨loaded, hloaded⟩ := (loadPolicies_isOk_iff files input.baseDir selected).2
    fun c hc => hpolicies c ((hmem c).2 hc)
  obtain ⟨schedule, hschedule⟩ := exists_evaluateCases_eq_error hloaded
    ((hmem c).1 ⟨resolved, hresolved, hc, hselects⟩) hfails clock
  refine ⟨schedule, ?_⟩
  rw [runCases_eq hresolved hselected hloaded, hschedule]
  rfl

end UsagePolicy
