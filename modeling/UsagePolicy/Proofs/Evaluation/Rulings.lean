import UsagePolicy.Proofs.Evaluation.Verdicts
import UsagePolicy.Proofs.Text.Appending
import UsagePolicy.Proofs.Text.Labels
/-!
# Rulings told by traces

The trace of a rule begins with its kind and with the rule itself, and ends with the verdict. These
entries can be read in one way only, whatever the rule and the nodes are called, so the trace
determines the ruling.
-/

namespace UsagePolicy

/-! ## Entries and their texts -/

theorem TraceEntry.line_injective : Function.Injective TraceEntry.line := by
  rintro ⟨kind, message⟩ ⟨kind', message'⟩ h
  unfold TraceEntry.line at h
  dsimp only at h
  by_cases hkind : kind = kind'
  · subst hkind
    have hmessage : message = message' := (String.append_right_inj _).1 h
    rw [hmessage]
  · rw [String.append_assoc, String.append_assoc] at h
    exact absurd h (Text.append_ne_append (TraceKind.heading_incomparable hkind)
      (TraceKind.heading_incomparable (Ne.symm hkind)) _ _)

/-- The entry for the kind of a rule. -/
def kindEntry (source : String) (kind : RuleKind) : TraceEntry :=
  ⟨.result, s!"{source} sub-class = {kind.name}"⟩

/-- The entry with which the evaluation of a rule begins. -/
def openingEntry (kind : RuleKind) (round : Round) (rule : String) : TraceEntry :=
  match kind with
  | .permission => ⟨.nextStep, s!"Evaluation of Permission instance '{rule}'"⟩
  | .prohibition => ⟨.nextStep, s!"Evaluation of Prohibition instance '{rule}'"⟩
  | .obligation => ⟨.nextStep, s!"Evaluation of Obligation instance '{rule}' (round {round.name})"⟩

/-- The entry with which the evaluation of a rule ends. -/
def concludingEntry (kind : RuleKind) (rule : String) : Verdict → TraceEntry
  | .decided outcome =>
    let status := kind.facet.label outcome
    ⟨.result, s!"Evaluation of the full {kind.title} instance '{rule}', status = {status}"⟩
  | .aborted abort =>
    ⟨.result, s!"Evaluation of the {kind.title} instance '{rule}' aborted: " ++
      s!"{abort.reason.code} at '{abort.subject}'"⟩

theorem kind_of_kindEntry {source source' : String} {kind kind' : RuleKind}
    (hs : source ∈ ["given", "inferred"]) (hs' : source' ∈ ["given", "inferred"])
    (h : kindEntry source kind = kindEntry source' kind') : kind = kind' := by
  have hall : ∀ s ∈ ["given", "inferred"], ∀ s' ∈ ["given", "inferred"],
      ∀ k ∈ RuleKind.all, ∀ k' ∈ RuleKind.all, kindEntry s k = kindEntry s' k' → k = k' := by
    decide
  have hmem : ∀ k : RuleKind, k ∈ RuleKind.all := by
    intro k
    cases k <;> decide
  exact hall source hs source' hs' kind (hmem kind) kind' (hmem kind') h

theorem rule_of_openingEntry {kind : RuleKind} {round round' : Round} {rule rule' : String}
    (h : openingEntry kind round rule = openingEntry kind round' rule') : rule = rule' := by
  have hmessage := congrArg TraceEntry.message h
  cases kind with
  | permission => exact (String.append_right_inj _).1 ((String.append_left_inj _).1 hmessage)
  | prohibition => exact (String.append_right_inj _).1 ((String.append_left_inj _).1 hmessage)
  | obligation =>
      have hround : round.name.toList.length = round'.name.toList.length := by
        cases round <;> cases round' <;> decide
      have hrest := (String.append_left_inj _).1 hmessage
      have hrule := (String.append_left_inj _).1 (Text.append_inj_of_length hrest hround).1
      exact (String.append_right_inj _).1 hrule

theorem verdict_of_concludingEntry {kind : RuleKind} {rule : String} {verdict verdict' : Verdict}
    (h : concludingEntry kind rule verdict = concludingEntry kind rule verdict') :
    verdict = verdict' := by
  have hmessage := congrArg TraceEntry.message h
  have hne : ∀ x y : String, "Evaluation of the full " ++ x ≠
      "Evaluation of the " ++ kind.title ++ y := by
    cases kind <;> exact Text.append_ne_append (by decide) (by decide)
  cases verdict with
  | decided outcome =>
      cases verdict' with
      | decided outcome' =>
          have hlabel := (String.append_right_inj _).1 hmessage
          rw [kind.facet.label_injective hlabel]
      | aborted abort =>
          simp only [concludingEntry, String.append_assoc] at hmessage hne
          exact absurd hmessage (hne _ _)
  | aborted abort =>
      cases verdict' with
      | decided outcome =>
          simp only [concludingEntry, String.append_assoc] at hmessage hne
          exact absurd hmessage.symm (hne _ _)
      | aborted abort' =>
          -- what follows the rule begins with the code, and a code has no blank
          have hrest := (String.append_left_inj _).1 ((String.append_right_inj _).1 hmessage)
          rw [String.append_assoc, String.append_assoc] at hrest
          have hblank : ∀ x : String, (" at '" ++ x).toList.head? = some ' ' := by simp
          obtain ⟨hcode, hsubject⟩ := Text.append_inj_of_mark abort.reason.blank_not_mem_code
            abort'.reason.blank_not_mem_code (hblank _) (hblank _) hrest
          have habort : abort = abort' := by
            cases abort
            cases abort'
            rw [Abort.mk.injEq]
            exact ⟨AbortReason.code_injective hcode, (String.append_right_inj _).1 hsubject⟩
          rw [habort]

/-! ## Traces -/

/-- Faults that keep a rule from being evaluated. -/
def EvaluationFault.Refuses (fault : EvaluationFault) : Prop :=
  fault = .missingGraph ∨ ∃ rule, fault = .unclassifiedRule rule

theorem EvaluationFault.Refuses.eq_of_message {fault fault' : EvaluationFault}
    (h : fault.Refuses) (h' : fault'.Refuses) (hm : fault.message = fault'.message) :
    fault = fault' := by
  have hne : ∀ rule, missingGraph.message ≠ (unclassifiedRule rule).message := by
    intro rule hm
    have hm : "no policy graph supplied" = "rule '" ++ rule ++ _ := hm
    have hhead := congrArg (fun text => text.toList.head?) hm
    simp at hhead
  rcases h with rfl | ⟨rule, rfl⟩
  · rcases h' with rfl | ⟨rule', rfl⟩
    · rfl
    · exact absurd hm (hne rule')
  · rcases h' with rfl | ⟨rule', rfl⟩
    · exact absurd hm.symm (hne rule)
    · have hrule : rule = rule' :=
        (String.append_right_inj _).1 ((String.append_left_inj _).1 hm)
      rw [hrule]

/-- How a trace tells what the evaluation of a rule came to. -/
inductive Trace.Reports : List TraceEntry → Except EvaluationFault Ruling → Prop
  | refused {fault : EvaluationFault} (h : fault.Refuses) :
      Reports [⟨.error, fault.message⟩] (.error fault)
  | ruled {source : String} (h : source ∈ ["given", "inferred"]) (kind : RuleKind) (round : Round)
      (rule : String) (between : List TraceEntry) (verdict : Verdict) :
      Reports
        (kindEntry source kind :: openingEntry kind round rule ::
          (between ++ [concludingEntry kind rule verdict]))
        (.ok ⟨kind, verdict⟩)

/-- A trace reports one thing at most. -/
theorem Trace.Reports.unique {trace : List TraceEntry}
    {answer answer' : Except EvaluationFault Ruling} (h : Reports trace answer)
    (h' : Reports trace answer') : answer = answer' := by
  generalize htrace : trace = trace' at h'
  cases h with
  | refused hrefuses =>
      cases h' with
      | refused hrefuses' =>
          have hentry := List.head_eq_of_cons_eq htrace
          rw [hrefuses.eq_of_message hrefuses' (congrArg TraceEntry.message hentry)]
      | ruled => exact absurd (congrArg List.length htrace) (by simp)
  | ruled hsource kind round rule between verdict =>
      cases h' with
      | refused => exact absurd (congrArg List.length htrace) (by simp)
      | ruled hsource' kind' round' rule' between' verdict' =>
          rw [List.cons.injEq, List.cons.injEq] at htrace
          obtain ⟨hkind, hopening, hrest⟩ := htrace
          obtain rfl := kind_of_kindEntry hsource hsource' hkind
          obtain rfl := rule_of_openingEntry hopening
          have hlast := List.append_inj' hrest rfl
          rw [verdict_of_concludingEntry (List.head_eq_of_cons_eq hlast.2)]

namespace Evaluator

variable {α : Type} {e : Evaluator}

theorem trace_conclude (e : Evaluator) (kind : RuleKind) (rule : String) (verdict : Verdict) :
    (e.fresh (conclude kind rule verdict)).trace = [concludingEntry kind rule verdict] := by
  cases verdict <;> rfl

/-- Between its opening and its conclusion, an evaluation comes to the verdict that it concludes. -/
theorem trace_concluded {x : Evaluation α} (hx : e.Settled x) (opening : TraceEntry)
    (kind : RuleKind) (rule : String) (verdict : α → Verdict) :
    let y := do
      Evaluation.record opening.kind opening.message
      conclude kind rule (verdict (← x))
    ∃ between, (e.fresh y).trace =
      opening :: (between ++ [concludingEntry kind rule (e.fresh y).value]) := by
  intro y
  have hconclude := fun a => e.comesTo_conclude kind rule (verdict a)
  have hy : e.fresh y = (do
      Traced.record opening.kind opening.message
      let a ← e.fresh x
      e.fresh (conclude kind rule (verdict a))) :=
    fresh_eq ((Evaluation.Settles.record _ _).bind fun _ => hx.bind fun a => (hconclude a).settled)
  refine ⟨(e.fresh x).trace, ?_⟩
  rw [hy]
  simp only [Traced.trace_bind, Traced.value_bind, trace_conclude, (hconclude _).value_eq]
  rfl

theorem trace_rule (e : Evaluator) (kind : RuleKind) (rule : String) :
    ∃ between, (e.fresh (e.rule kind rule)).trace =
      openingEntry kind e.round rule ::
        (between ++ [concludingEntry kind rule (e.fresh (e.rule kind rule)).value]) := by
  cases kind with
  | permission =>
      have hgates := settled_behindGates rule (e.settled_permissionAction rule)
      exact trace_concluded hgates (openingEntry .permission e.round rule) _ rule id
  | prohibition =>
      have hgates := settled_behindGates rule (e.settled_prohibitionAction rule)
      exact trace_concluded hgates (openingEntry .prohibition e.round rule) _ rule id
  | obligation =>
      have hduty := e.settled_duty .obligation e.round.evaluatesConsequences rule
      exact trace_concluded hduty (openingEntry .obligation e.round rule) _ rule .decided

theorem reports_ruling {source : String} (hsource : source ∈ ["given", "inferred"])
    (kind : RuleKind) (rule : String) :
    Trace.Reports (e.fresh (e.ruling source kind rule)).trace
      (e.fresh (e.ruling source kind rule)).value := by
  let answer (verdict : Verdict) : Except EvaluationFault Ruling := .ok ⟨kind, verdict⟩
  let entry := kindEntry source kind
  have hruling : e.fresh (e.ruling source kind rule) = (do
      Traced.record entry.kind entry.message
      answer <$> e.fresh (e.rule kind rule)) :=
    fresh_eq ((Evaluation.Settles.record _ _).bind fun _ => (e.settled_rule kind rule).map answer)
  obtain ⟨between, hbetween⟩ := e.trace_rule kind rule
  rw [hruling, Traced.trace_bind]
  show Trace.Reports (entry :: (e.fresh (e.rule kind rule)).trace) _
  rw [hbetween]
  exact .ruled hsource kind e.round rule between _

end Evaluator

/-- The trace of a rule's evaluation reports what it came to. -/
theorem reports_evaluateRule (graph : Option Graph) (oracle : Oracle) (round : Round)
    (rule : String) (kind : Option RuleKind) :
    Trace.Reports (evaluateRule graph oracle round rule kind).trace
      (evaluateRule graph oracle round rule kind).value := by
  cases graph with
  | none => exact .refused (.inl rfl)
  | some graph =>
      let e : Evaluator := ⟨graph, oracle, round⟩
      show Trace.Reports (e.fresh (e.classifiedRule rule kind)).trace
        (e.fresh (e.classifiedRule rule kind)).value
      unfold Evaluator.classifiedRule
      split
      · exact Evaluator.reports_ruling List.mem_cons_self _ rule
      · exact Evaluator.reports_ruling (List.mem_cons_of_mem _ List.mem_cons_self) _ rule
      · exact .refused (.inr ⟨rule, rfl⟩)

/-- Evaluations that leave the same lines behind come to the same: to the same ruling, or to the
same fault. -/
theorem evaluateRule_told_by_lines (graph graph' : Option Graph) (oracle oracle' : Oracle)
    (round round' : Round) (rule rule' : String) (kind kind' : Option RuleKind)
    (h : (evaluateRule graph oracle round rule kind).lines =
      (evaluateRule graph' oracle' round' rule' kind').lines) :
    (evaluateRule graph oracle round rule kind).value =
      (evaluateRule graph' oracle' round' rule' kind').value := by
  have htrace := TraceEntry.line_injective.list_map h
  have hreports := reports_evaluateRule graph oracle round rule kind
  rw [htrace] at hreports
  exact hreports.unique (reports_evaluateRule graph' oracle' round' rule' kind')

/-- A rule without an action, whose name reads like an end of its own evaluation. -/
theorem evaluateRule_told_by_lines_quotedName :
    let rule := "urn:p', status = Allowed"
    let g : Graph := .ofList [⟨"urn:q", Vocabulary.action, "urn:use"⟩]
    let t := evaluateRule (some .empty) Presets.empty.oracle .first rule (some .permission)
    let t' := evaluateRule (some g) (Presets.uniform .positive).oracle .second rule
      (some .permission)
    t.lines = t'.lines ∧ t.value = t'.value ∧
      t.value = .ok ⟨.permission, .aborted ⟨.missingAction, rule⟩⟩ := by
  intro rule g t t'
  have hlines : t.lines = t'.lines := by decide +kernel
  exact ⟨hlines, evaluateRule_told_by_lines _ _ _ _ _ _ _ _ _ _ hlines, rfl⟩

end UsagePolicy
