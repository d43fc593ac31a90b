import UsagePolicy.Expectation
import UsagePolicy.Proofs.Text.Labels
/-!
# Expectations and verdicts

An expectation is written in one way, and read from all texts that are the same up to case and
surrounding white space. The label of a verdict is what is written for one expectation. This one is
met by the verdict, and so is a bare `aborted` by each abort, and no other.
-/

namespace UsagePolicy

/-! ## Reading what is written -/

namespace Expectation

theorem fold_text_aborted (reason : AbortReason) :
    Text.fold (aborted (some reason)).text = "aborted:" ++ reason.code := by
  cases reason <;> decide

theorem trim_text (e : Expectation) : Text.trim e.text = e.text := by
  cases e with
  | state label => cases label <;> decide
  | aborted reason =>
      cases reason with
      | none => decide
      | some reason => cases reason <;> decide

theorem parse_of_fold {text : String} {e : Expectation}
    (h : Text.fold (Text.trim text) = Text.fold e.text) : parse text = .ok e := by
  unfold parse
  dsimp only
  cases e with
  | state label =>
      have hbare : Text.fold label.name ≠ "aborted" := by cases label <;> decide
      have hname := VerdictLabel.ofName?_eq_some_iff.2 h
      rw [show Text.fold (Text.trim text) = Text.fold label.name from h, if_neg hbare,
        label.not_aborted_isPrefixOf, if_neg Bool.false_ne_true, hname]
  | aborted reason =>
      cases reason with
      | none => exact if_pos h
      | some reason =>
          rw [h]
          cases reason <;> rfl

/-- A text is read as the expectation that it spells, up to case and surrounding white space. -/
theorem parse_eq_ok_iff {text : String} {e : Expectation} :
    parse text = .ok e ↔ Text.fold (Text.trim text) = Text.fold e.text := by
  refine ⟨fun h => ?_, parse_of_fold⟩
  unfold parse at h
  dsimp only at h
  split at h
  · next hbare =>
    obtain rfl := Except.ok.inj h
    exact hbare
  split at h
  · next hmark =>
    obtain ⟨code, hcode, hdrop⟩ := Text.exists_of_isPrefixOf hmark
    rw [hdrop] at h
    split at h
    · next reason hread =>
      obtain rfl := Except.ok.inj h
      rw [hcode, AbortReason.ofCode_eq_ok_iff.1 hread, fold_text_aborted]
    · cases h
  · split at h
    · next label hread =>
      obtain rfl := Except.ok.inj h
      exact VerdictLabel.ofName?_eq_some_iff.1 hread
    · cases h

theorem parse_text (e : Expectation) : parse e.text = .ok e :=
  parse_of_fold (by rw [trim_text])

theorem text_injective : Function.Injective text := by
  intro e e' h
  have hread := e.parse_text
  rw [h, parse_text] at hread
  exact (Except.ok.inj hread).symm

end Expectation

/-! ## The expectation of a verdict -/

/-- What a decided rule is called. -/
def RuleKind.verdictLabel : RuleKind → Outcome → VerdictLabel
  | permission, .positive => .allowed
  | permission, .negative => .notAllowed
  | prohibition, .positive => .notViolated
  | prohibition, .negative => .violated
  | obligation, .positive => .fulfilled
  | obligation, .negative => .notFulfilled
  | _, .notExisting => .notExisting
  | _, .error => .error

theorem RuleKind.name_verdictLabel (kind : RuleKind) (o : Outcome) :
    (kind.verdictLabel o).name = kind.facet.label o := by
  cases kind <;> cases o <;> rfl

namespace Ruling

/-- The expectation that only verdicts like this one meet. -/
def expectation (r : Ruling) : Expectation :=
  match r.verdict with
  | .decided o => .state (r.kind.verdictLabel o)
  | .aborted a => .aborted (some a.reason)

theorem text_expectation (r : Ruling) : r.expectation.text = r.report.label := by
  obtain ⟨kind, o | a⟩ := r
  · exact kind.name_verdictLabel o
  · rfl

/-- A verdict meets its own expectation, and a bare `aborted` if it is an abort. -/
theorem isMetBy_report_iff (r : Ruling) (e : Expectation) :
    e.isMetBy r.report = true ↔
      e = r.expectation ∨ e = .aborted none ∧ r.report.status = .aborted := by
  obtain ⟨kind, o | a⟩ := r
  · have hstatus : (⟨kind, .decided o⟩ : Ruling).report.status ≠ .aborted := nofun
    cases e with
    | state label =>
        have hsame : Expectation.isMetBy (.state label) (⟨kind, .decided o⟩ : Ruling).report =
            Text.sameFolded (kind.facet.label o) label.name := rfl
        rw [hsame, ← kind.name_verdictLabel, Text.sameFolded_iff,
          VerdictLabel.fold_name_injective.eq_iff, or_iff_left (fun h => hstatus h.2)]
        exact ⟨fun h => congrArg _ h.symm, fun h => (Expectation.state.inj h).symm⟩
    | aborted reason =>
        have hnot : Expectation.isMetBy (.aborted reason) (⟨kind, .decided o⟩ : Ruling).report =
            false := by cases reason <;> rfl
        rw [hnot, or_iff_left (fun h => hstatus h.2)]
        exact iff_of_false Bool.false_ne_true nofun
  · cases e with
    | state label =>
        refine iff_of_false Bool.false_ne_true ?_
        rintro (h | ⟨h, -⟩) <;> cases h
    | aborted reason =>
        cases reason with
        | none => exact iff_of_true rfl (.inr ⟨rfl, rfl⟩)
        | some reason =>
            have hmet : Expectation.isMetBy (.aborted (some reason))
                (⟨kind, .aborted a⟩ : Ruling).report = (a.reason == reason) := rfl
            rw [hmet, beq_iff_eq]
            constructor
            · rintro rfl
              exact .inl rfl
            · rintro (h | ⟨h, -⟩) <;> cases h
              rfl

end Ruling

/-- An expectation that was read is read again from what is written for it, and a verdict meets it
if what is written is the verdict's label, or if it is a bare `aborted` and the verdict an abort.
Every label of a verdict is read, in letters of any case and between any white space, and the
verdict meets what is read. -/
theorem Expectation.met_by_label :
    (∀ (text : String) (e : Expectation), parse text = .ok e →
      parse e.text = .ok e ∧
      ∀ r : Ruling, e.isMetBy r.report = true ↔
        e.text = r.report.label ∨ e = .aborted none ∧ r.report.status = .aborted) ∧
    ∀ (r : Ruling) (before label after : String), Text.isBlankText before = true →
      Text.isBlankText after = true → Text.sameFolded label r.report.label = true →
      ∃ e, parse (before ++ label ++ after) = .ok e ∧ e.isMetBy r.report = true := by
  constructor
  · intro text e _
    refine ⟨e.parse_text, fun r => ?_⟩
    rw [r.isMetBy_report_iff, ← r.text_expectation, text_injective.eq_iff]
  · intro r before label after hbefore hafter hlabel
    refine ⟨r.expectation, ?_, (r.isMetBy_report_iff _).2 (.inl rfl)⟩
    have hfold : Text.fold label = Text.fold r.expectation.text := by
      rw [Text.sameFolded_iff.1 hlabel, r.text_expectation]
    rw [parse_eq_ok_iff, Text.trim_append hbefore hafter, ← Text.trim_fold, hfold, Text.trim_fold,
      trim_text]

/-- An abort, expected in capitals behind a non-breaking space, with its reason and without. -/
theorem Expectation.met_by_label_capitals :
    let r : Ruling := ⟨.permission, .aborted ⟨.missingAction, "urn:p"⟩⟩
    parse "\u00a0ABORTED\n" = .ok (.aborted none) ∧
      (Expectation.aborted none).isMetBy r.report = true ∧
      ∃ e, parse ("\u00a0" ++ "ABORTED:Missing_Action" ++ "\n") = .ok e ∧
        e.isMetBy r.report = true := by
  intro r
  have hbare : parse "\u00a0ABORTED\n" = .ok (.aborted none) := by decide
  have hmet := ((met_by_label.1 _ _ hbare).2 r).2 (.inr ⟨rfl, rfl⟩)
  have hlabel := met_by_label.2 r "\u00a0" "ABORTED:Missing_Action" "\n" (by decide) (by decide)
    (by decide)
  exact ⟨hbare, hmet, hlabel⟩

end UsagePolicy
