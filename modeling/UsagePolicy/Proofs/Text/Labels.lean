import UsagePolicy.Abort
import UsagePolicy.Oracle
import UsagePolicy.Proofs.Text.Folding
import UsagePolicy.Trace
import UsagePolicy.VerdictLabel
/-!
# Labels in texts

Labels and codes are read back from what is written of them, so no two of them are written alike.
None contains the mark that stands beside it in a message. Verdict labels differ also up to the case
of their letters.
-/

namespace UsagePolicy

theorem Facet.label_injective (f : Facet) : Function.Injective f.label := by
  intro o o' h
  have hread := f.outcome?_label o
  rw [h, f.outcome?_label] at hread
  exact (Option.some.inj hread).symm

theorem Facet.blank_not_mem_label (f : Facet) (o : Outcome) : ' ' ∉ (f.label o).toList := by
  cases f <;> cases o <;> decide

theorem AbortReason.code_injective : Function.Injective AbortReason.code := by
  intro r r' h
  have hread := ofCode_code r
  rw [h, ofCode_code] at hread
  exact (Except.ok.inj hread).symm

theorem AbortReason.ofCode_eq_ok_iff {text : String} {r : AbortReason} :
    ofCode text = .ok r ↔ text = r.code := by
  constructor
  · intro h
    unfold ofCode at h
    split at h
    · next hfind =>
      obtain rfl := Except.ok.inj h
      have hcode := List.find?_some hfind
      exact (beq_iff_eq.1 hcode).symm
    · cases h
  · rintro rfl
    exact ofCode_code r

theorem AbortReason.blank_not_mem_code (r : AbortReason) : ' ' ∉ r.code.toList := by
  cases r <;> decide

theorem VerdictLabel.ofName?_eq_some_iff {text : String} {label : VerdictLabel} :
    ofName? text = some label ↔ Text.fold text = Text.fold label.name := by
  constructor
  · intro h
    have hname := List.find?_some h
    exact (Text.sameFolded_iff.1 hname).symm
  · intro h
    have hsame : ofName? text = ofName? label.name := by
      unfold ofName? Text.sameFolded
      rw [h]
    rw [hsame, ofName?_name]

theorem VerdictLabel.fold_name_injective :
    Function.Injective fun label : VerdictLabel => Text.fold label.name := by
  intro label label' h
  have hread := ofName?_eq_some_iff.2 h
  rw [ofName?_name] at hread
  exact Option.some.inj hread

theorem VerdictLabel.not_aborted_isPrefixOf (label : VerdictLabel) :
    "aborted:".toList.isPrefixOf (Text.fold label.name).toList = false := by
  cases label <;> decide

theorem AnswerSource.paren_not_mem_text (s : AnswerSource) : '(' ∉ (s.text ++ ")").toList := by
  cases s with
  | preset => decide
  | default c => cases c <;> decide

theorem TraceKind.heading_incomparable {kind kind' : TraceKind} (h : kind ≠ kind') :
    ¬ kind.heading.toList <+: kind'.heading.toList := by
  revert h
  cases kind <;> cases kind' <;> decide

end UsagePolicy
