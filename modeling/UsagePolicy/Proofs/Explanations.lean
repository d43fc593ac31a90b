import UsagePolicy.CommandLine.Plan
import UsagePolicy.Proofs.Expectations
/-!
# Identifiers with an explanation

A verdict label has an explanation, and so has the code of an abort, with `aborted:` before it or
without. So every verdict is explained under its label. Since `aborted:` is left out before it is
clear what follows, a verdict label behind it has an explanation too.
-/

namespace UsagePolicy

namespace Explanation

/-- A verdict label, or the code of an abort with or without `aborted:` before it, up to ASCII case
and surrounding white space. -/
def IsRegistered (identifier : String) : Prop :=
  let id := Text.fold (Text.trim identifier)
  (∃ label ∈ VerdictLabel.all, id = Text.fold label.name) ∨
    ∃ reason ∈ AbortReason.all, id = reason.code ∨ id = "aborted:" ++ reason.code

/-- A verdict label with `aborted:` before it. -/
def IsPrefixedLabel (identifier : String) : Prop :=
  ∃ label ∈ VerdictLabel.all,
    Text.fold (Text.trim identifier) = "aborted:" ++ Text.fold label.name

/-! ## Looking up -/

theorem withoutAborted_eq_iff {id name : String}
    (hname : "aborted:".toList.isPrefixOf name.toList = false) :
    withoutAborted id = name ↔ id = name ∨ id = "aborted:" ++ name := by
  unfold withoutAborted
  split
  · next hmark =>
    obtain ⟨rest, hrest, hdrop⟩ := Text.exists_of_isPrefixOf hmark
    have hid : id ≠ name := by
      rintro rfl
      rw [hmark] at hname
      cases hname
    rw [hdrop, or_iff_right hid, hrest, String.append_right_inj]
  · next hmark =>
    refine (or_iff_left ?_).symm
    rintro rfl
    rw [String.toList_append] at hmark
    exact hmark (List.isPrefixOf_iff_prefix.2 (List.prefix_append _ _))

theorem not_aborted_isPrefixOf_code (reason : AbortReason) :
    "aborted:".toList.isPrefixOf reason.code.toList = false := by
  cases reason <;> decide

theorem find?_of_label {identifier : String} {label : VerdictLabel}
    (h : withoutAborted (Text.fold (Text.trim identifier)) = Text.fold label.name) :
    find? identifier = some (ofLabel label) := by
  unfold find?
  dsimp only
  rw [h]
  cases label <;> rfl

theorem find?_of_code {identifier : String} {reason : AbortReason}
    (h : withoutAborted (Text.fold (Text.trim identifier)) = reason.code) :
    find? identifier = some (ofAbort reason) := by
  unfold find?
  dsimp only
  rw [h]
  cases reason <;> rfl

theorem find?_isSome_iff {identifier : String} :
    (find? identifier).isSome = true ↔
      (∃ label : VerdictLabel,
        withoutAborted (Text.fold (Text.trim identifier)) = Text.fold label.name) ∨
      ∃ reason : AbortReason,
        withoutAborted (Text.fold (Text.trim identifier)) = reason.code := by
  constructor
  · intro h
    unfold find? at h
    dsimp only at h
    split at h
    · next label hfind =>
      have hlabel := List.find?_some hfind
      exact .inl ⟨label, (beq_iff_eq.1 hlabel).symm⟩
    · rw [Option.isSome_map, List.find?_isSome] at h
      obtain ⟨reason, -, hcode⟩ := h
      exact .inr ⟨reason, (beq_iff_eq.1 hcode).symm⟩
  · rintro (⟨label, h⟩ | ⟨reason, h⟩)
    · rw [find?_of_label h, Option.isSome_some]
    · rw [find?_of_code h, Option.isSome_some]

theorem find?_isSome_iff_registered {identifier : String} :
    (find? identifier).isSome = true ↔ IsRegistered identifier ∨ IsPrefixedLabel identifier := by
  have hlabel : ∀ label : VerdictLabel, label ∈ VerdictLabel.all ↔ True := fun label =>
    iff_true_intro label.mem_all
  have hreason : ∀ reason : AbortReason, reason ∈ AbortReason.all ↔ True := fun reason =>
    iff_true_intro reason.mem_all
  simp only [find?_isSome_iff, withoutAborted_eq_iff (VerdictLabel.not_aborted_isPrefixOf _),
    withoutAborted_eq_iff (not_aborted_isPrefixOf_code _), exists_or, IsRegistered,
    IsPrefixedLabel, hlabel, hreason, true_and]
  exact or_right_comm

/-- No verdict label behind `aborted:` is registered. -/
theorem IsPrefixedLabel.not_isRegistered {identifier : String} (h : IsPrefixedLabel identifier) :
    ¬IsRegistered identifier := by
  obtain ⟨label, -, hid⟩ := h
  have hmark : "aborted:".toList.isPrefixOf
      (Text.fold (Text.trim identifier)).toList = true := by
    rw [hid, String.toList_append]
    exact List.isPrefixOf_iff_prefix.2 (List.prefix_append _ _)
  rintro (⟨label', -, hlabel⟩ | ⟨reason, -, hcode | hcode⟩)
  · rw [hlabel, label'.not_aborted_isPrefixOf] at hmark
    cases hmark
  · rw [hcode, not_aborted_isPrefixOf_code] at hmark
    cases hmark
  · rw [hid, String.append_right_inj] at hcode
    revert hcode
    cases label <;> cases reason <;> decide

end Explanation

theorem Ruling.isRegistered_label (r : Ruling) : Explanation.IsRegistered r.report.label := by
  rw [← r.text_expectation, Explanation.IsRegistered, Expectation.trim_text]
  obtain ⟨kind, o | a⟩ := r
  · exact .inl ⟨kind.verdictLabel o, VerdictLabel.mem_all _, rfl⟩
  · exact .inr ⟨a.reason, a.reason.mem_all, .inr (Expectation.fold_text_aborted _)⟩

namespace CommandLine

theorem parse_explain (identifier : String) :
    Invocation.parse ["explain", "--", identifier] =
      .ok ⟨"odrl-eval.toml", {}, .explain identifier⟩ := by
  simp [Invocation.parse, readArguments, commandRules?, command?, common?, Found.values,
    Found.value?, bind, Except.bind, pure, Except.pure]

theorem perform_say (completion : Completion) (files : FileTree) :
    (Plan.say completion).perform files = (completion, files) :=
  rfl

theorem exitCode_explain {arguments : List String} {i : Invocation} {identifier : String}
    (harguments : Invocation.parse arguments = .ok i) (hcommand : i.command = .explain identifier)
    (files : FileTree) (clock : Clock) :
    ((plan files clock arguments).perform files).1.exitCode = 0 ↔
      (Explanation.find? identifier).isSome = true := by
  have hplan : plan files clock arguments = planExplain identifier := by
    unfold plan
    rw [harguments]
    dsimp only
    unfold Invocation.plan
    rw [hcommand]
  rw [hplan]
  unfold planExplain
  cases Explanation.find? identifier with
  | some e =>
      dsimp only
      rw [perform_say]
      exact iff_of_true rfl rfl
  | none =>
      dsimp only
      rw [perform_say]
      exact iff_of_false Nat.one_ne_zero Bool.false_ne_true

end CommandLine

open CommandLine in
/-- An identifier has an explanation if it is registered, or if it is a verdict label behind
`aborted:`, which is not registered. The command that explains it exits with 0 in these cases only.
Every verdict is reported under a label that is registered. -/
theorem Explanation.explained_iff (identifier : String) :
    ((find? identifier).isSome = true ↔ IsRegistered identifier ∨ IsPrefixedLabel identifier) ∧
    ¬(IsRegistered identifier ∧ IsPrefixedLabel identifier) ∧
    (∃ arguments i, Invocation.parse arguments = .ok i ∧ i.command = .explain identifier) ∧
    (∀ arguments i, Invocation.parse arguments = .ok i → i.command = .explain identifier →
      ∀ files clock, ((plan files clock arguments).perform files).1.exitCode = 0 ↔
        IsRegistered identifier ∨ IsPrefixedLabel identifier) ∧
    ∀ r : Ruling, r.report.label = identifier → IsRegistered identifier := by
  refine ⟨find?_isSome_iff_registered, ?_, ⟨_, _, parse_explain identifier, rfl⟩, ?_, ?_⟩
  · rintro ⟨hregistered, hprefixed⟩
    exact hprefixed.not_isRegistered hregistered
  · intro arguments i harguments hcommand files clock
    rw [exitCode_explain harguments hcommand, find?_isSome_iff_registered]
  · rintro r rfl
    exact r.isRegistered_label

open CommandLine in
/-- An abort in capitals is explained, and one whose words are joined by hyphens is not. -/
theorem Explanation.explained_iff_capitals :
    let exitCode identifier :=
      ((plan .empty (fun _ => .epoch) ["explain", "--", identifier]).perform .empty).1.exitCode
    exitCode "\u00a0ABORTED:Missing_Action " = 0 ∧ exitCode "aborted:missing-action" ≠ 0 := by
  intro exitCode
  have hexit : ∀ identifier, exitCode identifier = 0 ↔
      IsRegistered identifier ∨ IsPrefixedLabel identifier := by
    intro identifier
    obtain ⟨-, -, -, hcommand, -⟩ := explained_iff identifier
    exact hcommand _ _ (parse_explain identifier) rfl .empty fun _ => .epoch
  rw [Ne, hexit, hexit]
  unfold IsRegistered IsPrefixedLabel
  decide

/-- A verdict label behind `aborted:` is no identifier of anything, and has an explanation. -/
theorem Explanation.explained_prefixedLabel :
    ¬ IsRegistered "aborted:allowed" ∧ (find? "aborted:allowed").isSome = true := by
  unfold IsRegistered
  decide

end UsagePolicy
