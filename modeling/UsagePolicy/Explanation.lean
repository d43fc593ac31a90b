import UsagePolicy.Abort
import UsagePolicy.Text.Fold
import UsagePolicy.VerdictLabel
/-!
# Explanations

What each verdict label and abort code means, how an evaluation reaches it, and what to look at.
-/

namespace UsagePolicy

structure Explanation where
  title : String
  description : String
  guidance : String

namespace Explanation

def ofLabel : VerdictLabel → Explanation
  | .allowed =>
    ⟨"Permission allowed",
      "All gates of the permission passed and its duties were fulfilled, or it has no " ++
      "duties.",
      "Nothing to do; the permission may be exercised."⟩
  | .notAllowed =>
    ⟨"Permission not allowed",
      "All gates passed but at least one duty of the permission was not fulfilled.",
      "Inspect the first `Not-Fulfilled` duty in the trace; in round 2 check its " ++
      "consequences."⟩
  | .notViolated =>
    ⟨"Prohibition not violated",
      "The prohibited action was not exercised, or it was exercised and the remedies were " ++
      "fulfilled.",
      "Nothing to do."⟩
  | .violated =>
    ⟨"Prohibition violated",
      "The prohibited action was exercised and at least one remedy was not fulfilled.",
      "Inspect the remedy entries of the trace; a remedy without consequences is not " ++
      "fulfilled when its action was not exercised."⟩
  | .fulfilled =>
    ⟨"Duty fulfilled",
      "The duty's action was exercised, or (round 2) at least one consequence was fulfilled " ++
      "and none failed.",
      "Nothing to do."⟩
  | .notFulfilled =>
    ⟨"Duty not fulfilled",
      "The duty's action was not exercised and no consequence rescued it.",
      "Round 1 never evaluates consequences; run round 2 to include them."⟩
  | .notExisting =>
    ⟨"Not existing",
      "The node is semantically absent: no constraints were found, a duty's constraints or " ++
      "party refinements were not satisfied, or all consequences were not existing.",
      "Check the constraint and refinement presets of the node named in the trace."⟩
  | .error =>
    ⟨"Evaluation error",
      "A sub-evaluation failed: missing policy graph, missing `action` relation inside a " ++
      "duty, no oracle preset for a leaf, or a logical constraint listed among its own " ++
      "operands.",
      "Look for the `ERROR:` line in the trace; usually an instance or category preset is " ++
      "missing from the case file."⟩

def ofAbort : AbortReason → Explanation
  | .constraintsNotSatisfied =>
    ⟨"Rule constraints not satisfied",
      "The rule's own constraints evaluated to Not-Satisfied, so the rule does not apply.",
      "Check the presets for the rule's `constraint` nodes."⟩
  | .targetRefinementNotSatisfied =>
    ⟨"Target refinement not satisfied",
      "A refinement on the rule's target asset collection evaluated to Not-Satisfied.",
      "Check the `refinement` presets of the target."⟩
  | .assigneeRefinementNotSatisfied =>
    ⟨"Assignee refinement not satisfied",
      "A refinement on the rule's assignee party collection evaluated to Not-Satisfied.",
      "Check the `refinement` presets of the assignee."⟩
  | .actionRefinementNotSatisfied =>
    ⟨"Action refinement not satisfied",
      "A refinement on the permission's action evaluated to Not-Satisfied.",
      "Check the `refinement` presets of the action node."⟩
  | .missingAction =>
    ⟨"Missing action",
      "The rule has no `action` relation; the policy is invalid.",
      "Add an `odrl:action` to the rule."⟩
  | .actionNotExisting =>
    ⟨"Action not existing",
      "The prohibited action's refinements were not satisfied, so the action as described " ++
      "does not exist.",
      "Check the `refinement` presets of the prohibited action."⟩

/-- The text after one leading `aborted:`, or the whole text. -/
def withoutAborted (text : String) : String :=
  if "aborted:".toList.isPrefixOf text.toList then
    String.ofList (text.toList.drop "aborted:".toList.length)
  else text

/-- Looks an identifier up without regard to ASCII case, surrounding white space and a leading
`aborted:`. -/
def find? (identifier : String) : Option Explanation :=
  let id := withoutAborted (Text.fold (Text.trim identifier))
  match VerdictLabel.all.find? (Text.fold ·.name == id) with
  | some l => some (ofLabel l)
  | none => (AbortReason.all.find? (·.code == id)).map ofAbort

/-- The explanation under its underlined title. -/
def render (e : Explanation) : String :=
  let underline := String.ofList (List.replicate e.title.utf8ByteSize '=')
  s!"{e.title}\n{underline}\n\n{e.description}\n\nGuidance\n--------\n{e.guidance}\n"

def catalogue (heading : String) (ids : List String) : String :=
  s!"\nAvailable {heading}:\n" ++ String.join (ids.map fun id => s!"  - {id}\n")

/-- What is said about an identifier without explanation: all identifiers that have one. -/
def renderMissing (identifier : String) : String :=
  s!"Unknown verdict label or abort code: {identifier}\n" ++
    catalogue "verdict labels" (VerdictLabel.all.map VerdictLabel.name) ++
    catalogue "abort codes" (AbortReason.all.map AbortReason.code)

end Explanation

end UsagePolicy
