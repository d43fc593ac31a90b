import UsagePolicy.Abort
import UsagePolicy.Text.Fold
import UsagePolicy.Verdict
import UsagePolicy.VerdictLabel
/-!
# Expectations

The verdict that a case is expected to end in: a state by its label, or an abort, with or without
its reason.
-/

namespace UsagePolicy

inductive Expectation
  | state (label : VerdictLabel)
  | aborted (reason : Option AbortReason)
  deriving DecidableEq

/-- Why a text is not an expectation. -/
inductive ExpectationFault
  | reason (text : String) (fault : UnknownLabel)
  | unknown (text : String)
  deriving DecidableEq

def ExpectationFault.message : ExpectationFault → String
  | reason text fault => s!"invalid expectation: {text}: {fault.message}"
  | unknown text =>
    s!"invalid expectation: {text} (expected a verdict label or aborted[:code])"

namespace Expectation

/-- Reads an expectation without regard to ASCII case and surrounding white space. -/
def parse (text : String) : Except ExpectationFault Expectation :=
  let trimmed := Text.trim text
  let folded := Text.fold trimmed
  if folded = "aborted" then .ok (aborted none)
  else if "aborted:".toList.isPrefixOf folded.toList then
    match AbortReason.ofCode (String.ofList (folded.toList.drop "aborted:".toList.length)) with
    | .ok reason => .ok (aborted (some reason))
    | .error fault => .error (.reason trimmed fault)
  else
    match VerdictLabel.ofName? trimmed with
    | some label => .ok (state label)
    | none => .error (.unknown trimmed)

def text : Expectation → String
  | state label => label.name
  | aborted none => "aborted"
  | aborted (some reason) => s!"aborted:{reason.code}"

/-- Whether a reported verdict is the expected one. -/
def isMetBy (e : Expectation) (v : VerdictReport) : Bool :=
  match e, v.status with
  | state label, .decided => v.state.any (Text.sameFolded · label.name)
  | aborted none, .aborted => true
  | aborted (some reason), .aborted => v.abort.any (·.reason == reason)
  | _, _ => false

end Expectation

end UsagePolicy
