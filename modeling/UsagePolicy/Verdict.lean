import UsagePolicy.Abort
import UsagePolicy.Outcome
import UsagePolicy.RuleKind
/-!
# Verdicts

A rule is either decided, with an outcome, or its evaluation was aborted. A rule's verdict is
reported under the labels of its kind.
-/

namespace UsagePolicy

/-- The facet whose labels name the outcomes of a kind of rule. -/
def RuleKind.facet : RuleKind → Facet
  | permission => .permission
  | prohibition => .prohibition
  | obligation => .duty

inductive Verdict
  | decided (outcome : Outcome)
  | aborted (abort : Abort)
  deriving DecidableEq

namespace Verdict

def outcome? : Verdict → Option Outcome
  | decided o => some o
  | aborted _ => none

def abort? : Verdict → Option Abort
  | decided _ => none
  | aborted a => some a

end Verdict

/-- The kind under which a rule was evaluated, and its verdict. -/
structure Ruling where
  kind : RuleKind
  verdict : Verdict
  deriving DecidableEq

inductive VerdictStatus
  | decided
  | aborted
  deriving DecidableEq

def VerdictStatus.all : List VerdictStatus := [.decided, .aborted]

def VerdictStatus.name : VerdictStatus → String
  | decided => "decided"
  | aborted => "aborted"

/-- A verdict as it is reported. A report that was read may leave out any part but the status. -/
structure VerdictReport where
  status : VerdictStatus
  state : Option String
  outcome : Option Outcome
  abort : Option Abort
  deriving DecidableEq

namespace VerdictReport

/-- The state's label, or the abort's code after `aborted:`. -/
def label (v : VerdictReport) : String :=
  match v.state, v.abort with
  | some state, _ => state
  | none, some abort => s!"aborted:{abort.reason.code}"
  | none, none => "aborted"

end VerdictReport

def Ruling.report (r : Ruling) : VerdictReport :=
  match r.verdict with
  | .decided o => ⟨.decided, some (r.kind.facet.label o), some o, none⟩
  | .aborted a => ⟨.aborted, none, none, some a⟩

end UsagePolicy
