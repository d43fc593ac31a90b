/-!
# Labels

The texts by which outcomes, categories, rounds, rule kinds and abort reasons are written, and the
fault of a text that is none of them.
-/

namespace UsagePolicy

/-- What a label was expected to name. -/
inductive LabelSort
  | outcome
  | category
  | round
  | ruleKind
  | abortReason
  deriving DecidableEq

def LabelSort.phrase : LabelSort → String
  | outcome => "outcome label"
  | category => "category"
  | round => "round"
  | ruleKind => "rule kind"
  | abortReason => "abort reason"

/-- A text that is not a label of the expected sort. -/
structure UnknownLabel where
  sort : LabelSort
  text : String
  deriving DecidableEq

def UnknownLabel.message (e : UnknownLabel) : String :=
  s!"unknown {e.sort.phrase}: {e.text}"

end UsagePolicy
