import UsagePolicy.Text.Fold
/-!
# Verdict labels

The labels under which the state of a decided rule can be reported.
-/

namespace UsagePolicy

inductive VerdictLabel
  | allowed
  | notAllowed
  | notViolated
  | violated
  | fulfilled
  | notFulfilled
  | notExisting
  | error
  deriving DecidableEq

namespace VerdictLabel

def all : List VerdictLabel :=
  [allowed, notAllowed, notViolated, violated, fulfilled, notFulfilled, notExisting, error]

def name : VerdictLabel → String
  | allowed => "Allowed"
  | notAllowed => "Not-Allowed"
  | notViolated => "Not-Violated"
  | violated => "Violated"
  | fulfilled => "Fulfilled"
  | notFulfilled => "Not-Fulfilled"
  | notExisting => "Not-Existing"
  | error => "Error"

/-- The label that a text names up to ASCII case. -/
def ofName? (text : String) : Option VerdictLabel :=
  all.find? fun l => Text.sameFolded l.name text

theorem mem_all (l : VerdictLabel) : l ∈ all := by
  cases l <;> decide

theorem ofName?_name (l : VerdictLabel) : ofName? l.name = some l := by
  cases l <;> decide

end VerdictLabel

end UsagePolicy
