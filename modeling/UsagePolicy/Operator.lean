import UsagePolicy.Vocabulary
/-!
# Logical operators

How many operands of a logical constraint have to be satisfied. A disjunction asks for more than
one of them, and a sequence does not look at their order.
-/

namespace UsagePolicy

inductive Operator
  | or
  | and
  | xone
  | andSequence
  deriving DecidableEq

namespace Operator

/-- The operators in the order in which a node is asked for their operands. -/
def probeOrder : List Operator := [or, and, xone, andSequence]

def iri : Operator → String
  | or => Vocabulary.or
  | and => Vocabulary.and
  | xone => Vocabulary.xone
  | andSequence => Vocabulary.andSequence

def name : Operator → String
  | or => "OR"
  | and => "AND"
  | xone => "XONE"
  | andSequence => "AND-SEQUENCE"

/-- Whether `satisfied` of `total` operands are enough; no operator holds of no operands. -/
def holds (op : Operator) (satisfied total : Nat) : Bool :=
  total != 0 &&
    match op with
    | or => decide (1 < satisfied)
    | and | andSequence => satisfied == total
    | xone => satisfied == 1

theorem mem_probeOrder (op : Operator) : op ∈ probeOrder := by
  cases op <;> decide

end Operator

end UsagePolicy
