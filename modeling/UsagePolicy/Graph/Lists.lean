import UsagePolicy.Graph
import UsagePolicy.Vocabulary
/-!
# Lists in a graph

A list is a chain of cells: each has its item as `first` and the next cell as `rest`. A chain may be
broken or run in a circle; it is followed as long as it leads to a cell that was not visited.
-/

namespace UsagePolicy.Graph

/-- The nodes that have an item, each as often as it has one. -/
def cells (g : Graph) : List String :=
  (g.query { predicate := some Vocabulary.first }).map (·.subject)

/-- Follows a chain through cells that were not visited yet. -/
def follow (g : Graph) (unvisited : List String) (cursor : String) : List String :=
  if _h : cursor = Vocabulary.nil ∨ cursor ∉ unvisited then []
  else
    match g.firstObject? cursor Vocabulary.first with
    | none => []
    | some item =>
      match g.firstObject? cursor Vocabulary.rest with
      | none => [item]
      | some next => item :: follow g (unvisited.filter (· != cursor)) next
termination_by unvisited.length
decreasing_by
  have hm : cursor ∈ unvisited := by simp_all
  have hdrop : ∃ node ∈ unvisited, ¬ (node != cursor) = true := ⟨cursor, hm, by simp⟩
  rw [List.unattach_filter, List.unattach_attach]
  · exact List.length_filter_lt_length_iff_exists.2 hdrop
  · exact fun _ _ => rfl

/-- The items of the list that begins at a node. -/
def listItems (g : Graph) (head : String) : List String :=
  g.follow g.cells head

/-- The objects of a relation, with lists replaced by their items. -/
def members (g : Graph) (subject predicate : String) : List String :=
  (g.objects subject predicate).flatMap fun object =>
    if object = Vocabulary.nil then []
    else if (g.firstObject? object Vocabulary.first).isSome then g.listItems object
    else [object]

end UsagePolicy.Graph
