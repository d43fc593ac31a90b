import Std.Data.TreeMap
import UsagePolicy.Category
import UsagePolicy.Outcome
/-!
# Oracles

Leaf constraints and actions are not computed: an oracle answers for them, by node or by category.
Presets are an oracle that is written down.
-/

namespace UsagePolicy

structure Oracle where
  ofInstance : String → Option Outcome
  ofCategory : Category → Option Outcome

/-- Where an oracle's answer came from. -/
inductive AnswerSource
  | preset
  | default (category : Category)
  deriving DecidableEq

def AnswerSource.text : AnswerSource → String
  | preset => "preset"
  | default c => s!"default {c.name}"

namespace Oracle

/-- The answer for a node, or else the first default that one of the categories has. -/
def answer? (o : Oracle) (node : String) (categories : List Category) :
    Option (Outcome × AnswerSource) :=
  match o.ofInstance node with
  | some outcome => some (outcome, .preset)
  | none => categories.findSome? fun c => (o.ofCategory c).map (·, .default c)

end Oracle

/-- Outcomes that were set for nodes and for categories. -/
structure Presets where
  instances : Std.TreeMap String Outcome
  defaults : Category → Option Outcome

namespace Presets

def empty : Presets := ⟨∅, fun _ => none⟩

/-- The same default for every category. -/
def uniform (o : Outcome) : Presets := ⟨∅, fun _ => some o⟩

def setInstance (p : Presets) (node : String) (o : Outcome) : Presets :=
  { p with instances := p.instances.insert node o }

def setDefault (p : Presets) (c : Category) (o : Outcome) : Presets :=
  { p with defaults := fun c' => if c' = c then some o else p.defaults c' }

/-- The categories that have a default, with it. -/
def defaultList (p : Presets) : List (Category × Outcome) :=
  Category.all.filterMap fun c => (p.defaults c).map (c, ·)

def oracle (p : Presets) : Oracle := ⟨(p.instances[·]?), p.defaults⟩

@[simp] theorem oracle_ofInstance (p : Presets) (node : String) :
    p.oracle.ofInstance node = p.instances[node]? := rfl

@[simp] theorem oracle_ofCategory (p : Presets) (c : Category) :
    p.oracle.ofCategory c = p.defaults c := rfl

theorem instances_setInstance (p : Presets) (node : String) (o : Outcome) (n : String) :
    (p.setInstance node o).instances[n]? = if node = n then some o else p.instances[n]? := by
  simp [setInstance, Std.TreeMap.getElem?_insert]

theorem defaults_setDefault (p : Presets) (c : Category) (o : Outcome) (c' : Category) :
    (p.setDefault c o).defaults c' = if c' = c then some o else p.defaults c' := rfl

end Presets

/-- A named choice of defaults to begin with. -/
inductive Profile
  | blank
  | permissive
  | restrictive
  deriving DecidableEq

namespace Profile

def all : List Profile := [blank, permissive, restrictive]

def name : Profile → String
  | blank => "blank"
  | permissive => "permissive"
  | restrictive => "restrictive"

def ofName? (text : String) : Option Profile :=
  all.find? (·.name == text)

def presets : Profile → Presets
  | blank => .empty
  | permissive => .uniform .positive
  | restrictive => .uniform .negative

/-- What is said about a profile that does not exist. -/
def unknownMessage (text : String) : String :=
  let names := "|".intercalate (all.map name)
  s!"unknown profile: {text} (expected {names})"

end Profile

end UsagePolicy
